import ProcessKit.Runner.When
import ProcessKit.Transition

/-!
# A batch pairs every error with its own command

The driver of a batch polls the futures of all commands on one task, and all of
them hand their predicate's error over in one cell. What makes the pairing right
is the driver's contract: an item is yielded before another future is polled to
completion, so that the cell holds what the command of this item put there.

The order of the polls is free, and so is what the commands' callbacks do in
each of them.
-/

namespace ProcessKit.Runner

open ProcessKit.Runtime (PyErr)

/-- Where a command of the batch is, between the driver's first poll of its
future and the consumer's receipt of its item. -/
inductive CommandPc
  | queued
  | polling
  | resolved
  | yielded
  deriving DecidableEq

structure CommandRun where
  sink : WhenSink
  pc : CommandPc
  deriving DecidableEq

/-- One command's outcome as `collect_in_input_order` stores it. -/
inductive Slot (ρ : Type)
  | predicateError (err : PyErr)
  | result (result : ρ)
  deriving DecidableEq

/-- A broken predicate takes precedence. -/
def Slot.of (err : Option PyErr) (result : ρ) : Slot ρ :=
  match err with
  | some err => .predicateError err
  | none => .result result

/-- `item` is the completion that the stream is about to yield. -/
structure Batch (ρ : Type) where
  commands : List CommandRun
  completed : CompletedCell
  item : Option (Nat × ρ)
  slots : List (Option (Slot ρ))

def Batch.new (total : Nat) : Batch ρ where
  commands := List.replicate total ⟨newWhenSink, .queued⟩
  completed := none
  item := none
  slots := List.replicate total none

inductive BatchEvent (ρ : Type)
  | raised (command : Nat) (error : PyErr)
  | resolved (command : Nat) (result : ρ)
  deriving DecidableEq

/-- A poll names the errors that the command's callbacks raise in it, and what
the inner future answers. -/
inductive BatchAction (ρ : Type)
  | poll (command : Nat) (errors : List PyErr) (ready : Option ρ)
  | next
  deriving DecidableEq

def Batch.inFlight (b : Batch ρ) : Nat := b.commands.countP (·.pc = .polling)

/-- The driver may poll the command: it is in flight, or there is room for it. -/
def Batch.polls (b : Batch ρ) (concurrency : Nat) (c : CommandRun) : Bool :=
  c.pc = .polling || (c.pc = .queued && b.inFlight < concurrency)

def Batch.step (concurrency : Nat) (b : Batch ρ) :
    BatchAction ρ → Option (Batch ρ × List (BatchEvent ρ))
  | .poll i errors ready =>
    match b.commands[i]? with
    | none => none
    | some c =>
      if b.polls concurrency c ∧ (ready.isSome → b.item.isNone) then
        let sink := (scopeWhen c.sink fun slot => ((), stashAll errors slot)).2
        match ready with
        | none =>
          some ({ b with commands := b.commands.set i ⟨sink, .polling⟩ }, errors.map (.raised i))
        | some result =>
          some ({ b with
              commands := b.commands.set i ⟨(takeWhenError sink).2, .resolved⟩
              completed := b.completed.handOff sink
              item := some (i, result) },
            errors.map (.raised i) ++ [.resolved i result])
      else none
  | .next =>
    match b.item with
    | none => none
    | some (i, result) =>
      let taken := b.completed.takeCompletedError
      some ({ b with
        commands := b.commands.modify i fun c => { c with pc := .yielded }
        completed := taken.2
        item := none
        slots := b.slots.set i (some (.of taken.1 result)) }, [])

def Batch.machine (concurrency total : Nat) :
    Transition.Machine (Batch ρ) (BatchAction ρ) (BatchEvent ρ) where
  init := .new total
  step := Batch.step concurrency

def Batch.ended (b : Batch ρ) : Bool := b.commands.all (·.pc = .yielded)

/-- What `collect_in_input_order` returns. -/
def Batch.collect (b : Batch ρ) : List (Slot ρ) :=
  b.slots.map (·.getD (.predicateError
    ⟨"ValueError", "the batch driver ended without reporting this command"⟩))

-- ---------------------------------------------------------------------------
-- The history of one command
-- ---------------------------------------------------------------------------

def BatchEvent.error (i : Nat) : BatchEvent ρ → Option PyErr
  | .raised j error => if j = i then some error else none
  | .resolved .. => none

def BatchEvent.result (i : Nat) : BatchEvent ρ → Option ρ
  | .resolved j result => if j = i then some result else none
  | .raised .. => none

def firstError (i : Nat) (log : List (BatchEvent ρ)) : Option PyErr :=
  log.findSome? (·.error i)

def results (i : Nat) (log : List (BatchEvent ρ)) : List ρ := log.filterMap (·.result i)

theorem firstError_append (i : Nat) (log evs : List (BatchEvent ρ)) :
    firstError i (log ++ evs) = (firstError i log).or (firstError i evs) := by
  simp [firstError, List.findSome?_append]

theorem results_append (i : Nat) (log evs : List (BatchEvent ρ)) :
    results i (log ++ evs) = results i log ++ results i evs := by
  simp [results]

theorem firstError_raised (i j : Nat) (errors : List PyErr) :
    firstError i (errors.map (BatchEvent.raised (ρ := ρ) j)) =
      if j = i then errors.head? else none := by
  cases errors with
  | nil => simp [firstError]
  | cons e errors =>
    by_cases hj : j = i
    · simp [firstError, BatchEvent.error, hj]
    · simp [firstError, BatchEvent.error, hj]

theorem results_raised (i j : Nat) (errors : List PyErr) :
    results i (errors.map (BatchEvent.raised (ρ := ρ) j)) = [] := by
  simp [results, BatchEvent.result]

-- ---------------------------------------------------------------------------
-- What a step can do
-- ---------------------------------------------------------------------------

inductive Batch.Step (b : Batch ρ) : BatchAction ρ → Batch ρ → List (BatchEvent ρ) → Prop
  | pending : b.commands[i]? = some c → c.pc = .queued ∨ c.pc = .polling →
      Step b (.poll i errors none)
        { b with commands := b.commands.set i ⟨c.sink.or errors.head?, .polling⟩ }
        (errors.map (.raised i))
  | ready : b.commands[i]? = some c → c.pc = .queued ∨ c.pc = .polling → b.item = none →
      Step b (.poll i errors (some result))
        { b with
          commands := b.commands.set i ⟨none, .resolved⟩
          completed := b.completed.handOff (c.sink.or errors.head?)
          item := some (i, result) }
        (errors.map (.raised i) ++ [.resolved i result])
  | next : b.item = some (i, result) →
      Step b .next
        { b with
          commands := b.commands.modify i fun c => { c with pc := .yielded }
          completed := none
          item := none
          slots := b.slots.set i (some (.of b.completed result)) } []

theorem Batch.Step.of_step {b b' : Batch ρ} (hs : b.step concurrency a = some (b', evs)) :
    b.Step a b' evs := by
  cases a with
  | poll i errors ready =>
    simp only [Batch.step, scopeWhen_stashAll] at hs
    split at hs
    · cases hs
    · rename_i c hc
      split at hs
      · rename_i hpolls
        have hpc : c.pc = .queued ∨ c.pc = .polling := by
          have := hpolls.1
          simp only [Batch.polls, Bool.or_eq_true, Bool.and_eq_true, decide_eq_true_eq] at this
          exact this.symm.imp_left And.left
        cases ready with
        | none =>
          cases hs
          exact .pending hc hpc
        | some result =>
          cases hs
          exact .ready hc hpc (by simpa using hpolls.2)
      · cases hs
  | next =>
    simp only [Batch.step] at hs
    split at hs <;> cases hs
    exact .next ‹_›

-- ---------------------------------------------------------------------------
-- The invariant
-- ---------------------------------------------------------------------------

/-- What the batch holds of command `i`: its errors until it resolves, then its
item, then its slot. -/
def Batch.Placed (b : Batch ρ) (log : List (BatchEvent ρ)) (i : Nat) (c : CommandRun) : Prop :=
  match c.pc with
  | .queued | .polling => c.sink = firstError i log ∧ results i log = []
  | .resolved => ∃ result, b.item = some (i, result) ∧ b.completed = firstError i log ∧
      results i log = [result]
  | .yielded => ∃ result, results i log = [result] ∧
      b.slots[i]? = some (some (.of (firstError i log) result))

structure Attributed (total : Nat) (b : Batch ρ) (log : List (BatchEvent ρ)) : Prop where
  placed : ∀ i c, b.commands[i]? = some c → b.Placed log i c
  item : ∀ i result, b.item = some (i, result) → ∃ c, b.commands[i]? = some c ∧ c.pc = .resolved
  idle : b.item = none → b.completed = none
  commands : b.commands.length = total
  slots : b.slots.length = total

theorem Attributed.init (total : Nat) : Attributed total (Batch.new total : Batch ρ) [] where
  placed i c hc := by
    obtain ⟨-, rfl⟩ : i < total ∧ ⟨newWhenSink, .queued⟩ = c := by
      simpa [Batch.new, List.getElem?_replicate] using hc
    exact ⟨rfl, rfl⟩
  item := nofun
  idle _ := rfl
  commands := List.length_replicate
  slots := List.length_replicate

/-- A command that the step's events say nothing about stays placed while its
own slot does, and the item too if it is the command's. -/
theorem Batch.Placed.frame {b b' : Batch ρ} (hp : b.Placed log i c)
    (herror : firstError i evs = none) (hresults : results i evs = [])
    (hitem : c.pc = .resolved → b'.item = b.item ∧ b'.completed = b.completed)
    (hslot : b'.slots[i]? = b.slots[i]?) : b'.Placed (log ++ evs) i c := by
  unfold Batch.Placed at hp ⊢
  rw [firstError_append, results_append, herror, hresults, Option.or_none, List.append_nil, hslot]
  cases hpc : c.pc with
  | queued | polling | yielded => simpa only [hpc] using hp
  | resolved =>
    obtain ⟨hitem, hcell⟩ := hitem hpc
    rw [hitem, hcell]
    simpa only [hpc] using hp

theorem Batch.Placed.unresolved {b : Batch ρ} (hp : b.Placed log i c)
    (hpc : c.pc = .queued ∨ c.pc = .polling) :
    c.sink = firstError i log ∧ results i log = [] := by
  unfold Batch.Placed at hp
  rcases hpc with hpc | hpc <;> simpa only [hpc] using hp

theorem Batch.Placed.resolved {b : Batch ρ} (hp : b.Placed log i c) (hpc : c.pc = .resolved) :
    ∃ result, b.item = some (i, result) ∧ b.completed = firstError i log ∧
      results i log = [result] := by
  unfold Batch.Placed at hp
  simpa only [hpc] using hp

theorem getElem?_set_cases {l : List α} (h : (l.set i a)[j]? = some d) :
    j = i ∧ d = a ∨ j ≠ i ∧ l[j]? = some d := by
  by_cases hj : i = j
  · subst hj
    obtain ⟨-, rfl⟩ : i < l.length ∧ a = d := by simpa [List.getElem?_set] using h
    exact .inl ⟨rfl, rfl⟩
  · exact .inr ⟨Ne.symm hj, by rwa [List.getElem?_set_ne hj] at h⟩

theorem Attributed.step_pending {b : Batch ρ} {errors : List PyErr} (hi : Attributed total b log)
    (hc : b.commands[i]? = some c) (hpc : c.pc = .queued ∨ c.pc = .polling) :
    Attributed total { b with commands := b.commands.set i ⟨c.sink.or errors.head?, .polling⟩ }
      (log ++ errors.map (.raised i)) where
  placed j d hd := by
    obtain ⟨hsink, hresults⟩ := (hi.placed i c hc).unresolved hpc
    rcases getElem?_set_cases hd with ⟨rfl, rfl⟩ | ⟨hj, hd⟩
    · exact ⟨by rw [firstError_append, firstError_raised, if_pos rfl, hsink],
        by rw [results_append, results_raised, hresults]; rfl⟩
    · exact (hi.placed j d hd).frame (by rw [firstError_raised, if_neg hj.symm])
        (results_raised _ _ _) (fun _ => ⟨rfl, rfl⟩) rfl
  item k result hitem := by
    obtain ⟨d, hd, hres⟩ := hi.item k result hitem
    refine ⟨d, ?_, hres⟩
    rw [List.getElem?_set_ne, hd]
    rintro rfl
    rw [hc, Option.some.injEq] at hd
    subst hd
    simp [hres] at hpc
  idle := hi.idle
  commands := by simpa using hi.commands
  slots := hi.slots

theorem Attributed.step_ready {b : Batch ρ} {errors : List PyErr} (hi : Attributed total b log)
    (hc : b.commands[i]? = some c) (hpc : c.pc = .queued ∨ c.pc = .polling)
    (hidle : b.item = none) (result : ρ) :
    Attributed total
      { b with
        commands := b.commands.set i ⟨none, .resolved⟩
        completed := b.completed.handOff (c.sink.or errors.head?)
        item := some (i, result) }
      (log ++ (errors.map (.raised i) ++ [.resolved i result])) where
  placed j d hd := by
    obtain ⟨hsink, hresults⟩ := (hi.placed i c hc).unresolved hpc
    rcases getElem?_set_cases hd with ⟨rfl, rfl⟩ | ⟨hj, hd⟩
    · refine ⟨result, rfl, ?_, ?_⟩
      · rw [hi.idle hidle, CompletedCell.handOff_empty, firstError_append, firstError_append,
          firstError_raised, if_pos rfl, hsink]
        simp [firstError, BatchEvent.error]
      · rw [results_append, results_append, results_raised, hresults]
        simp [results, BatchEvent.result]
    · refine (hi.placed j d hd).frame ?_ ?_ (fun hres => ?_) rfl
      · rw [firstError_append, firstError_raised, if_neg hj.symm]
        rfl
      · rw [results_append, results_raised]
        simp [results, BatchEvent.result, hj.symm]
      · -- another resolved command would have an item already
        obtain ⟨_, hitem, -⟩ := (hi.placed j d hd).resolved hres
        rw [hidle] at hitem
        cases hitem
  item k r hitem := by
    cases hitem
    exact ⟨_, List.getElem?_set_self (List.getElem?_eq_some_iff.mp hc).1, rfl⟩
  idle := nofun
  commands := by simpa using hi.commands
  slots := hi.slots

theorem Attributed.step_next {b : Batch ρ} (hi : Attributed total b log)
    (hitem : b.item = some (i, result)) :
    Attributed total
      { b with
        commands := b.commands.modify i fun c => { c with pc := .yielded }
        completed := none
        item := none
        slots := b.slots.set i (some (.of b.completed result)) }
      (log ++ []) where
  placed j d hd := by
    obtain ⟨c, hc, hres⟩ := hi.item i result hitem
    obtain ⟨r, hr, hcell, hresults⟩ := (hi.placed i c hc).resolved hres
    obtain rfl : result = r := by simpa [hitem] using hr
    have hlen : i < b.slots.length := by
      rw [hi.slots, ← hi.commands]
      exact (List.getElem?_eq_some_iff.mp hc).1
    by_cases hj : i = j
    · subst hj
      obtain rfl : { c with pc := .yielded } = d := by simpa [hc] using hd
      rw [List.append_nil]
      exact ⟨result, hresults, by rw [List.getElem?_set_self hlen, hcell]⟩
    · rw [List.getElem?_modify_ne _ _ hj] at hd
      refine (hi.placed j d hd).frame rfl rfl (fun hres => ?_) (List.getElem?_set_ne hj)
      obtain ⟨_, hitem', -⟩ := (hi.placed j d hd).resolved hres
      rw [hitem] at hitem'
      cases hitem'
      exact absurd rfl hj
  item := nofun
  idle _ := rfl
  commands := by simpa using hi.commands
  slots := by simpa using hi.slots

theorem Attributed.step {b b' : Batch ρ} (hi : Attributed total b log) (hs : b.Step a b' evs) :
    Attributed total b' (log ++ evs) := by
  cases hs with
  | pending hc hpc => exact hi.step_pending hc hpc
  | ready hc hpc hidle => exact hi.step_ready hc hpc hidle _
  | next hitem => exact hi.step_next hitem

-- ---------------------------------------------------------------------------
-- Every batch
-- ---------------------------------------------------------------------------

structure Batch.Attributes (total : Nat) (b : Batch ρ) (log : List (BatchEvent ρ)) : Prop where
  length : b.collect.length = total
  /-- A command resolved once, and its slot is its own first error, or else its
  own result. -/
  slot : ∀ i < total, ∃ result, results i log = [result] ∧
    b.collect[i]? = some (.of (firstError i log) result)
  empty : b.completed = none

theorem Batch.attributes {b : Batch ρ} (hr : (Batch.machine concurrency total).Reachable b log)
    (hend : b.ended = true) : b.Attributes total log := by
  have hi : Attributed total b log := hr.invariant (.init total) fun _ _ _ _ _ hi _ hs =>
    hi.step (.of_step hs)
  have hyielded (i : Nat) (c : CommandRun) (hc : b.commands[i]? = some c) : c.pc = .yielded := by
    simpa using List.all_eq_true.mp hend c (List.mem_of_getElem? hc)
  refine ⟨by simp [Batch.collect, hi.slots], fun i hlt => ?_, hi.idle ?_⟩
  · obtain ⟨c, hc⟩ : ∃ c, b.commands[i]? = some c :=
      ⟨_, List.getElem?_eq_getElem (by rw [hi.commands]; exact hlt)⟩
    have hplaced := hi.placed i c hc
    simp only [Batch.Placed, hyielded i c hc] at hplaced
    obtain ⟨result, hresults, hslot⟩ := hplaced
    exact ⟨result, hresults, by simp [Batch.collect, hslot]⟩
  · cases hitem : b.item with
    | none => rfl
    | some item =>
      obtain ⟨c, hc, hres⟩ := hi.item item.1 item.2 hitem
      rw [hyielded _ c hc] at hres
      cases hres

/-- Two commands in flight: the first raises in its first poll and resolves
after the second, which raises nothing. -/
def crossedBatch : List (BatchAction Nat) :=
  [.poll 0 [⟨"ValueError", "first"⟩] none, .poll 1 [] none, .poll 1 [] (some 11), .next,
    .poll 0 [⟨"KeyError", "second"⟩] (some 10), .next]

theorem Batch.attributes_crossed : ∃ b log, (Batch.machine (ρ := Nat) 2 2).Reachable b log ∧
    b.collect = [.predicateError ⟨"ValueError", "first"⟩, .result 11] ∧ b.Attributes 2 log := by
  obtain ⟨b, log, hr, heq⟩ := Transition.Machine.reach_replay (m := Batch.machine 2 2) crossedBatch
    (fun b _ => (b.ended, b.collect)) (fun _ _ _ => trivial)
    (b := (true, [.predicateError ⟨"ValueError", "first"⟩, .result 11])) (by decide +kernel)
  simp only [Prod.mk.injEq] at heq
  exact ⟨b, log, hr, heq.2, Batch.attributes hr heq.1⟩

end ProcessKit.Runner
