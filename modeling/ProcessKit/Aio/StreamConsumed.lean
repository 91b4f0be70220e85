import ProcessKit.Aio.StreamLaws

/-!
# A stream that is consumed

A consumer who takes every item brings the generator to its end. What a run can still do
gets less by every step: a slot acquires and ends, and each of them is waited for and
yielded once.
-/

namespace ProcessKit.Aio

open ProcessKit.Runtime (PyErr PyResult)

variable {α ρ : Type}

/-- The consumer takes item by item and is not cancelled; the commands return, or raise a
`ProcessError`. -/
def Consumes (isProcessError : PyErr → Bool) : StreamAction ρ → Prop
  | .next | .wake _ | .slot _ .acquire => True
  | .slot _ (.finish outcome) => ∀ error, outcome = .error error → isProcessError error = true
  | .close | .throw _ | .cancel | .reaped | .slot _ .abort => False

/-- Every command that runs has ended, and there is nothing else to do. -/
def Stream.Rests (isProcessError : PyErr → Bool) (commands : List α) (limit : PyResult Nat)
    (s : Stream α ρ) : Prop :=
  s.running = 0 ∧ ∀ a s' evs, Consumes isProcessError a →
    s.step isProcessError commands limit a ≠ some (s', evs)

structure Consumed (isProcessError : PyErr → Bool) (commands : List α) (limit : PyResult Nat)
    (s : Stream α ρ) (k : Nat) : Prop where
  bounded : k ≤ 4 * commands.length + 1
  wakes : ∀ pending task, s.phase = .waiting pending → task ∈ pending → s.ended task = true →
    ∃ done s' index outcome, s.step isProcessError commands limit (.wake done) =
      some (s', [.yielded index outcome])
  ends : s.Rests isProcessError commands limit → s.phase = .finished .exhausted

-- ---------------------------------------------------------------------------
-- What is left to do
-- ---------------------------------------------------------------------------

def SlotState.isQueued : SlotState ρ → Bool
  | .queued => true
  | .running | .ended _ => false

def StreamPhase.todo (commands : Nat) : StreamPhase → Nat
  | .unstarted => 4 * commands + 1
  | .waiting pending => 2 * pending.length
  | .yielding done pending => done.length + 1 + 2 * pending.length
  | .draining .. | .finished _ => 0

def Stream.todo (commands : List α) (s : Stream α ρ) : Nat :=
  s.phase.todo commands.length + s.slots.countP (·.state.isQueued) +
    s.slots.countP (!·.state.isEnded)

def StreamPhase.Going (s : Stream α ρ) : StreamPhase → Prop
  | .unstarted => s.slots = []
  | .waiting pending => pending ≠ []
  | .yielding done _ => ∀ task ∈ done, s.ended task = true
  | .draining .. => False
  | .finished exit => exit = .exhausted

structure Consuming (isProcessError : PyErr → Bool) (commands : List α) (limit : Nat)
    (s : Stream α ρ) (log : List (StreamEvent α ρ)) (k : Nat) : Prop where
  streaming : Streaming isProcessError commands (.ok limit) s log
  made : s.phase = .unstarted ∨ s.slots.length = commands.length
  returned : ∀ slot ∈ s.slots, ∀ how, slot.state = .ended how →
    ∃ index outcome, how = .returned index outcome
  going : s.phase.Going s
  paced : k + s.todo commands ≤ 4 * commands.length + 1

section

variable {isProcessError : PyErr → Bool} {commands : List α} {limit k : Nat}
variable {s s' : Stream α ρ} {log evs : List (StreamEvent α ρ)}

theorem Stream.result_of_ended
    (h : ∀ slot ∈ s.slots, ∀ how, slot.state = .ended how →
      ∃ index outcome, how = .returned index outcome) (hended : s.ended task = true) :
    ∃ index outcome, s.result task = .ok (index, outcome) := by
  unfold ended at hended
  split at hended
  · next slot hslot =>
    cases hstate : slot.state with
    | queued | running => simp [hstate, SlotState.isEnded] at hended
    | ended how =>
      obtain ⟨index, outcome, rfl⟩ := h slot (List.mem_of_getElem? hslot) how hstate
      refine ⟨index, outcome, ?_⟩
      obtain ⟨command, place, state⟩ := slot
      obtain rfl : state = .ended (.returned index outcome) := hstate
      simp [result, hslot]
  · cases hended

theorem Stream.resume_returned
    (h : ∀ slot ∈ s.slots, ∀ how, slot.state = .ended how →
      ∃ index outcome, how = .returned index outcome)
    (done pending : List Nat) (hdone : ∀ task ∈ done, s.ended task = true) :
    (done = [] ∧ pending = [] ∧ s.resume pending done = ({ s with phase := .finished .exhausted }, []))
      ∨ (done = [] ∧ pending ≠ [] ∧ s.resume pending done = ({ s with phase := .waiting pending }, []))
      ∨ ∃ task rest index outcome, done = task :: rest ∧
        s.resume pending done =
          ({ s with phase := .yielding rest pending }, [.yielded index outcome]) := by
  cases done with
  | nil =>
    by_cases hnil : pending = []
    · exact .inl ⟨rfl, hnil, by simp [resume, hnil, reap]⟩
    · exact .inr (.inl ⟨rfl, hnil, by simp [resume, hnil]⟩)
  | cons task rest =>
    obtain ⟨index, outcome, hresult⟩ := result_of_ended h (hdone task (by simp))
    exact .inr (.inr ⟨task, rest, index, outcome, rfl, by simp [resume, hresult]⟩)

theorem Stream.resume_todo (commands : List α) (pending : List Nat) {done : List Nat}
    (h : ∀ slot ∈ s.slots, ∀ how, slot.state = .ended how →
      ∃ index outcome, how = .returned index outcome)
    (hdone : ∀ task ∈ done, s.ended task = true) :
    (s.resume pending done).1.slots = s.slots ∧
      (s.resume pending done).1.phase.Going (s.resume pending done).1 ∧
      (s.resume pending done).1.phase.todo commands.length ≤ done.length + 2 * pending.length := by
  rcases Stream.resume_returned h done pending hdone with
    ⟨rfl, rfl, heq⟩ | ⟨rfl, hpending, heq⟩ | ⟨task, rest, index, outcome, rfl, heq⟩
  · rw [heq]
    exact ⟨rfl, rfl, Nat.zero_le _⟩
  · rw [heq]
    exact ⟨rfl, hpending, by simp [StreamPhase.todo]⟩
  · rw [heq]
    exact ⟨rfl, fun other hmem => hdone other (by simp [hmem]), by simp [StreamPhase.todo]⟩

theorem Stream.ended_set (h : s.slots[task]? = some slot) (hlive : slot.state.isEnded = false)
    (state : SlotState ρ) (i : Nat) (hended : s.ended i = true) :
    (s.set task slot state).ended i = true := by
  have hne : i ≠ task := by
    rintro rfl
    simp [ended, h, hlive] at hended
  simpa [ended, Stream.set, List.getElem?_set_ne (Ne.symm hne)] using hended

theorem Consuming.move (h : Consuming isProcessError commands limit s log k)
    (hslot : s.slots[task]? = some slot) (hmv : Consumes isProcessError (.slot task mv))
    (hstep : s.move isProcessError task slot mv = some (s', evs)) :
    Consuming isProcessError commands limit s' (log ++ evs) (k + 1) := by
  have hstreaming := h.streaming.move hslot hstep
  have hphase : s'.phase = s.phase := by
    obtain ⟨state, permits, rfl, -⟩ := Stream.move_cases hstep
    rfl
  have hnew : ∃ state permits, s' = { s.set task slot state with permits } ∧
      slot.state.isEnded = false ∧
      (∀ how, state = .ended how → ∃ index outcome, how = .returned index outcome) ∧
      state.isQueued.toNat + (!state.isEnded).toNat + 1 ≤
        slot.state.isQueued.toNat + (!slot.state.isEnded).toNat := by
    cases mv with
    | acquire =>
      simp only [Stream.move] at hstep
      split at hstep
      · next permits hstate _ =>
        cases hstep
        refine ⟨.running, permits, rfl, ?_, ?_, ?_⟩ <;>
          simp [hstate, SlotState.isEnded, SlotState.isQueued]
      · cases hstep
    | finish outcome =>
      simp only [Stream.move] at hstep
      split at hstep
      · next hstate =>
        cases hstep
        refine ⟨_, _, rfl, by simp [hstate, SlotState.isEnded], fun how hhow => ?_,
          by simp [hstate, SlotState.isEnded, SlotState.isQueued]⟩
        cases hhow
        cases outcome with
        | ok result => exact ⟨_, _, rfl⟩
        | error error => exact ⟨slot.index, .error error, by simp [Slot.caught, hmv error rfl]⟩
      · cases hstep
      · cases hstep
    | abort => exact hmv.elim
  obtain ⟨state, permits, rfl, hlive, hreturned, hless⟩ := hnew
  have hqueued := s.set_countP hslot state SlotState.isQueued
  have hpending := s.set_countP hslot state (fun state => !state.isEnded)
  refine ⟨hstreaming, ?_, fun other hmem => ?_, ?_, ?_⟩
  · exact h.made.imp id fun hlength => List.length_set.trans hlength
  · rcases List.mem_or_eq_of_mem_set hmem with hmem | rfl
    · exact h.returned other hmem
    · exact hreturned
  · have hgoing := h.going
    rw [hphase]
    cases hnow : s.phase with
    | unstarted =>
      rw [hnow] at hgoing
      rw [show s.slots = [] from hgoing] at hslot
      cases hslot
    | waiting | draining | finished =>
      rw [hnow] at hgoing
      exact hgoing
    | yielding done pending =>
      rw [hnow] at hgoing
      exact fun i hi => s.ended_set hslot hlive state i (hgoing i hi)
  · have hpaced := h.paced
    have hsum : s.todo commands = s.phase.todo commands.length +
        s.slots.countP (·.state.isQueued) + s.slots.countP (!·.state.isEnded) := rfl
    have hsum' : Stream.todo commands { s.set task slot state with permits } =
        s.phase.todo commands.length + (s.set task slot state).slots.countP (·.state.isQueued) +
          (s.set task slot state).slots.countP (!·.state.isEnded) := rfl
    omega

theorem Consuming.start (hslots : s.slots = []) (hphase : s.phase = .unstarted)
    (hpaced : k + s.todo commands ≤ 4 * commands.length + 1)
    (hstreaming : Streaming isProcessError commands (.ok limit)
      (Stream.start commands (.ok limit) : Stream α ρ) log) :
    Consuming isProcessError commands limit (Stream.start commands (.ok limit) : Stream α ρ) log
      (k + 1) := by
  simp only [Stream.todo, hphase, StreamPhase.todo, hslots, List.countP_nil] at hpaced
  by_cases hnil : commands = []
  · have hstart : (Stream.start commands (.ok limit) : Stream α ρ) =
        ⟨[], limit, [], .finished .exhausted⟩ := by
      simp [Stream.start, hnil]
    rw [hstart] at hstreaming ⊢
    refine ⟨hstreaming, .inr (by simp [hnil]), by simp, rfl, ?_⟩
    simp only [Stream.todo, StreamPhase.todo, List.countP_nil]
    omega
  · have hstart : (Stream.start commands (.ok limit) : Stream α ρ) =
        ⟨commands.zipIdx.map .new, limit, [], .waiting (List.range commands.length)⟩ := by
      simp [Stream.start, hnil]
    have hqueued := List.countP_le_length
      (p := fun slot : Slot α ρ => slot.state.isQueued) (l := commands.zipIdx.map .new)
    have hpending := List.countP_le_length
      (p := fun slot : Slot α ρ => !slot.state.isEnded) (l := commands.zipIdx.map .new)
    simp only [List.length_map, List.length_zipIdx] at hqueued hpending
    rw [hstart] at hstreaming ⊢
    refine ⟨hstreaming, .inr (by simp), fun slot hmem how hstate => ?_, ?_, ?_⟩
    · obtain ⟨item, -, rfl⟩ := List.mem_map.mp hmem
      cases hstate
    · simpa [StreamPhase.Going] using hnil
    · simp only [Stream.todo, StreamPhase.todo, List.length_range]
      omega

theorem Consuming.wake {pending done : List Nat}
    (h : Consuming isProcessError commands limit s log k) (hphase : s.phase = .waiting pending)
    (hne : done ≠ []) (hdone : done.Perm (pending.filter s.ended))
    (hstreaming : Streaming isProcessError commands (.ok limit)
      (s.resume (pending.filter (!s.ended ·)) done).1 log') :
    Consuming isProcessError commands limit (s.resume (pending.filter (!s.ended ·)) done).1 log'
      (k + 1) := by
  have hended : ∀ task ∈ done, s.ended task = true := by
    intro task hmem
    exact (List.mem_filter.mp (hdone.mem_iff.mp hmem)).2
  obtain ⟨hslots, hnext, htodo⟩ :=
    Stream.resume_todo commands (pending.filter (!s.ended ·)) h.returned hended
  have hpos := List.length_pos_of_ne_nil hne
  have hlength : done.length + (pending.filter (!s.ended ·)).length = pending.length := by
    rw [hdone.length_eq]
    simpa using (List.filter_append_perm s.ended pending).length_eq
  have hpaced := h.paced
  simp only [Stream.todo, hphase, StreamPhase.todo] at hpaced
  refine ⟨hstreaming, .inr ?_, by rw [hslots]; exact h.returned, hnext, ?_⟩
  · rw [hslots]
    exact h.made.resolve_left (by simp [hphase])
  · rw [Stream.todo, hslots]
    omega

theorem Consuming.step (h : Consuming isProcessError commands limit s log k)
    (ha : Consumes isProcessError a)
    (hstep : s.step isProcessError commands (.ok limit) a = some (s', evs)) :
    Consuming isProcessError commands limit s' (log ++ evs) (k + 1) := by
  have hstreaming := h.streaming.step hstep
  have hgoing := h.going
  cases a with
  | next =>
    simp only [Stream.step] at hstep
    split at hstep
    · next hphase =>
      cases hstep
      rw [hphase] at hgoing
      exact .start hgoing hphase h.paced hstreaming
    · next done pending hphase =>
      obtain ⟨rfl, rfl⟩ := Prod.ext_iff.mp (Option.some.inj hstep)
      rw [hphase] at hgoing
      obtain ⟨hslots, hnext, htodo⟩ :=
        Stream.resume_todo commands pending h.returned hgoing
      have hpaced := h.paced
      simp only [Stream.todo, hphase, StreamPhase.todo] at hpaced
      refine ⟨hstreaming, .inr ?_, by rw [hslots]; exact h.returned, hnext, ?_⟩
      · rw [hslots]
        exact h.made.resolve_left (by simp [hphase])
      · rw [Stream.todo, hslots]
        omega
    · cases hstep
  | wake done =>
    simp only [Stream.step] at hstep
    split at hstep
    · next pending hphase =>
      obtain ⟨⟨hne, hdone⟩, heq⟩ := Option.ite_none_right_eq_some.mp hstep
      obtain ⟨rfl, rfl⟩ := Prod.ext_iff.mp (Option.some.inj heq)
      exact h.wake hphase hne hdone hstreaming
    · cases hstep
  | slot task mv =>
    simp only [Stream.step] at hstep
    split at hstep
    · next slot hslot => exact h.move hslot ha hstep
    · cases hstep
  | close | throw | cancel | reaped => exact ha.elim

-- ---------------------------------------------------------------------------
-- The end
-- ---------------------------------------------------------------------------

theorem Consuming.wakes {pending : List Nat}
    (h : Consuming isProcessError commands limit s log k) (hphase : s.phase = .waiting pending)
    (hmem : task ∈ pending) (hended : s.ended task = true) :
    ∃ done s' index outcome, s.step isProcessError commands (.ok limit) (.wake done) =
      some (s', [.yielded index outcome]) := by
  have hdone : task ∈ pending.filter s.ended := List.mem_filter.mpr ⟨hmem, hended⟩
  have hne : pending.filter s.ended ≠ [] := List.ne_nil_of_mem hdone
  have hstep : s.step isProcessError commands (.ok limit) (.wake (pending.filter s.ended)) =
      some (s.resume (pending.filter (!s.ended ·)) (pending.filter s.ended)) := by
    simp only [Stream.step, hphase]
    exact if_pos ⟨hne, .refl _⟩
  rcases Stream.resume_returned h.returned (pending.filter s.ended) (pending.filter (!s.ended ·))
    (fun other hother => (List.mem_filter.mp hother).2) with
    ⟨hnil, -⟩ | ⟨hnil, -⟩ | ⟨_, _, index, outcome, -, heq⟩
  · exact absurd hnil hne
  · exact absurd hnil hne
  · exact ⟨_, _, index, outcome, hstep.trans (congrArg some heq)⟩

theorem Consuming.acquires (h : Consuming isProcessError commands limit s log k)
    (hlimit : 0 < limit) (hidle : s.running = 0) (hslot : s.slots[task]? = some slot)
    (hstate : slot.state = .queued) :
    ∃ s' evs, s.step isProcessError commands (.ok limit) (.slot task .acquire) =
      some (s', evs) := by
  rcases h.streaming.slotted.made with hnil | ⟨hpermits, -⟩
  · rw [hnil] at hslot
    cases hslot
  · have hpermits : limit = s.permits + s.running := Except.ok.inj hpermits
    obtain ⟨permits, hsucc⟩ := Nat.exists_eq_succ_of_ne_zero (show s.permits ≠ 0 by omega)
    refine ⟨{ s.set task slot .running with permits }, [], ?_⟩
    simp only [Stream.step, hslot, Stream.move, hstate, hsucc]

theorem Consuming.waiting_slot {pending : List Nat}
    (h : Consuming isProcessError commands limit s log k) (hphase : s.phase = .waiting pending)
    (hmem : task ∈ pending) : ∃ slot, s.slots[task]? = some slot := by
  have hperm := h.streaming.looped.left pending (by rw [hphase]; rfl)
  have hlt := List.mem_range.mp (hperm.mem_iff.mp (List.mem_append_right _ hmem))
  have hlength := h.made.resolve_left (by simp [hphase])
  exact ⟨_, List.getElem?_eq_getElem (hlength ▸ hlt)⟩

theorem Consuming.ends (h : Consuming isProcessError commands limit s log k)
    (hlimit : 0 < limit) (hrests : s.Rests isProcessError commands (.ok limit)) :
    s.phase = .finished .exhausted := by
  obtain ⟨hidle, hstuck⟩ := hrests
  have hgoing := h.going
  cases hphase : s.phase with
  | unstarted =>
    have hstep : s.step isProcessError commands (.ok limit) .next =
        some (Stream.start commands (.ok limit), []) := by
      simp only [Stream.step, hphase]
    exact absurd hstep (hstuck .next _ _ trivial)
  | yielding done pending =>
    have hstep : s.step isProcessError commands (.ok limit) .next =
        some ((s.resume pending done).1, (s.resume pending done).2) := by
      simp only [Stream.step, hphase]
    exact absurd hstep (hstuck .next _ _ trivial)
  | draining tasks pendingCancel exit =>
    rw [hphase] at hgoing
    exact hgoing.elim
  | finished exit =>
    rw [hphase] at hgoing
    rw [show exit = .exhausted from hgoing]
  | waiting pending =>
    rw [hphase] at hgoing
    obtain ⟨task, hmem⟩ := List.exists_mem_of_ne_nil pending hgoing
    obtain ⟨slot, hslot⟩ := h.waiting_slot hphase hmem
    cases hstate : slot.state with
    | queued =>
      obtain ⟨s', evs, hstep⟩ := h.acquires hlimit hidle hslot hstate
      exact absurd hstep (hstuck _ _ _ trivial)
    | running =>
      have hpos : 0 < s.running :=
        List.countP_pos_iff.mpr ⟨slot, List.mem_of_getElem? hslot, by simp [hstate,
          SlotState.isRunning]⟩
      omega
    | ended how =>
      obtain ⟨done, s', index, outcome, hstep⟩ :=
        h.wakes hphase hmem (by simp [Stream.ended, hslot, hstate, SlotState.isEnded])
      exact absurd hstep (hstuck (.wake done) _ _ trivial)

theorem resolveConcurrency_pos (h : resolveConcurrency cpuCount concurrency = .ok limit) :
    0 < limit := by
  unfold resolveConcurrency at h
  split at h
  · split at h <;> cases h
    · omega
    · omega
    · next hzero => exact Nat.pos_of_ne_zero fun hnil => hzero (by rw [hnil])
  · split at h
    · cases h
    · cases h
      omega

theorem consuming {counted : Stream α ρ × Nat}
    (hlimit : resolveConcurrency cpuCount concurrency = .ok limit)
    (h : (Stream.machine isProcessError commands cpuCount concurrency).counted.Reach
      (fun _ a => Consumes isProcessError a) counted log) :
    Consuming isProcessError commands limit counted.1 log counted.2 := by
  refine h.invariant (P := fun s log => Consuming isProcessError commands limit s.1 log s.2) ?_
    fun s log a s' evs hs ha hstep => ?_
  · refine ⟨hlimit ▸ streaming .init, .inl rfl, nofun, rfl, ?_⟩
    simp [Stream.machine, Transition.Machine.counted, Stream.new, Stream.todo, StreamPhase.todo]
  · obtain ⟨hstep, hcount⟩ := Transition.Machine.counted_step hstep
    rw [hcount]
    exact hs.step ha (hlimit ▸ hstep)

theorem stream_as_completed_streams :
    (∀ s log, (Stream.machine isProcessError commands cpuCount concurrency).Reachable s log →
      Streams isProcessError commands (resolveConcurrency cpuCount concurrency)
        (s : Stream α ρ) log) ∧
    ∀ limit, resolveConcurrency cpuCount concurrency = .ok limit → ∀ s log,
      (Stream.machine isProcessError commands cpuCount concurrency).counted.Reach
        (fun _ a => Consumes isProcessError a) s log →
      Consumed isProcessError commands (.ok limit) (s.1 : Stream α ρ) s.2 := by
  refine ⟨fun s log h => (streaming h).streams, fun limit hlimit s log h => ?_⟩
  have hconsuming := consuming hlimit h
  exact ⟨(Nat.le_add_right _ _).trans hconsuming.paced,
    fun pending task hphase hmem hended => hconsuming.wakes hphase hmem hended,
    hconsuming.ends (resolveConcurrency_pos hlimit)⟩

end

-- ---------------------------------------------------------------------------
-- A consumer who leaves
-- ---------------------------------------------------------------------------

def spawnFailed : PyErr := ⟨"ProgramNotFound", "no such program"⟩

/-- The second of two commands fails to spawn, and is yielded; then the consumer closes
the generator, and is cancelled while the first is reaped. -/
def leaving : List (StreamAction Nat) :=
  [.next, .slot 1 .acquire, .slot 1 (.finish (.error spawnFailed)), .slot 0 .acquire, .wake [1],
    .close, .cancel, .slot 0 .abort, .reaped]

theorem stream_as_completed_streams_leaving : ∃ s log,
    (Stream.machine (· = spawnFailed) ["serve", "absent"] none (some 1)).Reachable s log ∧
      s.phase = .finished .cancelled ∧
      Streams (· = spawnFailed) ["serve", "absent"] (.ok 1) (s : Stream String Nat) log := by
  obtain ⟨s, log, hr, hphase⟩ := Transition.Machine.reach_replay
    (m := Stream.machine (· = spawnFailed) ["serve", "absent"] none (some 1)) leaving
    (fun s _ => s.phase) (fun _ _ _ => trivial) (b := .finished .cancelled) (by decide +kernel)
  exact ⟨s, log, hr, hphase, stream_as_completed_streams.1 s log hr⟩

end ProcessKit.Aio
