import ProcessKit.Aio.Stream
import Mathlib.Data.List.Range

/-!
# What a stream yields, and what it leaves behind

The slots keep to their commands and permits, whatever the generator does. The
generator keeps account of the tasks: what it has yielded, what `done` still holds and
what is pending are together the commands, each once, until the loops are left early;
and no task runs that is not among those it waits for.
-/

namespace ProcessKit.Aio

open ProcessKit.Runtime (PyErr PyResult)

variable {α ρ : Type}

-- ---------------------------------------------------------------------------
-- What a run keeps
-- ---------------------------------------------------------------------------

def Stream.running (s : Stream α ρ) : Nat := s.slots.countP (·.state.isRunning)

def StreamEvent.index? : StreamEvent α ρ → Option Nat
  | .yielded index _ => some index
  | .ran .. | .cancelled => none

def yields (log : List (StreamEvent α ρ)) : List Nat := log.filterMap StreamEvent.index?

/-- The tasks of which some may still run. -/
def StreamPhase.pending : StreamPhase → List Nat
  | .unstarted | .finished _ => []
  | .waiting pending | .yielding _ pending => pending
  | .draining tasks _ _ => tasks

/-- The tasks still to be yielded, where the loops are not left early. -/
def StreamPhase.left : StreamPhase → Option (List Nat)
  | .waiting pending => some pending
  | .yielding done pending => some (done ++ pending)
  | .finished .exhausted => some []
  | .unstarted | .draining .. | .finished _ => none

/-- The generator is to raise a `CancelledError`, or has. -/
def StreamPhase.IsCancelled : StreamPhase → Prop
  | .draining _ pendingCancel exit => pendingCancel = true ∨ exit = .cancelled
  | .finished exit => exit = .cancelled
  | .unstarted | .waiting _ | .yielding .. => False

structure Streams (isProcessError : PyErr → Bool) (commands : List α) (limit : PyResult Nat)
    (s : Stream α ρ) (log : List (StreamEvent α ρ)) : Prop where
  bounded : ∀ n, limit = .ok n → s.running ≤ n
  refused : ∀ error, limit = .error error → s.slots = []
  once : (yields log).Nodup
  own : ∀ i outcome, .yielded i outcome ∈ log → ∃ command, commands[i]? = some command ∧
    .ran i command outcome ∈ log ∧ ∀ error, outcome = .error error → isProcessError error = true
  ranOnce : ∀ i command command' outcome outcome', .ran i command outcome ∈ log →
    .ran i command' outcome' ∈ log → outcome = outcome'
  complete : s.phase = .finished .exhausted → (yields log).Perm (List.range commands.length)
  reaped : ∀ exit, s.phase = .finished exit → ∀ slot ∈ s.slots, slot.state.isEnded = true
  requested : ∀ tasks pendingCancel exit, s.phase = .draining tasks pendingCancel exit →
    ∀ i slot, s.slots[i]? = some slot → slot.state.isEnded = false → i ∈ s.cancels
  reraised : ∀ exit, s.phase = .finished exit → .cancelled ∈ log → exit = .cancelled

structure Slotted (isProcessError : PyErr → Bool) (commands : List α) (limit : PyResult Nat)
    (s : Stream α ρ) (log : List (StreamEvent α ρ)) : Prop where
  made : s.slots = [] ∨ limit = .ok (s.permits + s.running) ∧
    s.slots.map (fun slot => (slot.command, slot.index)) = commands.zipIdx
  ran : ∀ i command outcome, .ran i command outcome ∈ log →
    ∃ slot, s.slots[i]? = some slot ∧ slot.state = .ended (slot.caught isProcessError outcome)
  returned : ∀ (i : Nat) slot j outcome, s.slots[i]? = some slot →
    slot.state = .ended (.returned j outcome) → j = i ∧ .ran i slot.command outcome ∈ log ∧
      ∀ error, outcome = .error error → isProcessError error = true

structure Yielding (isProcessError : PyErr → Bool) (commands : List α)
    (log : List (StreamEvent α ρ)) : Prop where
  once : (yields log).Nodup
  own : ∀ i outcome, .yielded i outcome ∈ log → ∃ command, commands[i]? = some command ∧
    .ran i command outcome ∈ log ∧ ∀ error, outcome = .error error → isProcessError error = true

structure Looped (commands : List α) (s : Stream α ρ) (log : List (StreamEvent α ρ)) : Prop where
  unstarted : s.phase = .unstarted → s.slots = [] ∧ log = []
  left : ∀ left, s.phase.left = some left → (yields log ++ left).Perm (List.range commands.length)
  live : ∀ (i : Nat) slot, s.slots[i]? = some slot → slot.state.isEnded = false →
    i ∈ s.phase.pending
  draining : ∀ tasks pendingCancel exit, s.phase = .draining tasks pendingCancel exit →
    exit ≠ .exhausted ∧ ∀ task ∈ tasks, task ∈ s.cancels
  cancelled : .cancelled ∈ log → s.phase.IsCancelled

structure Streaming (isProcessError : PyErr → Bool) (commands : List α) (limit : PyResult Nat)
    (s : Stream α ρ) (log : List (StreamEvent α ρ)) : Prop where
  slotted : Slotted isProcessError commands limit s log
  yielding : Yielding isProcessError commands log
  looped : Looped commands s log

inductive Stream.Stepped (isProcessError : PyErr → Bool) (commands : List α) (limit : PyResult Nat)
    (s : Stream α ρ) : StreamAction ρ → Stream α ρ → List (StreamEvent α ρ) → Prop
  | started (hphase : s.phase = .unstarted) :
      Stepped isProcessError commands limit s .next (Stream.start commands limit) []
  | resumed (hphase : s.phase = .yielding done pending) :
      Stepped isProcessError commands limit s .next (s.resume pending done).1
        (s.resume pending done).2
  | stopped (hstop : s.stop exit = some (s', evs)) (hexit : exit ≠ .exhausted) :
      Stepped isProcessError commands limit s a s' evs
  | cancelledWaiting (hphase : s.phase = .waiting pending) :
      Stepped isProcessError commands limit s .cancel (s.reap pending .cancelled) [.cancelled]
  | cancelledDraining (hphase : s.phase = .draining tasks pendingCancel exit) :
      Stepped isProcessError commands limit s .cancel
        { s with cancels := s.cancels ++ tasks, phase := .draining tasks true exit } [.cancelled]
  | woken (hphase : s.phase = .waiting pending) (hdone : done.Perm (pending.filter s.ended)) :
      Stepped isProcessError commands limit s (.wake done)
        (s.resume (pending.filter (!s.ended ·)) done).1
        (s.resume (pending.filter (!s.ended ·)) done).2
  | reaped (hphase : s.phase = .draining tasks pendingCancel exit) (hall : tasks.all s.ended = true) :
      Stepped isProcessError commands limit s .reaped
        { s with phase := .finished (if pendingCancel then .cancelled else exit) } []
  | moved (hslot : s.slots[task]? = some slot)
      (hmove : s.move isProcessError task slot mv = some (s', evs)) :
      Stepped isProcessError commands limit s (.slot task mv) s' evs

theorem Stream.stepped {isProcessError : PyErr → Bool} {commands : List α} {limit : PyResult Nat}
    {s s' : Stream α ρ} {a : StreamAction ρ} {evs : List (StreamEvent α ρ)}
    (hstep : s.step isProcessError commands limit a = some (s', evs)) :
    Stream.Stepped isProcessError commands limit s a s' evs := by
  cases a with
  | next =>
    simp only [Stream.step] at hstep
    split at hstep
    · next hphase =>
      cases hstep
      exact .started hphase
    · next done pending hphase =>
      obtain ⟨rfl, rfl⟩ := Prod.ext_iff.mp (Option.some.inj hstep)
      exact .resumed hphase
    · cases hstep
  | close =>
    have hstop : s.stop .closed = some (s', evs) := hstep
    exact .stopped hstop nofun
  | throw error =>
    have hstop : s.stop (.raised error) = some (s', evs) := hstep
    exact .stopped hstop nofun
  | cancel =>
    simp only [Stream.step] at hstep
    split at hstep
    · next pending hphase =>
      cases hstep
      exact .cancelledWaiting hphase
    · next tasks pendingCancel exit hphase =>
      cases hstep
      exact .cancelledDraining hphase
    · cases hstep
  | wake done =>
    simp only [Stream.step] at hstep
    split at hstep
    · next pending hphase =>
      obtain ⟨⟨-, hdone⟩, heq⟩ := Option.ite_none_right_eq_some.mp hstep
      obtain ⟨rfl, rfl⟩ := Prod.ext_iff.mp (Option.some.inj heq)
      exact .woken hphase hdone
    · cases hstep
  | reaped =>
    simp only [Stream.step] at hstep
    split at hstep
    · next tasks pendingCancel exit hphase =>
      obtain ⟨hall, heq⟩ := Option.ite_none_right_eq_some.mp hstep
      cases heq
      exact .reaped hphase hall
    · cases hstep
  | slot task mv =>
    simp only [Stream.step] at hstep
    split at hstep
    · next slot hslot => exact .moved hslot hstep
    · cases hstep

section

variable {isProcessError : PyErr → Bool} {commands : List α} {limit : PyResult Nat}
variable {s s' : Stream α ρ} {log evs : List (StreamEvent α ρ)}

theorem yields_append (log evs : List (StreamEvent α ρ)) :
    yields (log ++ evs) = yields log ++ yields evs := List.filterMap_append

theorem Slot.caught_inj {slot : Slot α ρ}
    (h : slot.caught isProcessError outcome = slot.caught isProcessError outcome') :
    outcome = outcome' := by
  cases outcome with
  | ok result =>
    cases outcome' with
    | ok result' => simpa [caught] using h
    | error error' =>
      simp only [caught] at h
      split at h <;> simp at h
  | error error =>
    cases outcome' with
    | ok result' =>
      simp only [caught] at h
      split at h <;> simp at h
    | error error' =>
      simp only [caught] at h
      split at h
      · split at h
        · simpa using h
        · cases h
      · split at h
        · cases h
        · simpa using h

theorem Streaming.streams (h : Streaming isProcessError commands limit s log) :
    Streams isProcessError commands limit s log where
  bounded n hn := by
    rcases h.slotted.made with hnil | ⟨hlimit, -⟩
    · simp [Stream.running, hnil]
    · obtain rfl : s.permits + s.running = n := by simpa [hlimit] using hn
      exact Nat.le_add_left _ _
  refused error herror := by
    rcases h.slotted.made with hnil | ⟨hlimit, -⟩
    · exact hnil
    · rw [hlimit] at herror
      cases herror
  once := h.yielding.once
  own := h.yielding.own
  ranOnce i command command' outcome outcome' hran hran' := by
    obtain ⟨slot, hslot, hstate⟩ := h.slotted.ran i command outcome hran
    obtain ⟨slot', hslot', hstate'⟩ := h.slotted.ran i command' outcome' hran'
    obtain rfl : slot = slot' := by simpa [hslot] using hslot'
    rw [hstate, SlotState.ended.injEq] at hstate'
    exact Slot.caught_inj hstate'
  complete hphase := by
    have hperm := h.looped.left [] (by rw [hphase]; rfl)
    rwa [List.append_nil] at hperm
  reaped exit hphase slot hmem := by
    obtain ⟨i, hi⟩ := List.mem_iff_getElem?.mp hmem
    by_contra hlive
    have hpending := h.looped.live i slot hi (by simpa using hlive)
    rw [hphase] at hpending
    cases hpending
  requested tasks pendingCancel exit hphase i slot hslot hlive := by
    have hpending := h.looped.live i slot hslot hlive
    rw [hphase] at hpending
    exact (h.looped.draining tasks pendingCancel exit hphase).2 i hpending
  reraised exit hphase hmem := by
    have hcancelled := h.looped.cancelled hmem
    rw [hphase] at hcancelled
    exact hcancelled

-- ---------------------------------------------------------------------------
-- The generator's steps
-- ---------------------------------------------------------------------------

theorem Slotted.of_slots (h : Slotted isProcessError commands limit s log)
    (hslots : s'.slots = s.slots) (hpermits : s'.permits = s.permits) :
    Slotted isProcessError commands limit s' log := by
  refine ⟨?_, fun i command outcome hmem => ?_, fun i slot j outcome hslot hstate => ?_⟩
  · rw [Stream.running, hslots, hpermits]
    exact h.made
  · rw [hslots]
    exact h.ran i command outcome hmem
  · rw [hslots] at hslot
    exact h.returned i slot j outcome hslot hstate

theorem Slotted.logged (h : Slotted isProcessError commands limit s log)
    (hevs : ∀ i command outcome, .ran i command outcome ∉ evs) :
    Slotted isProcessError commands limit s (log ++ evs) := by
  refine ⟨h.made, fun i command outcome hmem => ?_, fun i slot j outcome hslot hstate => ?_⟩
  · rcases List.mem_append.mp hmem with hmem | hmem
    · exact h.ran i command outcome hmem
    · exact absurd hmem (hevs i command outcome)
  · obtain ⟨hj, hran, herror⟩ := h.returned i slot j outcome hslot hstate
    exact ⟨hj, List.mem_append_left _ hran, herror⟩

theorem Stream.reap_slots (s : Stream α ρ) (tasks : List Nat) (exit : Exit) :
    (s.reap tasks exit).slots = s.slots ∧ (s.reap tasks exit).permits = s.permits := by
  unfold reap
  split <;> exact ⟨rfl, rfl⟩

theorem Slotted.reap (h : Slotted isProcessError commands limit s log) (tasks : List Nat)
    (exit : Exit) : Slotted isProcessError commands limit (s.reap tasks exit) log :=
  h.of_slots (s.reap_slots tasks exit).1 (s.reap_slots tasks exit).2

theorem Slotted.job (h : Slotted isProcessError commands limit s log)
    {slot : Slot α ρ} (hslot : s.slots[i]? = some slot) :
    slot.index = i ∧ commands[i]? = some slot.command := by
  rcases h.made with hnil | ⟨-, hmap⟩
  · simp [hnil] at hslot
  · have hjob : commands.zipIdx[i]? = some (slot.command, slot.index) := by
      rw [← hmap, List.getElem?_map, hslot]
      rfl
    rw [List.getElem?_zipIdx, Nat.zero_add] at hjob
    obtain ⟨command, hcommand, heq⟩ := Option.map_eq_some_iff.mp hjob
    cases heq
    exact ⟨rfl, hcommand⟩

theorem Yielding.of_quiet (h : Yielding isProcessError commands log) (hevs : yields evs = []) :
    Yielding isProcessError commands (log ++ evs) := by
  refine ⟨?_, fun i outcome hmem => ?_⟩
  · rw [yields_append, hevs, List.append_nil]
    exact h.once
  · rcases List.mem_append.mp hmem with hmem | hmem
    · obtain ⟨command, hcommand, hran, herror⟩ := h.own i outcome hmem
      exact ⟨command, hcommand, List.mem_append_left _ hran, herror⟩
    · have hi : i ∈ yields evs := List.mem_filterMap.mpr ⟨_, hmem, rfl⟩
      rw [hevs] at hi
      cases hi

theorem Looped.reap (tasks : List Nat) (hexit : exit ≠ .exhausted)
    (hlive : ∀ (i : Nat) slot, s.slots[i]? = some slot → slot.state.isEnded = false → i ∈ tasks)
    (hcancelled : .cancelled ∈ log → exit = .cancelled) :
    Looped commands (s.reap tasks exit) log := by
  unfold Stream.reap
  by_cases hnil : tasks = []
  · rw [if_pos hnil]
    refine ⟨nofun, fun left hleft => ?_, fun i slot hslot hstate => ?_, nofun, hcancelled⟩
    · cases exit with
      | exhausted => exact absurd rfl hexit
      | closed | raised | cancelled => cases hleft
    · rw [hnil] at hlive
      exact hlive i slot hslot hstate
  · rw [if_neg hnil]
    refine ⟨nofun, nofun, hlive, fun _ _ _ heq => ?_, fun hmem => .inr (hcancelled hmem)⟩
    cases heq
    exact ⟨hexit, fun task hmem => List.mem_append_right _ hmem⟩

theorem Stream.result_ok (h : s.result task = .ok (index, outcome)) :
    ∃ slot, s.slots[task]? = some slot ∧ slot.state = .ended (.returned index outcome) := by
  unfold result at h
  split at h
  · rename_i slot hslot
    cases h
    exact ⟨_, hslot, rfl⟩
  · cases h
  · cases h
  · cases h

theorem Stream.result_exit (h : s.result task = .error exit) : exit ≠ .exhausted := by
  unfold result at h
  split at h <;> cases h <;> nofun

theorem Streaming.resume (hslotted : Slotted isProcessError commands limit s log)
    (hyielding : Yielding isProcessError commands log) (done pending : List Nat)
    (hperm : (yields log ++ (done ++ pending)).Perm (List.range commands.length))
    (hlive : ∀ (i : Nat) slot, s.slots[i]? = some slot → slot.state.isEnded = false → i ∈ pending)
    (hcancelled : .cancelled ∉ log) :
    Streaming isProcessError commands limit (s.resume pending done).1
      (log ++ (s.resume pending done).2) := by
  cases done with
  | nil =>
    by_cases hnil : pending = []
    · subst hnil
      simp only [Stream.resume, Stream.reap, ↓reduceIte, List.append_nil]
      refine ⟨?_, hyielding, ⟨nofun, fun left hleft => ?_, fun i slot hslot hstate => ?_, nofun,
        fun hmem => absurd hmem hcancelled⟩⟩
      · exact hslotted.of_slots rfl rfl
      · cases hleft
        exact hperm
      · exact hlive i slot hslot hstate
    · simp only [Stream.resume, if_neg hnil, List.append_nil]
      refine ⟨?_, hyielding, ⟨nofun, fun left hleft => ?_, hlive, nofun,
        fun hmem => absurd hmem hcancelled⟩⟩
      · exact hslotted.of_slots rfl rfl
      · cases hleft
        exact hperm
  | cons task done =>
    cases hresult : s.result task with
    | ok returned =>
      obtain ⟨index, outcome⟩ := returned
      obtain ⟨slot, hslot, hstate⟩ := Stream.result_ok hresult
      obtain ⟨rfl, hran, herror⟩ := hslotted.returned task slot index outcome hslot hstate
      simp only [Stream.resume, hresult]
      have hyields : yields (log ++ [.yielded index outcome]) = yields log ++ [index] :=
        yields_append log _
      have hperm' : (yields (log ++ [.yielded index outcome]) ++ (done ++ pending)).Perm
          (List.range commands.length) := by
        rw [hyields, List.append_assoc]
        exact hperm
      have hnodup := hperm'.nodup_iff.mpr List.nodup_range
      refine ⟨(hslotted.logged (by simp)).of_slots rfl rfl, ⟨(List.nodup_append.mp hnodup).1, ?_⟩,
        ⟨nofun, fun left hleft => ?_, hlive, nofun, fun hmem => ?_⟩⟩
      · intro i other hmem
        rcases List.mem_append.mp hmem with hmem | hmem
        · obtain ⟨command, hcommand, hran, herror⟩ := hyielding.own i other hmem
          exact ⟨command, hcommand, List.mem_append_left _ hran, herror⟩
        · obtain ⟨rfl, rfl⟩ : i = index ∧ other = outcome := by simpa using hmem
          exact ⟨slot.command, (hslotted.job hslot).2, List.mem_append_left _ hran, herror⟩
      · cases hleft
        exact hperm'
      · rcases List.mem_append.mp hmem with hmem | hmem
        · exact absurd hmem hcancelled
        · simp at hmem
    | error exit =>
      simp only [Stream.resume, hresult, List.append_nil]
      exact ⟨hslotted.reap pending exit, hyielding, .reap pending (Stream.result_exit hresult) hlive
        fun hmem => absurd hmem hcancelled⟩

theorem Streaming.start :
    Streaming isProcessError commands limit (Stream.start commands limit : Stream α ρ) [] := by
  have hyielding : Yielding isProcessError commands ([] : List (StreamEvent α ρ)) := ⟨.nil, nofun⟩
  unfold Stream.start
  cases limit with
  | error error =>
    exact ⟨⟨.inl rfl, nofun, nofun⟩, hyielding, ⟨nofun, nofun, nofun, nofun, nofun⟩⟩
  | ok limit =>
    by_cases hnil : commands = []
    · simp only [if_pos hnil]
      refine ⟨⟨.inl rfl, nofun, nofun⟩, hyielding,
        ⟨nofun, fun left hleft => ?_, nofun, nofun, nofun⟩⟩
      cases hleft
      simp [yields, hnil]
    · simp only [if_neg hnil]
      have hqueued : ∀ slot ∈ (commands.zipIdx.map Slot.new : List (Slot α ρ)),
          slot.state = .queued := by
        intro slot hmem
        obtain ⟨item, -, rfl⟩ := List.mem_map.mp hmem
        rfl
      refine ⟨⟨.inr ⟨?_, ?_⟩, nofun, fun i slot j outcome hslot hstate => ?_⟩, hyielding,
        ⟨nofun, fun left hleft => ?_, fun i slot hslot _ => ?_, nofun, nofun⟩⟩
      · have hrunning : (commands.zipIdx.map Slot.new : List (Slot α ρ)).countP
            (·.state.isRunning) = 0 := by
          rw [List.countP_eq_zero]
          intro slot hmem
          simp [hqueued slot hmem, SlotState.isRunning]
        simp [Stream.running, hrunning]
      · simp [Slot.new, Function.comp_def]
      · rw [hqueued slot (List.mem_of_getElem? hslot)] at hstate
        cases hstate
      · cases hleft
        simp [yields]
      · have hi := (List.getElem?_eq_some_iff.mp hslot).1
        simpa [StreamPhase.pending] using hi

-- ---------------------------------------------------------------------------
-- The slots' steps
-- ---------------------------------------------------------------------------

theorem Stream.set_countP (h : s.slots[task]? = some slot) (state : SlotState ρ)
    (p : SlotState ρ → Bool) :
    (s.set task slot state).slots.countP (fun other => p other.state) + (p slot.state).toNat =
      s.slots.countP (fun other => p other.state) + (p state).toNat := by
  obtain ⟨hlen, hget⟩ := List.getElem?_eq_some_iff.mp h
  have hpos : p slot.state = true → 0 < s.slots.countP fun other => p other.state := by
    intro hold
    exact List.countP_pos_iff.mpr ⟨slot, List.mem_of_getElem? h, hold⟩
  unfold set
  rw [List.countP_set hlen, hget]
  cases hold : p slot.state <;> cases hnew : p state <;> simp_all

theorem Stream.set_running (h : s.slots[task]? = some slot) (state : SlotState ρ) :
    (s.set task slot state).running + slot.state.isRunning.toNat =
      s.running + state.isRunning.toNat := s.set_countP h state SlotState.isRunning

theorem Stream.move_cases (h : s.move isProcessError task slot mv = some (s', evs)) :
    ∃ state permits, s' = { s.set task slot state with permits } ∧ slot.state.isEnded = false ∧
      permits + state.isRunning.toNat = s.permits + slot.state.isRunning.toNat ∧
      (evs = [] ∧ (∀ j outcome, state ≠ .ended (.returned j outcome)) ∨
        ∃ outcome, evs = [.ran slot.index slot.command outcome] ∧
          state = .ended (slot.caught isProcessError outcome)) := by
  cases mv with
  | acquire =>
    simp only [move] at h
    split at h
    · rename_i permits hstate hpermits
      cases h
      exact ⟨.running, permits, rfl, by simp [hstate, SlotState.isEnded],
        by simp [hstate, hpermits, SlotState.isRunning], .inl ⟨rfl, nofun⟩⟩
    · cases h
  | finish outcome =>
    simp only [move] at h
    split at h
    · rename_i hstate
      cases h
      exact ⟨_, _, rfl, by simp [hstate, SlotState.isEnded],
        by simp [hstate, SlotState.isRunning], .inr ⟨outcome, rfl, rfl⟩⟩
    · cases h
    · cases h
  | abort =>
    simp only [move] at h
    split at h
    · rename_i hstate
      cases h
      exact ⟨_, s.permits, rfl, by simp [hstate, SlotState.isEnded],
        by simp [hstate, SlotState.isRunning], .inl ⟨rfl, nofun⟩⟩
    · rename_i hstate
      cases h
      exact ⟨_, _, rfl, by simp [hstate, SlotState.isEnded],
        by simp [hstate, SlotState.isRunning], .inl ⟨rfl, nofun⟩⟩
    · cases h

theorem Slot.caught_returned {slot : Slot α ρ}
    (h : slot.caught isProcessError outcome = .returned j outcome') :
    j = slot.index ∧ outcome' = outcome ∧
      ∀ error, outcome' = .error error → isProcessError error = true := by
  cases outcome with
  | ok result =>
    cases h
    exact ⟨rfl, rfl, nofun⟩
  | error error =>
    simp only [caught] at h
    split at h
    · rename_i hprocess
      cases h
      refine ⟨rfl, rfl, fun error' heq => ?_⟩
      cases heq
      exact hprocess
    · cases h

theorem Slotted.move (h : Slotted isProcessError commands limit s log)
    (hslot : s.slots[task]? = some slot)
    (hstep : s.move isProcessError task slot mv = some (s', evs)) :
    Slotted isProcessError commands limit s' (log ++ evs) := by
  obtain ⟨state, permits, rfl, hlive, hpermits, hevs⟩ := Stream.move_cases hstep
  have hlen : task < s.slots.length := (List.getElem?_eq_some_iff.mp hslot).1
  have hat : (s.set task slot state).slots[task]? = some { slot with state } :=
    List.getElem?_set_self hlen
  have helse : ∀ i, i ≠ task → (s.set task slot state).slots[i]? = s.slots[i]? :=
    fun i hi => List.getElem?_set_ne (Ne.symm hi)
  obtain ⟨hindex, -⟩ := h.job hslot
  refine ⟨.inr ?_, fun i command outcome hmem => ?_, fun i other j outcome hother hstate => ?_⟩
  · rcases h.made with hnil | ⟨hlimit, hmap⟩
    · simp [hnil] at hslot
    · have hrunning := Stream.set_running hslot state
      refine ⟨?_, ?_⟩
      · rw [hlimit]
        congr 1
        show s.permits + s.running = permits + (s.set task slot state).running
        omega
      · rw [← hmap]
        refine List.ext_getElem? fun i => ?_
        by_cases hi : i = task
        · subst hi
          simp [List.getElem?_map, hat, hslot]
        · simp [List.getElem?_map, helse i hi]
  · rcases List.mem_append.mp hmem with hmem | hmem
    · obtain ⟨other, hother, hstate⟩ := h.ran i command outcome hmem
      by_cases hi : i = task
      · subst hi
        obtain rfl : slot = other := by simpa [hslot] using hother
        simp [hstate, SlotState.isEnded] at hlive
      · exact ⟨other, by rw [← hother]; exact helse i hi, hstate⟩
    · rcases hevs with ⟨rfl, -⟩ | ⟨result, rfl, rfl⟩
      · cases hmem
      · obtain ⟨rfl, -, rfl⟩ : i = slot.index ∧ command = slot.command ∧ outcome = result := by
          simpa using hmem
        exact ⟨_, by rw [hindex]; exact hat, rfl⟩
  · by_cases hi : i = task
    · subst hi
      obtain rfl : { slot with state } = other := Option.some.inj (hat.symm.trans hother)
      rcases hevs with ⟨-, hnone⟩ | ⟨result, rfl, rfl⟩
      · exact absurd hstate (hnone j outcome)
      · obtain ⟨rfl, rfl, herror⟩ := Slot.caught_returned (SlotState.ended.inj hstate)
        exact ⟨hindex, by simp [hindex], herror⟩
    · have hold : s.slots[i]? = some other := (helse i hi).symm.trans hother
      obtain ⟨hj, hran, herror⟩ := h.returned i other j outcome hold hstate
      exact ⟨hj, List.mem_append_left _ hran, herror⟩

theorem Streaming.move (h : Streaming isProcessError commands limit s log)
    (hslot : s.slots[task]? = some slot)
    (hstep : s.move isProcessError task slot mv = some (s', evs)) :
    Streaming isProcessError commands limit s' (log ++ evs) := by
  have hslotted := h.slotted.move hslot hstep
  obtain ⟨state, permits, rfl, hlive, -, hevs⟩ := Stream.move_cases hstep
  have hquiet : yields evs = [] ∧ .cancelled ∉ evs := by
    rcases hevs with ⟨rfl, -⟩ | ⟨outcome, rfl, -⟩
    · exact ⟨rfl, nofun⟩
    · exact ⟨rfl, by simp⟩
  refine ⟨hslotted, h.yielding.of_quiet hquiet.1, ⟨fun hphase => ?_, fun left hleft => ?_,
    fun i other hother hstate => ?_, h.looped.draining, fun hmem => ?_⟩⟩
  · rw [(h.looped.unstarted hphase).1] at hslot
    cases hslot
  · rw [yields_append, hquiet.1, List.append_nil]
    exact h.looped.left left hleft
  · by_cases hi : i = task
    · subst hi
      exact h.looped.live i slot hslot hlive
    · have hsame : (s.slots.set task { slot with state })[i]? = s.slots[i]? :=
        List.getElem?_set_ne (Ne.symm hi)
      exact h.looped.live i other (hsame.symm.trans hother) hstate
  · rcases List.mem_append.mp hmem with hmem | hmem
    · exact h.looped.cancelled hmem
    · exact absurd hmem hquiet.2

theorem Streaming.reap (h : Streaming isProcessError commands limit s log)
    (hphase : s.phase.pending = tasks) (hexit : exit ≠ .exhausted)
    (hevs : evs = [] ∧ ¬ s.phase.IsCancelled ∨ evs = [.cancelled] ∧ exit = .cancelled) :
    Streaming isProcessError commands limit (s.reap tasks exit) (log ++ evs) := by
  have hlive := h.looped.live
  rw [hphase] at hlive
  rcases hevs with ⟨rfl, hnot⟩ | ⟨rfl, rfl⟩
  · rw [List.append_nil]
    exact ⟨h.slotted.reap tasks exit, h.yielding, .reap tasks hexit hlive
      fun hmem => absurd (h.looped.cancelled hmem) hnot⟩
  · exact ⟨(h.slotted.logged (by simp)).reap tasks .cancelled, h.yielding.of_quiet rfl,
      .reap tasks nofun hlive fun _ => rfl⟩

theorem Streaming.stop (h : Streaming isProcessError commands limit s log)
    (hstep : s.stop exit = some (s', evs)) (hexit : exit ≠ .exhausted) :
    Streaming isProcessError commands limit s' (log ++ evs) := by
  unfold Stream.stop at hstep
  split at hstep
  · rename_i hphase
    cases hstep
    have hpending : s.phase.pending = [] := by rw [hphase]; rfl
    have hnot : ¬ s.phase.IsCancelled := by rw [hphase]; exact id
    have hreap : Streaming isProcessError commands limit (s.reap [] exit) (log ++ []) :=
      h.reap hpending hexit (.inl ⟨rfl, hnot⟩)
    simpa [Stream.reap] using hreap
  · rename_i done pending hphase
    cases hstep
    exact h.reap (by rw [hphase]; rfl) hexit (.inl ⟨rfl, by rw [hphase]; exact id⟩)
  · cases hstep

theorem Streaming.go (h : Streaming isProcessError commands limit s log)
    (hleft : s.phase.left = some left) (hperm : left.Perm (done ++ rest))
    (hrest : ∀ task ∈ s.phase.pending, s.ended task = false → task ∈ rest)
    (hnot : ¬ s.phase.IsCancelled) :
    Streaming isProcessError commands limit (s.resume rest done).1
      (log ++ (s.resume rest done).2) := by
  refine Streaming.resume h.slotted h.yielding done rest ?_ (fun i slot hslot hlive => ?_)
    fun hmem => hnot (h.looped.cancelled hmem)
  · exact (hperm.symm.append_left _).trans (h.looped.left left hleft)
  · refine hrest i (h.looped.live i slot hslot hlive) ?_
    simpa [Stream.ended, hslot] using hlive

theorem Streaming.step (h : Streaming isProcessError commands limit s log)
    (hstep : s.step isProcessError commands limit a = some (s', evs)) :
    Streaming isProcessError commands limit s' (log ++ evs) := by
  cases Stream.stepped hstep with
  | started hphase =>
    obtain ⟨-, rfl⟩ := h.looped.unstarted hphase
    exact .start
  | @resumed done pending hphase =>
    have hleft : s.phase.left = some (done ++ pending) := by rw [hphase]; rfl
    refine h.go hleft (.refl _) ?_ (by rw [hphase]; exact id)
    rw [hphase]
    exact fun task hmem _ => hmem
  | stopped hstop hexit => exact h.stop hstop hexit
  | cancelledWaiting hphase => exact h.reap (by rw [hphase]; rfl) nofun (.inr ⟨rfl, rfl⟩)
  | cancelledDraining hphase =>
    have hlive := h.looped.live
    rw [hphase] at hlive
    refine ⟨(h.slotted.logged (by simp)).of_slots rfl rfl, h.yielding.of_quiet rfl,
      ⟨nofun, nofun, hlive, fun _ _ _ heq => ?_, fun _ => .inl rfl⟩⟩
    cases heq
    exact ⟨(h.looped.draining _ _ _ hphase).1, fun task hmem => List.mem_append_right _ hmem⟩
  | @woken pending done hphase hdone =>
    have hleft : s.phase.left = some pending := by rw [hphase]; rfl
    refine h.go hleft ?_ ?_ (by rw [hphase]; exact id)
    · exact (List.filter_append_perm s.ended pending).symm.trans (hdone.symm.append_right _)
    · rw [hphase]
      intro task hmem hlive
      exact List.mem_filter.mpr ⟨hmem, by simp [hlive]⟩
  | @reaped tasks pendingCancel exit hphase hall =>
    rw [List.append_nil]
    refine ⟨h.slotted.of_slots rfl rfl, h.yielding, ⟨nofun, fun left hleft => ?_,
      fun i slot hslot hlive => ?_, nofun, fun hmem => ?_⟩⟩
    · cases pendingCancel with
      | true => cases hleft
      | false =>
        cases exit with
        | exhausted => exact absurd rfl (h.looped.draining _ _ _ hphase).1
        | closed | raised | cancelled => cases hleft
    · have hpending := h.looped.live i slot hslot hlive
      rw [hphase] at hpending
      have hended := List.all_eq_true.mp hall i hpending
      simp [Stream.ended, show s.slots[i]? = some slot from hslot, hlive] at hended
    · have hcancelled := h.looped.cancelled hmem
      rw [hphase] at hcancelled
      rcases hcancelled with rfl | rfl
      · rfl
      · simp [StreamPhase.IsCancelled]
  | moved hslot hmove => exact h.move hslot hmove

theorem streaming
    (h : (Stream.machine isProcessError commands cpuCount concurrency).Reachable s log) :
    Streaming isProcessError commands (resolveConcurrency cpuCount concurrency) s log := by
  refine h.invariant (P := Streaming isProcessError commands _) ?_
    fun s log a s' evs hs _ hstep => hs.step hstep
  exact ⟨⟨.inl rfl, nofun, nofun⟩, ⟨.nil, nofun⟩,
    ⟨fun _ => ⟨rfl, rfl⟩, nofun, nofun, nofun, nofun⟩⟩

end

end ProcessKit.Aio
