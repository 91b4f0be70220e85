import Mathlib.Data.Fintype.Basic
import ProcessKit.Running.Ownership

/-!
# Dropping the handle and dropping a verb

Kill-on-drop is the promise that the run ends with its last owner. `Drop`
keeps it unless `start_joint_finish` takes the run out of the slot between
Drop's look at the finish slot and its take of the process slot: then Drop
finds neither, and the finisher is published after it. `take_claim` looks a
second time for this very race.

A verb's future keeps it when the future owns the process. When it holds a
`JoinHandle`, dropping the future detaches the task, and the task owns the run.
-/

namespace ProcessKit.Running

-- ---------------------------------------------------------------------------
-- Drop
-- ---------------------------------------------------------------------------

def Pc.pastLook : Pc → Bool
  | .dropTake | .dropped _ => true
  | _ => false

/-- `start_joint_finish` takes the run while a Drop is between its sections. -/
def DropRaced (h : Handle ι) (a : Action ι) : Prop :=
  ∃ i, a.caller = some i ∧ h.pc i = .jointTake ∧ h.slot = true ∧ ∃ j, h.pc j = .dropTake

structure Dropping (h : Handle ι) : Prop where
  looked : ∀ i, (h.pc i).pastLook = true →
    (∀ j, h.pc j ≠ .jointSpawn) ∧ (h.finish = .running → h.task ≠ .live false)
  emptied : ∀ i tookRun, h.pc i = .dropped tookRun → h.slot = false

theorem Dropping.init : Dropping (Handle.started : Handle ι) := ⟨nofun, nofun⟩

variable [DecidableEq ι]

theorem Step.pastLook {h h' : Handle ι} (hs : Step h a h' evs) (hj : (h'.pc j).pastLook = true) :
    (h.pc j).pastLook = true ∨ h.pc j = .dropLook ∧ a.caller = some j ∧ h.finishLock = none ∧
      (h'.finish = .running → h'.task ≠ .live false) := by
  obtain hold | ⟨hcaller, _, hpc, hg⟩ := hs.arrives (q := h'.pc j) rfl
  · rw [hold]
    exact .inl hj
  · revert hj
    rw [hpc]
    generalize h'.pc j = q at hg ⊢
    cases hg with
    | dropLook hfree htask => exact fun _ => .inr ⟨rfl, hcaller, hfree, htask⟩
    | dropTake | dropEmpty => exact fun _ => .inl rfl
    | _ => exact nofun

theorem Step.spawning {h h' : Handle ι} (hs : Step h a h' evs) (hj : h'.pc j = .jointSpawn) :
    h.pc j = .jointSpawn ∨ a.caller = some j ∧ h.pc j = .jointTake ∧ h.slot = true := by
  rcases hs.arrives hj with hold | ⟨hcaller, _, hpc, hg⟩
  · exact .inl hold
  · cases hg with
    | jointTake hslot => exact .inr ⟨hcaller, hpc, hslot⟩

theorem Step.task {h h' : Handle ι} (hs : Step h a h' evs) (ht : h'.task = .live false) :
    h.task = .live false ∨ ∃ i, h.pc i = .jointSpawn := by
  cases hs with
  | jointSpawn hpc => exact .inr ⟨_, hpc⟩
  | dropAbort | pollTeardown => exact absurd ht (Finisher.abort_ne _)
  | finisherEnds => cases ht
  | _ => exact .inl ht

theorem Dropping.looked_step {h h' : Handle ι} (hi : Dropping h) (ho : Owned h log)
    (hc : ¬ DropRaced h a) (hs : Step h a h' evs) (hlook : (h'.pc i).pastLook = true) :
    (∀ j, h'.pc j ≠ .jointSpawn) ∧ (h'.finish = .running → h'.task ≠ .live false) := by
  rcases hs.pastLook hlook with hold | ⟨hpc, hcaller, hfree, htask⟩
  · obtain ⟨hnone, haborted⟩ := hi.looked i hold
    refine ⟨fun j hj => ?_, fun hrunning ht => ?_⟩
    · rcases hs.spawning hj with hj | ⟨hcaller, hpc, hslot⟩
      · exact hnone j hj
      · -- the finisher takes the run: before Drop's take it races it, after it the slot is empty
        unfold Pc.pastLook at hold
        split at hold
        · exact hc ⟨j, hcaller, hpc, hslot, i, ‹_›⟩
        · rw [hi.emptied i _ ‹_›] at hslot
          cases hslot
        · cases hold
    · rcases hs.task ht with ht | ⟨j, hj⟩
      · rcases hs.finish with ⟨hsame, -⟩ | ⟨-, htaken, -⟩ | ⟨⟨j, hj⟩, -⟩
        · exact haborted (hsame ▸ hrunning) ht
        · rw [htaken] at hrunning
          cases hrunning
        · exact hnone j hj
      · exact hnone j hj
  · refine ⟨fun j hj => ?_, htask⟩
    rcases hs.spawning hj with hj | ⟨hcaller', hpc', -⟩
    · have hheld := ho.lock j (by rw [hj]; rfl)
      rw [hfree] at hheld
      cases hheld
    · obtain rfl : i = j := Option.some.inj (hcaller.symm.trans hcaller')
      rw [hpc] at hpc'
      cases hpc'

theorem Step.dropped {h h' : Handle ι} (hs : Step h a h' evs) (hj : h'.pc j = .dropped tookRun) :
    h.pc j = .dropped tookRun ∨ h'.slot = false := by
  rcases hs.arrives hj with hold | ⟨-, _, -, hg⟩
  · exact .inl hold
  · cases hg with
    | dropTake _ hslot | dropEmpty hslot => exact .inr hslot

theorem Dropping.step {h h' : Handle ι} (hi : Dropping h) (ho : Owned h log)
    (hc : ¬ DropRaced h a) (hs : Step h a h' evs) : Dropping h' where
  looked _ := hi.looked_step ho hc hs
  emptied i tookRun hj := (hs.dropped hj).elim (hs.slot_mono <| hi.emptied i tookRun ·) id

/-- After Drop the run is gone: Drop had it, or the finisher that has it was
aborted or has ended, or another call had claimed it. -/
def Handle.GoneAfter (h : Handle ι) (i : ι) (tookRun : Bool) : Prop :=
  h.slot = false ∧ (tookRun = true ∨ h.finish = .running ∧ h.task ≠ .live false ∨
    ∃ j, j ≠ i ∧ h.Owns (.claimant j))

instance [Fintype ι] (h : Handle ι) (a : Action ι) : Decidable (DropRaced h a) :=
  inferInstanceAs (Decidable (∃ i, a.caller = some i ∧ h.pc i = .jointTake ∧ h.slot = true ∧
    ∃ j, h.pc j = .dropTake))

theorem Handle.drop_kills {h : Handle ι}
    (hr : (Handle.machine ι).Reach (fun h a => ¬ DropRaced h a) h log)
    (hpc : h.pc i = .dropped tookRun) : h.GoneAfter i tookRun := by
  obtain ⟨hd, ho⟩ : Dropping h ∧ Owned h log := by
    refine hr.invariant (P := fun h log => Dropping h ∧ Owned h log) ⟨.init, .init⟩ ?_
    rintro h log a h' evs ⟨hd, ho⟩ hc hstep
    have hstep := Step.of_step hstep
    exact ⟨hd.step ho hc hstep, ho.step hstep⟩
  obtain ⟨hspawn, haborted⟩ := hd.looked i (by rw [hpc]; rfl)
  have hslot := hd.emptied i tookRun hpc
  refine ⟨hslot, ?_⟩
  obtain ⟨o, hown⟩ := ho.owner
  have hown := (hown o).mpr rfl
  cases o with
  | slot => simp [Handle.Owns, hslot] at hown
  | finisherCall j => exact absurd hown (hspawn j)
  | task => exact .inr (.inl ⟨hown, haborted hown⟩)
  | claimant j =>
    by_cases hji : j = i
    · rw [hji, Handle.Owns, hpc] at hown
      exact .inl hown
    · exact .inr (.inr ⟨j, hji, hown⟩)

/-- A handle dropped while its finisher runs. -/
def abortingDropRun : List (Action (Fin 2)) :=
  [.begin 1 .joint, .step 1, .step 1, .step 1, .begin 0 .drop, .step 0, .step 0]

theorem Handle.drop_kills_finisher : ∃ h log,
    (Handle.machine (Fin 2)).Reach (fun h a => ¬ DropRaced h a) h log ∧ h.pc 0 = .dropped false ∧
      h.GoneAfter 0 false := by
  obtain ⟨h, log, hr, hpc⟩ := Transition.Machine.reach_replay
    (m := (Handle.machine (Fin 2)).guarded fun h a => decide (¬ DropRaced h a)) abortingDropRun
    (fun h _ => h.pc 0) (fun _ _ _ => trivial) (b := .dropped false) (by decide +kernel)
  have hr := hr.of_guarded fun h a hc => of_decide_eq_true hc
  exact ⟨h, log, hr, hpc, Handle.drop_kills hr hpc⟩

/-- The finisher takes the run after Drop's look and is published after its
take. -/
def racedDropRun : List (Action Nat) :=
  [.begin 0 .drop, .begin 1 .joint, .step 0, .step 1, .step 1, .step 0, .step 1]

theorem Handle.drop_raced :
    ¬ ∀ (h : Handle Nat) log i tookRun, (Handle.machine Nat).Reachable h log →
    h.pc i = .dropped tookRun → h.GoneAfter i tookRun := by
  intro hall
  obtain ⟨h, log, hr, heq⟩ := Transition.Machine.reach_replay (m := Handle.machine Nat) racedDropRun
    (fun h _ => (h.pc 0, h.task, h.finish)) (fun _ _ _ => trivial)
    (b := (.dropped false, .live false, .running)) (by decide +kernel)
  simp only [Prod.mk.injEq] at heq
  obtain ⟨hpc, htask, hrunning⟩ := heq
  obtain ⟨o, ho⟩ := (Owned.of_reachable hr).owner
  obtain rfl : Owner.task = o := (ho .task).mp hrunning
  rcases (hall h log 0 false hr hpc).2 with htook | ⟨-, haborted⟩ | ⟨j, -, hown⟩
  · cases htook
  · exact haborted htask
  · cases (ho _).mp hown

-- ---------------------------------------------------------------------------
-- Dropping the future of a verb
-- ---------------------------------------------------------------------------

/-- The finisher exists only after the run left the slot for it. -/
structure Unspawned (h : Handle ι) : Prop where
  slot : h.slot = true → h.task = .unspawned
  process : ∀ i verb polled, h.pc i = .driving verb .process polled → h.task = .unspawned

theorem Step.unspawned {h h' : Handle ι} (hs : Step h a h' evs) (ht : h.task = .unspawned) :
    h'.task = .unspawned ∨ ∃ i, h.pc i = .jointSpawn := by
  cases hs with
  | jointSpawn hpc => exact .inr ⟨_, hpc⟩
  | dropAbort | pollTeardown => exact .inl (by simp [ht, Finisher.abort])
  | finisherEnds hlive =>
    rw [ht] at hlive
    cases hlive
  | _ => exact .inl ht

theorem Step.drivesProcess {h h' : Handle ι} (hs : Step h a h' evs)
    (hj : h'.pc j = .driving verb .process polled) :
    (∃ polled, h.pc j = .driving verb .process polled) ∨ h.slot = true := by
  rcases hs.arrives hj with hold | ⟨-, _, hpc, hg⟩
  · exact .inl ⟨_, hold⟩
  · cases hg with
    | claimProcess hslot | uncapturedProcess hslot => exact .inr hslot
    | poll => exact .inl ⟨_, hpc⟩

theorem Unspawned.step {h h' : Handle ι} (hi : Unspawned h) (ho : h.OwnedBy o)
    (hs : Step h a h' evs) : Unspawned h' := by
  -- nothing else owns the run when the finisher is spawned
  have hkeep : ∀ {p}, h.Owns p → (∀ i, p ≠ .finisherCall i) → h.task = .unspawned →
      h'.task = .unspawned := by
    intro p hp hne ht
    refine (hs.unspawned ht).resolve_right ?_
    rintro ⟨i, hspawn⟩
    exact hne i (ho.unique hp hspawn)
  refine ⟨fun hslot => ?_, fun i verb polled hpc => ?_⟩
  · have hold : h.slot = true := by
      by_contra hempty
      rw [hs.slot_mono (by simpa using hempty)] at hslot
      cases hslot
    exact hkeep (p := .slot) hold nofun (hi.slot hold)
  · rcases hs.drivesProcess hpc with ⟨polled, hold⟩ | hold
    · exact hkeep (p := .claimant i) (by rw [Handle.Owns, hold]; rfl) nofun (hi.process i _ _ hold)
    · exact hkeep (p := .slot) hold nofun (hi.slot hold)

theorem Unspawned.of_reachable {h : Handle ι} (hr : (Handle.machine ι).Reachable h log) :
    Unspawned h := by
  refine (hr.invariant (P := fun h log => Unspawned h ∧ Owned h log)
    ⟨⟨fun _ => rfl, nofun⟩, .init⟩ ?_).1
  rintro h log a h' evs ⟨hi, ho⟩ - hstep
  obtain ⟨o, hown⟩ := ho.owner
  exact ⟨hi.step hown (.of_step hstep), ho.step (.of_step hstep)⟩

/-- No place is left from which the run could go on living. -/
structure Handle.TornDown (h : Handle ι) : Prop where
  slot : h.slot = false
  spawning : ∀ j, h.pc j ≠ .jointSpawn
  task : h.task ≠ .live false
  driven : ∀ j verb polled, h.pc j ≠ .driving verb .process polled

theorem Handle.abandon_tearsDown {h h' : Handle ι} (hr : (Handle.machine ι).Reachable h log)
    (hpc : h.pc i = .driving verb claimed polled) (hs : h.step (.abandon i) = some (h', evs)) :
    h'.TornDown ↔ claimed = .process ∨ h.task ≠ .live false := by
  obtain ⟨rfl, -⟩ : h.goto i (.abandoned verb claimed) = h' ∧ [] = evs := by
    simpa [Handle.step, hpc] using hs
  obtain ⟨o, ho⟩ := (Owned.of_reachable hr).owner
  obtain rfl : Owner.claimant i = o := (ho _).mp (by rw [Handle.Owns, hpc]; rfl)
  have hprocess : claimed = .process → h.task = .unspawned := by
    rintro rfl
    exact (Unspawned.of_reachable hr).process i verb polled hpc
  constructor
  · exact fun htorn => .inr htorn.task
  · intro hcond
    refine ⟨?_, fun j hj => ?_, fun ht => ?_, fun j verb' polled' hj => ?_⟩
    · by_contra hslot
      cases (ho .slot).mp (by simpa [Handle.Owns] using hslot)
    · rw [Handle.goto_pc] at hj
      split at hj
      · cases hj
      · cases (ho (.finisherCall j)).mp hj
    · rcases hcond with hclaimed | hended
      · rw [Handle.goto_task, hprocess hclaimed] at ht
        cases ht
      · exact hended ht
    · rw [Handle.goto_pc] at hj
      split at hj
      · cases hj
      · rename_i hji
        have hown := (ho (.claimant j)).mp (by rw [Handle.Owns, hj]; rfl)
        exact hji (Owner.claimant.inj hown)

/-- A verb is dropped while it waits for the finisher of the events stream. -/
def detachedRun : List (Action Nat) :=
  [.begin 1 .joint, .step 1, .step 1, .step 1, .begin 0 (.verb .outcome), .step 0]

theorem Handle.abandon_tearsDown_process : ∃ h log h' evs, (Handle.machine Nat).Reachable h log ∧
    h.pc 0 = .driving .shutdown .process true ∧ h.step (.abandon 0) = some (h', evs) ∧
      (h'.TornDown ↔ Claimed.process = .process ∨ h.task ≠ .live false) := by
  obtain ⟨h, log, hr, hpc⟩ := Transition.Machine.reach_replay (m := Handle.machine Nat)
    [.begin 0 (.verb .shutdown), .step 0, .step 0, .poll 0] (fun h _ => h.pc 0)
    (fun _ _ _ => trivial)
    (b := .driving .shutdown .process true) (by decide +kernel)
  have hs : h.step (.abandon 0) = some (h.goto 0 (.abandoned .shutdown .process), []) := by
    simp [Handle.step, hpc]
  exact ⟨h, log, _, _, hr, hpc, hs, Handle.abandon_tearsDown hr hpc hs⟩

theorem Handle.abandon_detaches : ¬ ∀ (h : Handle Nat) log h' evs i verb claimed polled,
    (Handle.machine Nat).Reachable h log → h.pc i = .driving verb claimed polled →
      verb.uncaptured = none → h.step (.abandon i) = some (h', evs) → h'.TornDown := by
  intro hall
  obtain ⟨h, log, hr, heq⟩ := Transition.Machine.reach_replay (m := Handle.machine Nat) detachedRun
    (fun h _ => (h.pc 0, h.task)) (fun _ _ _ => trivial)
    (b := (.driving .outcome .joint false, .live false)) (by decide +kernel)
  obtain ⟨hpc, htask⟩ := Prod.mk.inj heq
  have hs : h.step (.abandon 0) = some (h.goto 0 (.abandoned .outcome .joint), []) := by
    simp [Handle.step, hpc]
  exact (hall h log _ _ 0 _ _ _ hr hpc rfl hs).task htask

end ProcessKit.Running
