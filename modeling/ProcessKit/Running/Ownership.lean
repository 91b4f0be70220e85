import ProcessKit.Running.Handle

/-!
# The run has one owner

Everything that can own the run of a handle is an `Owner`: the slot, the call
that took it out under the finish lock, the finisher task, and every call that
obtained it. Exactly one of them does in every reachable state, and ownership
moves only forward. That `take_claim` answers `None` correctly follows: with
the slot empty and the finish lock free, an owner that is not the task is a
claimant.
-/

namespace ProcessKit.Running

inductive Owner (ι : Type)
  | slot
  | finisherCall (call : ι)
  | task
  | claimant (call : ι)
  deriving DecidableEq

def Pc.obtained : Pc → Bool
  | .driving .. | .completed .. | .abandoned .. => true
  | .dropped tookRun => tookRun
  | _ => false

def Handle.Owns (h : Handle ι) : Owner ι → Prop
  | .slot => h.slot = true
  | .finisherCall i => h.pc i = .jointSpawn
  | .task => h.finish = .running
  | .claimant i => (h.pc i).obtained = true

def Handle.OwnedBy (h : Handle ι) (o : Owner ι) : Prop := ∀ o', h.Owns o' ↔ o' = o

theorem Handle.OwnedBy.unique {h : Handle ι} (ho : h.OwnedBy o) (hp : h.Owns p) (hq : h.Owns q) :
    p = q := ((ho p).mp hp).trans ((ho q).mp hq).symm

theorem Handle.OwnedBy.emptied {h : Handle ι} (ho : h.OwnedBy o) (hp : h.Owns p) (hne : p ≠ .slot) :
    h.slot = false := by
  by_contra hslot
  exact hne (ho.unique hp (by simpa [Handle.Owns] using hslot))

theorem Handle.OwnedBy.still {h h' : Handle ι} (ho : h.OwnedBy o) (hslot : h'.slot = h.slot)
    (hfinish : h'.finish = h.finish)
    (hpc : ∀ j, (h'.pc j = .jointSpawn ↔ h.pc j = .jointSpawn) ∧
      (h'.pc j).obtained = (h.pc j).obtained) : h'.OwnedBy o := by
  intro o'
  rw [← ho o']
  cases o' with
  | slot => simp [Handle.Owns, hslot]
  | finisherCall j => exact (hpc j).1
  | task => simp [Handle.Owns, hfinish]
  | claimant j => simp [Handle.Owns, (hpc j).2]

theorem Handle.OwnedBy.move {h h' : Handle ι} (ho : h.OwnedBy o) (hold : h.Owns p)
    (hnew : ∀ o', h'.Owns o' ↔ h.Owns o' ∧ o' ≠ p ∨ o' = n) : h'.OwnedBy n := by
  obtain rfl : p = o := (ho p).mp hold
  intro o'
  rw [hnew o', ho o']
  exact ⟨fun h => h.resolve_left fun ⟨heq, hne⟩ => hne heq, .inr⟩

-- ---------------------------------------------------------------------------
-- The invariant
-- ---------------------------------------------------------------------------

def Event.isSpawned : Event ι → Bool
  | .spawned _ => true
  | .obtained .. => false

def Pc.locks : Pc → Bool
  | .jointTake | .jointSpawn => true
  | _ => false

structure Owned (h : Handle ι) (log : List (Event ι)) : Prop where
  owner : ∃ o, h.OwnedBy o
  lock : ∀ i, (h.pc i).locks = true → h.finishLock = some i
  started : h.finishLock ≠ none → h.finish = .notStarted
  spawned : log.countP Event.isSpawned = if h.finish = .notStarted then 0 else 1
  emptied : ∀ i verb, h.pc i = .claimRecheck verb → h.slot = false
  refused : ∀ i verb e, h.pc i = .refused verb e → ∃ j, j ≠ i ∧ h.Owns (.claimant j)

theorem Owned.init : Owned (Handle.started : Handle ι) [] where
  owner := by
    refine ⟨.slot, fun o => ?_⟩
    cases o <;> simp [Handle.Owns, Handle.started, Pc.obtained]
  lock := nofun
  started := by simp [Handle.started]
  spawned := rfl
  emptied := nofun
  refused := nofun

theorem Owned.notStarted {h : Handle ι} (hi : Owned h log) (hpc : (h.pc i).locks = true) :
    h.finish = .notStarted := hi.started (by simp [hi.lock i hpc])

theorem Owned.other_claimant {h : Handle ι} (hi : Owned h log) (hslot : h.slot = false)
    (hfree : h.finishLock = none) (hrunning : h.finish ≠ .running)
    (hpc : (h.pc i).obtained = false) : ∃ j, j ≠ i ∧ h.Owns (.claimant j) := by
  obtain ⟨o, ho⟩ := hi.owner
  have hown : h.Owns o := (ho o).mpr rfl
  cases o with
  | slot => exact absurd hown (by simp [Handle.Owns, hslot])
  | finisherCall j =>
    have hheld := hi.lock j (by rw [show h.pc j = .jointSpawn from hown]; rfl)
    rw [hfree] at hheld
    cases hheld
  | task => exact absurd hown hrunning
  | claimant j =>
    refine ⟨j, ?_, hown⟩
    rintro rfl
    rw [Handle.Owns, hpc] at hown
    cases hown

variable [DecidableEq ι]

theorem Handle.OwnedBy.goto {h g : Handle ι} (ho : h.OwnedBy o) (hslot : g.slot = h.slot)
    (hfinish : g.finish = h.finish) (hpc : g.pc = h.pc) (hspawn : h.pc i ≠ .jointSpawn)
    (hspawn' : q ≠ .jointSpawn) (hobtained : q.obtained = (h.pc i).obtained) :
    (g.goto i q).OwnedBy o := by
  refine ho.still hslot hfinish fun j => ?_
  simp only [Handle.goto_pc, hpc]
  split
  · rename_i hj
    subst hj
    exact ⟨iff_of_false hspawn' hspawn, hobtained⟩
  · exact ⟨Iff.rfl, rfl⟩

theorem Handle.OwnedBy.obtain {h g : Handle ι} (ho : h.OwnedBy o) (hold : h.Owns p)
    (hp : p = .slot ∨ p = .task) (hslot : g.slot = true ↔ h.slot = true ∧ .slot ≠ p)
    (hfinish : g.finish = .running ↔ h.finish = .running ∧ .task ≠ p) (hpc : g.pc = h.pc)
    (hspawn : h.pc i ≠ .jointSpawn) (hq : q.obtained = true) (hq' : q ≠ .jointSpawn) :
    (g.goto i q).OwnedBy (.claimant i) := by
  refine ho.move hold fun o' => ?_
  cases o' with
  | slot => simpa [Handle.Owns] using hslot
  | task => simpa [Handle.Owns] using hfinish
  | finisherCall j =>
    have hne : Owner.finisherCall j ≠ p := by rcases hp with rfl | rfl <;> simp
    simp only [Handle.Owns, Handle.goto_pc, hpc]
    split
    · rename_i hj
      simp [hj, hspawn, hq']
    · simp [hne]
  | claimant j =>
    have hne : Owner.claimant j ≠ p := by rcases hp with rfl | rfl <;> simp
    simp only [Handle.Owns, Handle.goto_pc, hpc]
    split
    · rename_i hj
      simp [hj, hq]
    · rename_i hj
      simp [hne, hj]

theorem Step.owner {h h' : Handle ι} (hs : Step h a h' evs) (ho : h.OwnedBy o) :
    ∃ o', h'.OwnedBy o' := by
  cases hs with
  | claimJoint hpc hlock hrunning =>
    refine ⟨_, ho.obtain (p := .task) hrunning (.inr rfl) (by simp) (by simp) rfl ?_ rfl (by simp)⟩
    rcases hpc with hpc | hpc <;> simp [hpc]
  | claimProcess hpc hslot =>
    refine ⟨_, ho.obtain (p := .slot) hslot (.inl rfl) (by simp) (by simp) rfl ?_ rfl (by simp)⟩
    rcases hpc with hpc | hpc <;> simp [hpc]
  | dropTake hpc hslot =>
    exact ⟨_, ho.obtain (p := .slot) hslot (.inl rfl) (by simp) (by simp) rfl (by simp [hpc]) rfl
      (by simp)⟩
  | jointTake hpc hslot =>
    rename_i i
    refine ⟨.finisherCall i, ho.move (p := .slot) hslot fun o' => ?_⟩
    cases o' with
    | slot => simp [Handle.Owns]
    | task => simp [Handle.Owns]
    | finisherCall j =>
      simp only [Handle.Owns, Handle.goto_pc]
      split <;> simp_all
    | claimant j =>
      simp only [Handle.Owns, Handle.goto_pc]
      split <;> simp_all [Pc.obtained]
  | jointSpawn hpc =>
    rename_i i
    refine ⟨.task, ho.move (p := .finisherCall i) hpc fun o' => ?_⟩
    cases o' with
    | slot => simp [Handle.Owns]
    | task => simp [Handle.Owns]
    | finisherCall j =>
      simp only [Handle.Owns, Handle.goto_pc]
      split <;> simp_all
    | claimant j =>
      simp only [Handle.Owns, Handle.goto_pc]
      split <;> simp_all [Pc.obtained]
  | finisherEnds => exact ⟨o, ho.still rfl rfl fun j => ⟨Iff.rfl, rfl⟩⟩
  | begin hpc =>
    rename_i i what
    have hentry : what.entry ≠ .jointSpawn ∧ what.entry.obtained = false := by
      rcases what.entry_cases with he | he | ⟨_, _, he⟩ | ⟨_, he⟩ <;> simp [he, Pc.obtained]
    exact ⟨o, ho.goto rfl rfl rfl (by simp [hpc]) hentry.1 (by rw [hentry.2, hpc]; rfl)⟩
  | claimFinish hpc | claimEmpty hpc | claimNone hpc | uncapturedLook hpc | uncapturedStreamed hpc
  | uncapturedEmpty hpc | jointLock hpc | jointStarted hpc | jointEmpty hpc | dropAbort hpc
  | dropLook hpc | dropEmpty hpc | poll hpc | pollTeardown hpc | complete hpc | abandon hpc =>
    exact ⟨o, ho.goto rfl rfl rfl (by simp [hpc]) (by simp) (by simp [hpc, Pc.obtained])⟩

-- ---------------------------------------------------------------------------
-- What a step does to one call, to the slot and to the finisher
-- ---------------------------------------------------------------------------

theorem Step.slot_mono {h h' : Handle ι} (hs : Step h a h' evs) (h0 : h.slot = false) :
    h'.slot = false := by
  cases hs with
  | claimProcess | dropTake | jointTake => rfl
  | _ => exact h0

theorem Step.obtained_mono {h h' : Handle ι} (hs : Step h a h' evs)
    (hj : (h.pc j).obtained = true) :
    (h'.pc j).obtained = true := by
  obtain hsame | ⟨-, _, hpc, hg⟩ := hs.arrives (q := h'.pc j) rfl
  · exact hsame ▸ hj
  · revert hj
    rw [hpc]
    generalize h'.pc j = q at hg ⊢
    cases hg <;> simp [Pc.obtained]

theorem Call.entry_locks (what : Call) : what.entry.locks = false := by
  rcases what.entry_cases with he | he | ⟨_, _, he⟩ | ⟨_, he⟩ <;> rw [he] <;> rfl

theorem Owned.lock_step {h h' : Handle ι} (hi : Owned h log) (hs : Step h a h' evs) :
    ∀ j, (h'.pc j).locks = true → h'.finishLock = some j := by
  intro j hj
  cases hs with
  | jointLock hpc hfree =>
    rw [Handle.goto_pc] at hj
    split at hj
    · rename_i hji
      rw [hji]
      rfl
    · have hheld := hi.lock j hj
      rw [hfree] at hheld
      cases hheld
  | jointTake hpc hslot =>
    rename_i i
    have hmine : h.finishLock = some i := hi.lock i (by rw [hpc]; rfl)
    rw [Handle.goto_pc] at hj
    split at hj
    · rename_i hji
      exact hji ▸ hmine
    · exact hi.lock j hj
  | jointEmpty hpc hslot | jointSpawn hpc =>
    -- only its holder gives the lock up
    rename_i i
    have hmine : h.finishLock = some i := hi.lock i (by rw [hpc]; rfl)
    rw [Handle.goto_pc] at hj
    split at hj
    · cases hj
    · rename_i hji
      have hheld := hi.lock j hj
      rw [hmine] at hheld
      exact absurd (Option.some.inj hheld).symm hji
  | finisherEnds => exact hi.lock j hj
  | begin =>
    rw [Handle.goto_pc] at hj
    split at hj
    · rw [Call.entry_locks] at hj
      cases hj
    · exact hi.lock j hj
  | _ =>
    rw [Handle.goto_pc] at hj
    split at hj
    · cases hj
    · exact hi.lock j hj

theorem Step.finish {h h' : Handle ι} (hs : Step h a h' evs) :
    h'.finish = h.finish ∧ evs.countP Event.isSpawned = 0 ∨
    h.finish = .running ∧ h'.finish = .taken ∧ evs.countP Event.isSpawned = 0 ∨
    (∃ i, h.pc i = .jointSpawn) ∧ h'.finish = .running ∧ evs.countP Event.isSpawned = 1 := by
  cases hs with
  | claimJoint _ _ hrunning => exact .inr (.inl ⟨hrunning, rfl, rfl⟩)
  | jointSpawn hpc => exact .inr (.inr ⟨⟨_, hpc⟩, rfl, rfl⟩)
  | _ => exact .inl ⟨rfl, rfl⟩

theorem Step.recheck {h h' : Handle ι} (hs : Step h a h' evs) (hj : h'.pc j = .claimRecheck verb) :
    h.pc j = .claimRecheck verb ∨ h.slot = false := by
  rcases hs.arrives hj with hold | ⟨-, _, -, hg⟩
  · exact .inl hold
  · cases hg with
    | claimEmpty hslot => exact .inr hslot

theorem Step.refused {h h' : Handle ι} (hs : Step h a h' evs) (hj : h'.pc j = .refused verb e) :
    h.pc j = .refused verb e ∨
      (∃ verb, h.pc j = .claimRecheck verb) ∧ h.finishLock = none ∧ h.finish ≠ .running := by
  rcases hs.arrives hj with hold | ⟨-, _, hpc, hg⟩
  · exact .inl hold
  · cases hg with
    | claimNone hfree hrunning => exact .inr ⟨⟨_, hpc⟩, hfree, hrunning⟩

theorem Owned.step {h h' : Handle ι} (hi : Owned h log) (hs : Step h a h' evs) :
    Owned h' (log ++ evs) where
  owner := by
    obtain ⟨o, ho⟩ := hi.owner
    exact hs.owner ho
  lock := hi.lock_step hs
  started := by
    have hst := hi.started
    cases hs with
    | claimJoint _ hfree | jointLock _ hfree => simp_all
    | jointEmpty | jointSpawn => simp
    | _ => simpa using hst
  spawned := by
    rw [List.countP_append, hi.spawned]
    rcases hs.finish with ⟨hsame, hnone⟩ | ⟨hold, hnew, hnone⟩ | ⟨⟨i, hpc⟩, hnew, hone⟩
    · rw [hsame, hnone, Nat.add_zero]
    · simp [hold, hnew, hnone]
    · simp [hi.notStarted (i := i) (by rw [hpc]; rfl), hnew, hone]
  emptied i verb hj := hs.slot_mono ((hs.recheck hj).elim (hi.emptied i verb) id)
  refused i verb e hj := by
    obtain ⟨j, hne, hown⟩ : ∃ j, j ≠ i ∧ h.Owns (.claimant j) := by
      rcases hs.refused hj with hold | ⟨⟨verb, hpc⟩, hfree, hrunning⟩
      · exact hi.refused i verb e hold
      · exact hi.other_claimant (hi.emptied i verb hpc) hfree hrunning (by rw [hpc]; rfl)
    exact ⟨j, hne, hs.obtained_mono hown⟩

theorem Owned.of_reachable {h : Handle ι} (hr : (Handle.machine ι).Reachable h log) : Owned h log :=
  hr.invariant .init fun _ _ _ _ _ hi _ hs => hi.step (.of_step hs)

-- ---------------------------------------------------------------------------
-- Every run of a handle
-- ---------------------------------------------------------------------------

/-- `JointFinish` only moves forward. -/
def JointFinish.Moves : JointFinish → JointFinish → Prop
  | .notStarted, .running | .running, .taken => True
  | old, new => old = new

structure Handle.Exclusive (h : Handle ι) (log : List (Event ι)) : Prop where
  owner : ∃! o, h.Owns o
  /-- Whoever took the run for the finisher still holds the finish lock. -/
  lock : ∀ i, h.Owns (.finisherCall i) → h.finishLock = some i
  moves : ∀ a h' evs, h.step a = some (h', evs) → h.finish.Moves h'.finish
  spawned : log.countP Event.isSpawned ≤ 1
  refused : ∀ i verb e, h.pc i = .refused verb e → ∃ j, j ≠ i ∧ h.Owns (.claimant j)

theorem Handle.exclusive {h : Handle ι} (hr : (Handle.machine ι).Reachable h log) :
    h.Exclusive log := by
  have hi := Owned.of_reachable hr
  obtain ⟨o, ho⟩ := hi.owner
  refine ⟨⟨o, (ho o).mpr rfl, fun p hp => (ho p).mp hp⟩, fun i hown => ?_,
    fun a h' evs hs => ?_, ?_,
    hi.refused⟩
  · exact hi.lock i (by rw [show h.pc i = .jointSpawn from hown]; rfl)
  · rcases (Step.of_step hs).finish with ⟨hsame, -⟩ | ⟨hold, hnew, -⟩ | ⟨⟨i, hpc⟩, hnew, -⟩
    · rw [hsame]
      cases h.finish <;> rfl
    · rw [hold, hnew]
      trivial
    · rw [hi.notStarted (i := i) (by rw [hpc]; rfl), hnew]
      trivial
  · rw [hi.spawned]
    split <;> omega

/-- A verb that looks for the finisher too early, takes an empty slot, and
finds the finisher at its second look. -/
def lateFinisherRun : List (Action Nat) :=
  [.begin 0 (.verb .finish), .begin 1 .joint, .step 0, .step 1, .step 1, .step 0, .step 1, .step 0]

theorem Handle.exclusive_lateFinisher : ∃ h log, (Handle.machine Nat).Reachable h log ∧
    h.pc 0 = .driving .finish .joint false ∧ h.Exclusive log := by
  obtain ⟨h, log, hr, hpc⟩ := Transition.Machine.reach_replay (m := Handle.machine Nat)
    lateFinisherRun (fun h _ => h.pc 0) (fun _ _ _ => trivial)
    (b := .driving .finish .joint false) (by decide +kernel)
  exact ⟨h, log, hr, hpc, Handle.exclusive hr⟩

end ProcessKit.Running
