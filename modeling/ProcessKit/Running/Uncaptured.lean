import Mathlib.Data.Fintype.Basic
import ProcessKit.Running.Ownership

/-!
# What a verb blames for an empty slot

`output`, `output_bytes` and `profile` cannot be answered from a finisher, so
`take_running_uncaptured` looks at the finish slot before it takes the process
and names `output_events()` when a finisher has started. Between the two
sections `start_joint_finish` can take the run: then the slot is empty on
account of the finisher, and the verb says "consumed". `take_claim` looks a
second time for this race and `take_running_uncaptured` does not.
-/

namespace ProcessKit.Running

/-- `start_joint_finish` takes the run while a verb is between its look at the
finish slot and its take of the process slot. -/
def BlameRaced (h : Handle ι) (a : Action ι) : Prop :=
  ∃ i, a.caller = some i ∧ h.pc i = .jointTake ∧ h.slot = true ∧
    ∃ j verb, h.pc j = .uncapturedTake verb

/-- The events stream's finisher has the run, or had it. -/
def Handle.Streamed (h : Handle ι) : Prop :=
  (∃ i, h.pc i = .jointSpawn) ∨ h.finish ≠ .notStarted

theorem consumedError_ne (name : String) : consumedError ≠ uncapturedError name := by
  intro h
  have hlen := congrArg (fun e : Runtime.PyErr => e.message.length) h
  have hshort : ("the process handle has been consumed" : String).length = 36 := by decide
  have hlong : 36 <
      ("finish()/afinish() (outcome + stderr) or outcome()/aoutcome() instead." : String).length := by
    decide
  simp only [consumedError, uncapturedError, Runtime.ProcessError.newErr, String.length_append,
    hshort] at hlen
  omega

structure Blaming (h : Handle ι) (log : List (Event ι)) : Prop where
  named : ∀ i verb name, h.pc i = .uncapturedLook verb name → verb.uncaptured = some name
  looked : ∀ i verb, h.pc i = .uncapturedTake verb → ¬ h.Streamed
  claimed : ∀ i, (h.pc i).obtained = true → ∃ c, .obtained i c ∈ log
  joint : ∀ i, .obtained i .joint ∈ log → h.finish = .taken
  consumed : ∀ i verb, h.pc i = .raised verb consumedError →
    ¬ h.Streamed ∧ h.slot = false ∧ ∃ j, j ≠ i ∧ .obtained j .process ∈ log
  raised : ∀ i verb e, h.pc i = .raised verb e → e = consumedError ∨
    h.Streamed ∧ ∃ name, verb.uncaptured = some name ∧ e = uncapturedError name

theorem Blaming.init : Blaming (Handle.started : Handle ι) [] where
  named := nofun
  looked := nofun
  claimed := nofun
  joint := nofun
  consumed := nofun
  raised := nofun

theorem Blaming.took_process {h : Handle ι} (hi : Blaming h log) (ho : Owned h log)
    (hst : ¬ h.Streamed) (hslot : h.slot = false) (hpc : (h.pc i).obtained = false) :
    ∃ j, j ≠ i ∧ .obtained j .process ∈ log := by
  obtain ⟨o, howned⟩ := ho.owner
  have hown := (howned o).mpr rfl
  cases o with
  | slot => simp [Handle.Owns, hslot] at hown
  | finisherCall j => exact absurd (.inl ⟨j, hown⟩) hst
  | task => exact absurd (.inr (by rw [show h.finish = .running from hown]; simp)) hst
  | claimant j =>
    obtain ⟨c, hc⟩ := hi.claimed j hown
    cases c with
    | joint => exact absurd (.inr (by simp [hi.joint j hc])) hst
    | process =>
      refine ⟨j, ?_, hc⟩
      rintro rfl
      rw [Handle.Owns, hpc] at hown
      cases hown

variable [DecidableEq ι]

theorem Step.named {h h' : Handle ι} (hs : Step h a h' evs)
    (hn : ∀ i verb name, h.pc i = .uncapturedLook verb name → verb.uncaptured = some name)
    (hj : h'.pc j = .uncapturedLook verb name) : verb.uncaptured = some name := by
  cases hs with
  | @begin i what =>
    rw [Handle.goto_pc] at hj
    split at hj
    · cases what with
      | verb v =>
        simp only [Call.entry] at hj
        split at hj
        · cases hj
          exact ‹_›
        · cases hj
      | joint | drop => cases hj
    · exact hn j verb name hj
  | finisherEnds => exact hn j verb name hj
  | _ =>
    rw [Handle.goto_pc] at hj
    split at hj
    · cases hj
    · exact hn j verb name hj

theorem Step.looked {h h' : Handle ι} (hs : Step h a h' evs)
    (hj : h'.pc j = .uncapturedTake verb) :
    h.pc j = .uncapturedTake verb ∨ h.finish = .notStarted ∧ h.finishLock = none := by
  cases hs with
  | uncapturedLook _ hfree hnot => exact .inr ⟨hnot, hfree⟩
  | @begin i what =>
    rw [Handle.goto_pc] at hj
    split at hj
    · rcases what.entry_cases with he | he | ⟨_, _, he⟩ | ⟨_, he⟩ <;> rw [he] at hj <;> cases hj
    · exact .inl hj
  | finisherEnds => exact .inl hj
  | _ =>
    rw [Handle.goto_pc] at hj
    split at hj
    · cases hj
    · exact .inl hj

theorem Step.raised {h h' : Handle ι} (hs : Step h a h' evs) (hj : h'.pc j = .raised verb e) :
    h.pc j = .raised verb e ∨
      (∃ name, h.pc j = .uncapturedLook verb name ∧ h.finish ≠ .notStarted ∧
        e = uncapturedError name) ∨
      h.pc j = .uncapturedTake verb ∧ h.slot = false ∧ e = consumedError := by
  rcases hs.arrives hj with hold | ⟨-, _, hpc, hg⟩
  · exact .inl hold
  · cases hg with
    | uncapturedStreamed hstarted => exact .inr (.inl ⟨_, hpc, hstarted, rfl⟩)
    | uncapturedEmpty hslot => exact .inr (.inr ⟨hpc, hslot, rfl⟩)

/-- The finisher comes by the run only from the slot. -/
theorem Step.streamed {h h' : Handle ι} (hs : Step h a h' evs) (hst : h'.Streamed) :
    h.Streamed ∨ ∃ i, a.caller = some i ∧ h.pc i = .jointTake ∧ h.slot = true := by
  rcases hst with ⟨i, hi⟩ | hfinish
  · rcases hs.arrives hi with hold | ⟨hcaller, _, hpc, hg⟩
    · exact .inl (.inl ⟨i, hold⟩)
    · cases hg with
      | jointTake hslot => exact .inr ⟨i, hcaller, hpc, hslot⟩
  · rcases hs.finish with ⟨hsame, -⟩ | ⟨hold, -⟩ | ⟨hspawn, -⟩
    · exact .inl (.inr (hsame ▸ hfinish))
    · exact .inl (.inr (by simp [hold]))
    · exact .inl (.inl hspawn)

theorem Step.streamed_mono {h h' : Handle ι} (hs : Step h a h' evs) (hst : h.Streamed) :
    h'.Streamed := by
  cases hs with
  | claimJoint => exact .inr (by simp)
  | jointSpawn => exact .inr (by simp)
  | finisherEnds => exact hst
  | _ =>
    refine hst.imp (fun ⟨i, hi⟩ => ⟨i, ?_⟩) id
    rw [Handle.goto_pc, if_neg]
    · exact hi
    · rintro rfl
      simp_all

theorem Step.claimed {h h' : Handle ι} (hs : Step h a h' evs)
    (hc : ∀ i, (h.pc i).obtained = true → ∃ c, .obtained i c ∈ log)
    (hj : (h'.pc j).obtained = true) : ∃ c, .obtained j c ∈ log ++ evs := by
  have hold : (h.pc j).obtained = true → ∃ c, .obtained j c ∈ log ++ evs := fun h =>
    (hc j h).imp fun _ => List.mem_append_left _
  cases hs with
  | @begin i what =>
    rw [Handle.goto_pc] at hj
    split at hj
    · rcases what.entry_cases with he | he | ⟨_, _, he⟩ | ⟨_, he⟩ <;> rw [he] at hj <;> cases hj
    · exact hold hj
  | claimJoint | claimProcess | dropTake =>
    rw [Handle.goto_pc] at hj
    split at hj
    · rename_i hji
      subst hji
      exact ⟨_, List.mem_append_right _ (List.mem_singleton_self _)⟩
    · exact hold hj
  | poll hpc | pollTeardown hpc | complete hpc | abandon hpc =>
    rw [Handle.goto_pc] at hj
    split at hj
    · rename_i hji
      exact hold (by rw [hji, hpc]; rfl)
    · exact hold hj
  | finisherEnds => exact hold hj
  | _ =>
    rw [Handle.goto_pc] at hj
    split at hj
    · cases hj
    · exact hold hj

theorem Step.obtained_joint {h h' : Handle ι} (hs : Step h a h' evs) (ho : Owned h log)
    (hj : ∀ i, .obtained i .joint ∈ log → h.finish = .taken)
    (hi : .obtained i .joint ∈ log ++ evs) : h'.finish = .taken := by
  rcases List.mem_append.mp hi with hold | hnew
  · rcases hs.finish with ⟨hsame, -⟩ | ⟨-, htaken, -⟩ | ⟨⟨k, hk⟩, -⟩
    · exact hsame ▸ hj i hold
    · exact htaken
    · have hnot := ho.notStarted (i := k) (by rw [hk]; rfl)
      rw [hj i hold] at hnot
      cases hnot
  · cases hs with
    | claimJoint => rfl
    | _ => simp at hnew

/-- A finisher that had nothing of the run before the step has it only by
racing a verb that is at the slot. -/
theorem Step.not_streamed {h h' : Handle ι} (hs : Step h a h' evs) (hc : ¬ BlameRaced h a)
    (hpc : h.pc i = .uncapturedTake verb) (hst : ¬ h.Streamed) : ¬ h'.Streamed := by
  intro hst'
  rcases hs.streamed hst' with hold | ⟨k, hcaller, hk, hslot⟩
  · exact hst hold
  · exact hc ⟨k, hcaller, hk, hslot, i, verb, hpc⟩

/-- With the finish lock free and no finisher started, no call holds the run
for the finisher. -/
theorem Owned.not_streamed {h h' : Handle ι} (ho : Owned h log) (hs : Step h a h' evs)
    (hnot : h.finish = .notStarted) (hfree : h.finishLock = none) : ¬ h'.Streamed := by
  have hlocks : ∀ i, (h.pc i).locks = false := fun i => by
    by_contra hl
    have hheld := ho.lock i (by simpa using hl)
    rw [hfree] at hheld
    cases hheld
  intro hst
  rcases hs.streamed hst with (⟨i, hi⟩ | hfinish) | ⟨i, -, hi, -⟩
  · simpa [hi, Pc.locks] using hlocks i
  · exact hfinish hnot
  · simpa [hi, Pc.locks] using hlocks i

theorem Blaming.step {h h' : Handle ι} (hi : Blaming h log) (ho : Owned h log)
    (hc : ¬ BlameRaced h a) (hs : Step h a h' evs) : Blaming h' (log ++ evs) where
  named _ _ _ hj := hs.named hi.named hj
  looked i verb hj := by
    rcases hs.looked hj with hold | ⟨hnot, hfree⟩
    · exact hs.not_streamed hc hold (hi.looked i verb hold)
    · exact ho.not_streamed hs hnot hfree
  claimed _ hj := hs.claimed hi.claimed hj
  joint _ hj := hs.obtained_joint ho hi.joint hj
  consumed i verb hj := by
    rcases hs.raised hj with hold | ⟨name, -, -, he⟩ | ⟨hpc, hslot, -⟩
    · obtain ⟨hst, hslot, j, hne, hmem⟩ := hi.consumed i verb hold
      refine ⟨fun hst' => ?_, hs.slot_mono hslot, j, hne, List.mem_append_left _ hmem⟩
      rcases hs.streamed hst' with hst' | ⟨_, -, -, hfull⟩
      · exact hst hst'
      · rw [hslot] at hfull
        cases hfull
    · exact absurd he (consumedError_ne name)
    · have hst := hi.looked i verb hpc
      obtain ⟨j, hne, hmem⟩ := hi.took_process ho hst hslot (i := i) (by rw [hpc]; rfl)
      exact ⟨hs.not_streamed hc hpc hst, hs.slot_mono hslot, j, hne, List.mem_append_left _ hmem⟩
  raised i verb e hj := by
    rcases hs.raised hj with hold | ⟨name, hpc, hstarted, rfl⟩ | ⟨-, -, rfl⟩
    · exact (hi.raised i verb e hold).imp_right fun ⟨hst, hname⟩ => ⟨hs.streamed_mono hst, hname⟩
    · exact .inr ⟨hs.streamed_mono (.inr hstarted), name, hi.named i verb name hpc, rfl⟩
    · exact .inl rfl

-- ---------------------------------------------------------------------------
-- Every run of a handle
-- ---------------------------------------------------------------------------

structure Handle.BlamesRight (h : Handle ι) (log : List (Event ι)) : Prop where
  /-- "Consumed" is said of a run that another call took out of the slot. -/
  direct : ∀ i verb, h.pc i = .raised verb consumedError → ∃ j, j ≠ i ∧ .obtained j .process ∈ log
  /-- Of a run that the finisher has, the verb names `output_events()`. -/
  streamed : h.Streamed → ∀ i verb e, h.pc i = .raised verb e →
    ∃ name, verb.uncaptured = some name ∧ e = uncapturedError name
  /-- And only of such a run. -/
  fair : ∀ i verb name, h.pc i = .raised verb (uncapturedError name) → h.Streamed

instance [Fintype ι] (h : Handle ι) (a : Action ι) : Decidable (BlameRaced h a) :=
  decidable_of_iff (∃ i, a.caller = some i ∧ h.pc i = .jointTake ∧ h.slot = true ∧
      ∃ j, (match h.pc j with | .uncapturedTake _ => true | _ => false) = true) <| by
    refine exists_congr fun i => and_congr_right fun _ => and_congr_right fun _ =>
      and_congr_right fun _ => exists_congr fun j => ?_
    cases h.pc j <;> simp

theorem Handle.blames_right {h : Handle ι}
    (hr : (Handle.machine ι).Reach (fun h a => ¬ BlameRaced h a) h log) : h.BlamesRight log := by
  obtain ⟨hi, -⟩ : Blaming h log ∧ Owned h log := by
    refine hr.invariant (P := fun h log => Blaming h log ∧ Owned h log) ⟨.init, .init⟩ ?_
    rintro h log a h' evs ⟨hi, ho⟩ hc hstep
    have hstep := Step.of_step hstep
    exact ⟨hi.step ho hc hstep, ho.step hstep⟩
  refine ⟨fun i verb hj => (hi.consumed i verb hj).2.2, fun hst i verb e hj => ?_,
    fun i verb name hj => ?_⟩
  · rcases hi.raised i verb e hj with rfl | ⟨-, hname⟩
    · exact absurd hst (hi.consumed i verb hj).1
    · exact hname
  · rcases hi.raised i verb _ hj with he | ⟨hst, -⟩
    · exact absurd he.symm (consumedError_ne name)
    · exact hst

/-- A finisher has the run when `output` looks. The finisher is `true`. -/
def streamedOutputRun : List (Action Bool) :=
  [.begin true .joint, .step true, .step true, .step true, .begin false (.verb .output),
    .step false]

theorem Handle.blames_right_streamed : ∃ h log,
    (Handle.machine Bool).Reach (fun h a => ¬ BlameRaced h a) h log ∧
      h.pc false = .raised .output (uncapturedError "output") ∧ h.BlamesRight log := by
  obtain ⟨h, log, hr, hpc⟩ := Transition.Machine.reach_replay
    (m := (Handle.machine Bool).guarded fun h a => decide (¬ BlameRaced h a)) streamedOutputRun
    (fun h _ => h.pc false) (fun _ _ _ => trivial)
    (b := .raised .output (uncapturedError "output")) (by decide +kernel)
  have hr := hr.of_guarded fun h a hc => of_decide_eq_true hc
  exact ⟨h, log, hr, hpc, Handle.blames_right hr⟩

/-- The finisher takes the run between the two sections of `output`. -/
def racedOutputRun : List (Action Nat) :=
  [.begin 0 (.verb .output), .begin 1 .joint, .step 0, .step 1, .step 1, .step 1, .step 0]

theorem Handle.blames_consumed : ¬ ∀ (h : Handle Nat) log, (Handle.machine Nat).Reachable h log →
    h.BlamesRight log := by
  intro hall
  obtain ⟨h, log, hr, heq⟩ := Transition.Machine.reach_replay (m := Handle.machine Nat)
    racedOutputRun (fun h log => (h.pc 0, log)) (fun _ _ _ => trivial)
    (b := (.raised .output consumedError, [.spawned 1])) (by decide +kernel)
  simp only [Prod.mk.injEq] at heq
  obtain ⟨hpc, rfl⟩ := heq
  obtain ⟨j, -, hmem⟩ := (hall h _ hr).direct 0 .output hpc
  simp at hmem

end ProcessKit.Running
