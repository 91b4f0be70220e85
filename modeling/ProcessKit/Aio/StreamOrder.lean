import ProcessKit.Aio.StreamLaws

/-!
# The order of a stream

What ends while the generator waits, or is suspended at a `yield`, is in the `done` of
its next round. From one round to the next the order is that of the commands' ends;
within a round it is that in which the set `done` is gone through.
-/

namespace ProcessKit.Aio

open ProcessKit.Runtime (PyErr PyResult)
open Transition (Follows)

variable {α ρ : Type}

def StreamEvent.finished? : StreamEvent α ρ → Option Nat
  | .ran index _ _ => some index
  | .yielded .. | .cancelled => none

/-- The commands in the order in which they ended, and their slots with them. -/
def finishes (log : List (StreamEvent α ρ)) : List Nat := log.filterMap StreamEvent.finished?

def StreamPhase.queue : StreamPhase → List Nat
  | .yielding done _ => done
  | .unstarted | .waiting _ | .draining .. | .finished _ => []

def StreamPhase.later : StreamPhase → List Nat
  | .waiting pending | .yielding _ pending => pending
  | .unstarted | .draining .. | .finished _ => []

/-- `done` is gone through in the order in which its slots ended. -/
def InFinishOrder (s : Stream α ρ × List (StreamEvent α ρ)) : StreamAction ρ → Prop
  | .wake done => Follows (finishes s.2) done
  | .next | .close | .throw _ | .cancel | .reaped | .slot .. => True

structure Ordered (s : Stream α ρ) (log : List (StreamEvent α ρ)) : Prop where
  follows : Follows (finishes log) (yields log ++ s.phase.queue)
  late : ∀ a ∈ yields log ++ s.phase.queue, ∀ b ∈ s.phase.later, ¬ [b, a].Sublist (finishes log)

section

variable {isProcessError : PyErr → Bool} {commands : List α} {limit : PyResult Nat}
variable {s s' : Stream α ρ} {log evs : List (StreamEvent α ρ)}

theorem finishes_append (log evs : List (StreamEvent α ρ)) :
    finishes (log ++ evs) = finishes log ++ finishes evs := List.filterMap_append

theorem Slotted.ended (h : Slotted isProcessError commands limit s log)
    (hmem : i ∈ finishes log) : s.ended i = true := by
  obtain ⟨ev, hev, hi⟩ := List.mem_filterMap.mp hmem
  cases ev with
  | ran index command outcome =>
    obtain rfl : index = i := by simpa [StreamEvent.finished?] using hi
    obtain ⟨slot, hslot, hstate⟩ := h.ran index command outcome hev
    simp [Stream.ended, hslot, hstate, SlotState.isEnded]
  | yielded index outcome => cases hi
  | cancelled => cases hi

theorem Ordered.of_over (h : Follows (finishes log) (yields log)) (hqueue : s.phase.queue = [])
    (hlater : s.phase.later = []) : Ordered s log where
  follows := by
    rw [hqueue, List.append_nil]
    exact h
  late a _ b hb := by
    rw [hlater] at hb
    cases hb

theorem Stream.reap_over (s : Stream α ρ) (tasks : List Nat) (exit : Exit) :
    (s.reap tasks exit).phase.queue = [] ∧ (s.reap tasks exit).phase.later = [] := by
  unfold Stream.reap
  split
  · exact ⟨rfl, rfl⟩
  · exact ⟨rfl, rfl⟩

theorem Ordered.resume (hslotted : Slotted isProcessError commands limit s log)
    (done pending : List Nat) (hfollows : Follows (finishes log) (yields log ++ done))
    (hlate : ∀ a ∈ yields log ++ done, ∀ b ∈ pending, ¬ [b, a].Sublist (finishes log))
    (hnodup : (yields log ++ done).Nodup) :
    Ordered (s.resume pending done).1 (log ++ (s.resume pending done).2) := by
  cases done with
  | nil =>
    rw [List.append_nil] at hfollows hlate
    by_cases hnil : pending = []
    · simp only [Stream.resume, if_pos hnil, List.append_nil]
      obtain ⟨hqueue, hlater⟩ := s.reap_over [] .exhausted
      exact .of_over hfollows hqueue hlater
    · simp only [Stream.resume, if_neg hnil, List.append_nil]
      constructor
      · simpa [StreamPhase.queue] using hfollows
      · simpa [StreamPhase.queue, StreamPhase.later] using hlate
  | cons task done =>
    cases hresult : s.result task with
    | ok returned =>
      obtain ⟨index, outcome⟩ := returned
      obtain ⟨slot, hslot, hstate⟩ := Stream.result_ok hresult
      obtain ⟨rfl, -⟩ := hslotted.returned task slot index outcome hslot hstate
      simp only [Stream.resume, hresult]
      have hyields : yields (log ++ [StreamEvent.yielded index outcome]) ++ done =
          yields log ++ index :: done := by
        rw [yields_append, List.append_assoc]
        rfl
      have hfinishes : finishes (log ++ [StreamEvent.yielded index outcome]) = finishes log := by
        rw [finishes_append]
        exact List.append_nil _
      constructor
      · simp only [StreamPhase.queue]
        rw [hyields, hfinishes]
        exact hfollows
      · simp only [StreamPhase.queue, StreamPhase.later]
        rw [hyields, hfinishes]
        exact hlate
    | error exit =>
      simp only [Stream.resume, hresult, List.append_nil]
      obtain ⟨hqueue, hlater⟩ := s.reap_over pending exit
      exact .of_over (hfollows.left hnodup) hqueue hlater

theorem Streaming.nodup (h : Streaming isProcessError commands limit s log)
    (hleft : s.phase.left = some left) (hsub : queue.Sublist left) :
    (yields log ++ queue).Nodup := by
  have hnodup := (h.looped.left left hleft).nodup_iff.mpr List.nodup_range
  exact hnodup.sublist (hsub.append_left (yields log))

theorem Ordered.wake (h : Ordered s log)
    (hstreaming : Streaming isProcessError commands limit s log)
    (hphase : s.phase = .waiting pending) (hdone : done.Perm (pending.filter s.ended))
    (hfinish : Follows (finishes log) done) :
    Ordered (s.resume (pending.filter (!s.ended ·)) done).1
      (log ++ (s.resume (pending.filter (!s.ended ·)) done).2) := by
  have hfollows := h.follows
  have hlate := h.late
  simp only [hphase, StreamPhase.queue, StreamPhase.later, List.append_nil] at hfollows hlate
  have hmem : ∀ b ∈ done, b ∈ pending := by
    intro b hb
    exact (List.mem_filter.mp (hdone.subset hb)).1
  apply Ordered.resume hstreaming.slotted
  · apply hfollows.append hfinish
    intro a ha b hb
    exact hlate a ha b (hmem b hb)
  · intro a _ b hb hpair
    have hended := hstreaming.slotted.ended (hpair.subset (List.mem_cons_self ..))
    simp [hended] at hb
  · have hleft : s.phase.left = some pending := by rw [hphase]; rfl
    have hpending := hstreaming.nodup hleft (.refl pending)
    have hnodup : (yields log ++ pending.filter s.ended).Nodup :=
      hpending.sublist (List.filter_sublist.append_left (yields log))
    exact ((hdone.append_left (yields log)).nodup_iff).mpr hnodup

theorem Ordered.move (h : Ordered s log)
    (hstreaming : Streaming isProcessError commands limit s log)
    (hslot : s.slots[task]? = some slot)
    (hstep : s.move isProcessError task slot mv = some (s', evs)) : Ordered s' (log ++ evs) := by
  obtain ⟨state, permits, rfl, hlive, -, hevs⟩ := Stream.move_cases hstep
  obtain ⟨hindex, -⟩ := hstreaming.slotted.job hslot
  rcases hevs with ⟨rfl, -⟩ | ⟨outcome, rfl, -⟩
  · rw [List.append_nil]
    exact ⟨h.follows, h.late⟩
  · have hfinishes : finishes (log ++ [.ran slot.index slot.command outcome]) =
        finishes log ++ [task] := by
      rw [finishes_append, hindex]
      rfl
    have hyields : yields (log ++ [.ran slot.index slot.command outcome]) = yields log := by
      rw [yields_append]
      exact List.append_nil _
    have hnew : task ∉ yields log ++ s.phase.queue := by
      intro hmem
      rcases List.mem_append.mp hmem with hmem | hmem
      · obtain ⟨ev, hev, hi⟩ := List.mem_filterMap.mp hmem
        cases ev with
        | ran index command outcome => cases hi
        | cancelled => cases hi
        | yielded index other =>
          obtain rfl : index = task := by simpa [StreamEvent.index?] using hi
          obtain ⟨command, -, hran, -⟩ := hstreaming.yielding.own index other hev
          obtain ⟨slot', hslot', hstate⟩ := hstreaming.slotted.ran index command other hran
          obtain rfl : slot = slot' := by simpa [hslot] using hslot'
          simp [hstate, SlotState.isEnded] at hlive
      · have hpending := hstreaming.looped.live task slot hslot hlive
        cases hphase : s.phase with
        | yielding done pending =>
          rw [hphase] at hmem hpending
          have hleft : s.phase.left = some (done ++ pending) := by rw [hphase]; rfl
          have hnodup := hstreaming.nodup hleft (.refl _)
          have hdisjoint := List.disjoint_of_nodup_append (List.nodup_append.mp hnodup).2.1
          exact hdisjoint hmem hpending
        | unstarted | waiting | draining | finished =>
          rw [hphase] at hmem
          cases hmem
    constructor
    · rw [hfinishes, hyields]
      exact h.follows.snoc hnew
    · rw [hfinishes, hyields]
      intro a ha b hb hpair
      rcases Transition.pair_sublist_append hpair with hpair | ⟨-, hlast⟩ | hpair
      · exact h.late a ha b hb hpair
      · obtain rfl := List.mem_singleton.mp hlast
        exact hnew ha
      · have hlength := hpair.length_le
        simp at hlength

theorem Ordered.follows_yields (h : Ordered s log)
    (hstreaming : Streaming isProcessError commands limit s log) :
    Follows (finishes log) (yields log) := by
  apply h.follows.left
  cases hphase : s.phase with
  | yielding done pending =>
    have hleft : s.phase.left = some (done ++ pending) := by rw [hphase]; rfl
    exact hstreaming.nodup hleft (List.sublist_append_left done pending)
  | unstarted | waiting | draining | finished =>
    rw [StreamPhase.queue, List.append_nil]
    exact hstreaming.yielding.once

theorem Ordered.leave (h : Ordered s log)
    (hstreaming : Streaming isProcessError commands limit s log)
    (hevs : yields evs = [] ∧ finishes evs = []) (hqueue : s'.phase.queue = [])
    (hlater : s'.phase.later = []) : Ordered s' (log ++ evs) := by
  have hyields : yields (log ++ evs) = yields log := by
    rw [yields_append, hevs.1, List.append_nil]
  have hfinishes : finishes (log ++ evs) = finishes log := by
    rw [finishes_append, hevs.2, List.append_nil]
  apply Ordered.of_over _ hqueue hlater
  rw [hyields, hfinishes]
  exact h.follows_yields hstreaming

theorem Ordered.stop (h : Ordered s log)
    (hstreaming : Streaming isProcessError commands limit s log)
    (hstep : s.stop exit = some (s', evs)) : Ordered s' (log ++ evs) := by
  unfold Stream.stop at hstep
  split at hstep
  · cases hstep
    exact h.leave hstreaming ⟨rfl, rfl⟩ rfl rfl
  · cases hstep
    obtain ⟨hqueue, hlater⟩ := s.reap_over _ exit
    exact h.leave hstreaming ⟨rfl, rfl⟩ hqueue hlater
  · cases hstep

theorem Ordered.start : Ordered (Stream.start commands limit : Stream α ρ) [] := by
  have hnone : Follows (finishes ([] : List (StreamEvent α ρ))) [] := by
    intro a b _ ha
    cases ha
  unfold Stream.start
  cases limit with
  | error error => exact .of_over hnone rfl rfl
  | ok limit =>
    by_cases hnil : commands = []
    · simp only [if_pos hnil]
      exact .of_over hnone rfl rfl
    · simp only [if_neg hnil]
      constructor
      · exact hnone
      · intro a ha
        cases ha

theorem Ordered.step (h : Ordered s log)
    (hstreaming : Streaming isProcessError commands limit s log) (hok : InFinishOrder (s, log) a)
    (hstep : s.step isProcessError commands limit a = some (s', evs)) :
    Ordered s' (log ++ evs) := by
  cases Stream.stepped hstep with
  | started hphase =>
    obtain ⟨-, rfl⟩ := hstreaming.looped.unstarted hphase
    exact .start
  | @resumed done pending hphase =>
    have hfollows := h.follows
    have hlate := h.late
    rw [hphase] at hfollows hlate
    have hleft : s.phase.left = some (done ++ pending) := by rw [hphase]; rfl
    apply Ordered.resume hstreaming.slotted done pending hfollows hlate
    exact hstreaming.nodup hleft (List.sublist_append_left done pending)
  | stopped hstop => exact h.stop hstreaming hstop
  | cancelledWaiting hphase =>
    obtain ⟨hqueue, hlater⟩ := s.reap_over _ .cancelled
    exact h.leave hstreaming ⟨rfl, rfl⟩ hqueue hlater
  | cancelledDraining hphase => exact h.leave hstreaming ⟨rfl, rfl⟩ rfl rfl
  | woken hphase hdone => exact h.wake hstreaming hphase hdone hok
  | reaped hphase hall => exact h.leave hstreaming ⟨rfl, rfl⟩ rfl rfl
  | moved hslot hmove => exact h.move hstreaming hslot hmove

/-- The pairs come in the order in which the commands end, if every round goes through
its `done` in that order. -/
theorem stream_as_completed_in_order {s : Stream α ρ × List (StreamEvent α ρ)}
    (h : (Stream.machine isProcessError commands cpuCount concurrency).logged.Reach
      InFinishOrder s log) : Follows (finishes log) (yields log) := by
  have hordered : Ordered s.1 log := by
    induction h with
    | init =>
      apply Ordered.of_over _ rfl rfl
      intro a b _ ha
      cases ha
    | step hr hok hs ih =>
      obtain ⟨hlog, hreach⟩ := hr.of_logged
      obtain ⟨hstep, -⟩ := Transition.Machine.logged_step hs
      apply ih.step (streaming hreach) _ hstep
      rw [← hlog]
      exact hok
  exact hordered.follows_yields (streaming h.of_logged.2)

end

-- ---------------------------------------------------------------------------
-- Two that end in one round
-- ---------------------------------------------------------------------------

/-- Both of two commands end while the generator waits, the first of them first. -/
def bothEnd (done : List Nat) : List (StreamAction Nat) :=
  [.next, .slot 0 .acquire, .slot 1 .acquire, .slot 0 (.finish (.ok 10)),
    .slot 1 (.finish (.ok 11)), .wake done, .next]

def wholeRound (s : Stream String Nat × List (StreamEvent String Nat)) :
    StreamAction Nat → Bool
  | .wake done => finishes s.2 = done
  | .next | .close | .throw _ | .cancel | .reaped | .slot .. => true

theorem stream_as_completed_in_order_both : ∃ log : List (StreamEvent String Nat),
    Follows (finishes log) (yields log) ∧ yields log = [0, 1] := by
  obtain ⟨s, log, hr, hyields⟩ := Transition.Machine.reach_replay
    (m := (Stream.machine (fun _ => false) ["serve", "probe"] none (some 2)).logged.guarded
      wholeRound) (bothEnd [0, 1]) (fun _ log => yields log) (fun _ _ _ => trivial) (b := [0, 1])
    (by decide +kernel)
  refine ⟨log, stream_as_completed_in_order (hr.of_guarded fun s a hwhole => ?_), hyields⟩
  cases a with
  | wake done =>
    obtain rfl : finishes s.2 = done := by simpa [wholeRound] using hwhole
    exact fun _ _ hpair _ _ => hpair
  | next | close | throw | cancel | reaped | slot => trivial

/-- The set is gone through the other way round. -/
theorem set_order : ∃ s log,
    (Stream.machine (fun _ => false) ["serve", "probe"] none (some 2)).Reachable s log ∧
      ¬ Follows (finishes log) (yields (log : List (StreamEvent String Nat))) := by
  obtain ⟨s, log, hr, horders⟩ := Transition.Machine.reach_replay
    (m := Stream.machine (fun _ => false) ["serve", "probe"] none (some 2)) (bothEnd [1, 0])
    (fun _ log => (finishes log, yields log)) (fun _ _ _ => trivial) (b := ([0, 1], [1, 0]))
    (by decide +kernel)
  obtain ⟨hfinishes, hyields⟩ := Prod.mk.inj horders
  refine ⟨s, log, hr, fun h => ?_⟩
  rw [hfinishes, hyields] at h
  exact absurd (h 0 1 (.refl _) (by simp) (by simp)) (by decide)

end ProcessKit.Aio
