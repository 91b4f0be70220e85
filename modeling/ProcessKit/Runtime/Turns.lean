import ProcessKit.Runtime.Step

/-!
# Every callback leaves a next turn or a retired hub

While a hub is open exactly one of an armed receive, a wake callback and an
idle callback exists, a callback counting until it returns (`Scheduled`). A
callback that closes the hub closes the reader, drains the entries, drops the
writer and cancels the futures, in this order (`Closing`).

Both fail at the same three places: a raise that the code lets through before
the hub is retired (`StrandingRaise`). The other branches run the same calls
and ignore what they raise.
-/

namespace ProcessKit.Runtime

def LoopPc.callbacks : LoopPc → Nat
  | .wakeEnter _ | .wakeTake _ | .wakeDeliver .. | .wakeSchedule | .idleEnter | .idleArm
  | .closeReader _ | .closeState _ | .closeWriter .. | .closeFutures .. => 1
  | _ => 0

def LoopPc.closes : LoopPc → Bool
  | .closeWriter .. | .closeFutures .. | .dropWriter => true
  | _ => false

/-- The armed receives and the callbacks, running or to be run. -/
def Hub.turns (h : Hub) : Nat := h.armed + h.wakes.length + h.idles + h.pc.callbacks

def LoopPc.draining : LoopPc → List HubEntry
  | .closeWriter _ entries | .closeFutures _ entries => entries
  | _ => []

/-- A raise that leaves its callback before the hub is retired:
`task.cancelled()`, a plain `reader.close()`, or a plain `Future.cancel()`
with entries left. -/
def StrandingRaise (h : Hub) : Action → Prop
  | .loop true => (∃ received, h.pc = .wakeEnter received) ∨
    (∃ branch, h.pc = .closeReader branch ∧ branch.guarded = false) ∨
    ∃ branch entry next rest, h.pc = .closeFutures branch (entry :: next :: rest) ∧
      branch.guarded = false
  | _ => False

structure Scheduled (h : Hub) : Prop where
  turns : h.state.closed = false → h.turns = 1
  closes : h.pc.closes = true → h.state.closed = true

-- ---------------------------------------------------------------------------
-- The next turn
-- ---------------------------------------------------------------------------

theorem Step.turns (hs : Step refuses h a h' evs) (hc : ¬ StrandingRaise h a)
    (hcl : h.pc.closes = true → h.state.closed = true) :
    h'.state.closed = true ∨ h'.state.closed = h.state.closed ∧ h'.turns = h.turns := by
  cases hs with
  | closeState | collect => exact .inl rfl
  | closeWriter hpc | closeDone hpc | closeFuture hpc | closeFutureRaises hpc | dropWriter hpc =>
    exact .inl (by simpa using hcl (by simp [hpc, LoopPc.closes]))
  | wakeRaises hpc => exact absurd (.inl ⟨_, hpc⟩) hc
  | closeReaderRaises hpc hg => exact absurd (.inr (.inl ⟨_, hpc, hg⟩)) hc
  | recvByte ha | recvEof ha | recvFails ha =>
    refine .inr ⟨rfl, ?_⟩
    simp only [Hub.turns, List.length_append, List.length_singleton]
    omega
  | idleCallback hpc hi =>
    refine .inr ⟨rfl, ?_⟩
    simp only [Hub.turns, hpc, LoopPc.callbacks]
    omega
  | wakeCallback hpc hw =>
    refine .inr ⟨rfl, ?_⟩
    simp only [Hub.turns, hpc, hw, LoopPc.callbacks, List.length_cons]
    omega
  | schedule hpc | arm hpc =>
    refine .inr ⟨rfl, ?_⟩
    simp only [Hub.turns, hpc, LoopPc.callbacks]
    omega
  | cancelIdle hpc | delivered hpc | idleEnter hpc =>
    refine .inr ⟨by simp, ?_⟩
    split <;> simp only [Hub.turns, hpc, LoopPc.callbacks]
  | poll | joinFailed | store | storeCancelled | publish | write | futureCancel | doneCallback =>
    exact .inr ⟨by simp, by simp [Hub.turns]⟩
  | lookup hpc | register hpc | registerClosed hpc | attachRaises hpc | attach hpc | unregister hpc
  | cancelCallback hpc | cancelRemove hpc | cancelSend hpc | cancelWake hpc | wakeCancelled hpc
  | wakeResult hpc | takeReady hpc | deliver hpc | scheduleRaises hpc | armRaises hpc
  | closeReader hpc =>
    exact .inr ⟨by simp, by simp [Hub.turns, hpc, LoopPc.callbacks]⟩

theorem Step.closes (hs : Step refuses h a h' evs)
    (hcl : h.pc.closes = true → h.state.closed = true) :
    h'.pc.closes = true → h'.state.closed = true := by
  cases hs with
  | closeState | collect => exact fun _ => rfl
  | closeWriter hpc | closeFuture hpc | closeFutureRaises hpc =>
    exact fun _ => by simpa using hcl (by simp [hpc, LoopPc.closes])
  | cancelIdle | delivered | idleEnter =>
    intro hx
    split at hx <;> cases hx
  | poll | joinFailed | store | storeCancelled | publish | write | futureCancel | doneCallback
  | recvByte | recvEof | recvFails => simpa using hcl
  | _ => exact fun hx => by simp [LoopPc.closes] at hx

theorem Scheduled.init : Scheduled Hub.new := ⟨fun _ => rfl, nofun⟩

theorem Scheduled.step (hi : Scheduled h) (hc : ¬ StrandingRaise h a)
    (hs : Step refuses h a h' evs) :
    Scheduled h' := by
  refine ⟨fun hopen => ?_, hs.closes hi.closes⟩
  rcases hs.turns hc hi.closes with hcl | ⟨hcl, hturns⟩
  · rw [hcl] at hopen; cases hopen
  · rw [hturns]
    exact hi.turns (hcl ▸ hopen)

-- ---------------------------------------------------------------------------
-- Retiring
-- ---------------------------------------------------------------------------

/-- How far a close has come: what is true of the hub by where the loop
thread is. -/
structure Closing (h : Hub) (log : List Event) : Prop where
  fresh : h.state.closed = false → ∀ k i, .left k i .close ∉ log
  reader : (h.state.closed = true ∧ h.pc ≠ .dropWriter) ∨ (∃ branch, h.pc = .closeState branch) →
    h.readerClosed = true
  writer : h.state.closed = true → h.writer = false ∨ h.pc = .dropWriter ∨
    ∃ branch entries, h.pc = .closeWriter branch entries
  tried : ∀ k i, .left k i .close ∈ log →
    .cancelTried k ∈ log ∨ k ∈ h.pc.draining.map HubEntry.future

def LoopPc.retiring : LoopPc → Bool
  | .closeState _ | .closeWriter .. | .closeFutures .. | .dropWriter => true
  | _ => false

theorem LoopPc.draining_of_not_retiring {pc : LoopPc} (h : pc.retiring = false) :
    pc.draining = [] := by
  cases pc <;> first | rfl | cases h

theorem Closing.outside (hi : Closing h log) (hcl : h'.state.closed = h.state.closed)
    (hr : h'.readerClosed = h.readerClosed) (hw : h'.writer = true → h.writer = true)
    (hpc : h'.pc = h.pc ∨ h.pc.retiring = false ∧ h'.pc.retiring = false)
    (hevs : ∀ k i, .left k i .close ∉ evs) : Closing h' (log ++ evs) := by
  have hold : ∀ {k i}, .left k i .close ∈ log ++ evs → .left k i .close ∈ log := by
    intro k i h
    exact (List.mem_append.mp h).resolve_right (hevs k i)
  have hdrop : ∀ {pc : LoopPc}, pc.retiring = false → pc ≠ .dropWriter := by
    rintro pc h rfl
    cases h
  refine ⟨fun ho k i h => hi.fresh (hcl ▸ ho) k i (hold h), fun h => ?_, fun hc => ?_,
    fun k i h => ?_⟩
  · rw [hr]
    refine hi.reader ?_
    rcases hpc with hpc | ⟨hout, hout'⟩
    · rwa [hcl, hpc] at h
    · rcases h with ⟨hc, -⟩ | ⟨branch, hb⟩
      · exact .inl ⟨hcl ▸ hc, hdrop hout⟩
      · rw [hb] at hout'
        cases hout'
  · rcases hpc with hpc | ⟨hout, hout'⟩
    · rw [hpc]
      exact (hi.writer (hcl ▸ hc)).imp_left fun h => by simpa [h] using hw
    · rcases hi.writer (hcl ▸ hc) with h | h | ⟨_, _, h⟩
      · exact .inl (by simpa [h] using hw)
      · exact absurd h (hdrop hout)
      · rw [h] at hout
        cases hout
  · rcases hi.tried k i (hold h) with h | h
    · exact .inl (List.mem_append_left _ h)
    · rcases hpc with hpc | ⟨hout, -⟩
      · exact .inr (hpc ▸ h)
      · rw [LoopPc.draining_of_not_retiring hout] at h
        cases h

theorem Closing.inside (hi : Closing h log) (hclosed : h.state.closed = true)
    (hpc : h.pc ≠ .dropWriter) (hcl : h'.state.closed = h.state.closed)
    (hr : h'.readerClosed = h.readerClosed) (hw : h'.writer = false)
    (htried : ∀ k i, .left k i .close ∈ log ++ evs →
      .cancelTried k ∈ log ++ evs ∨ k ∈ h'.pc.draining.map HubEntry.future) :
    Closing h' (log ++ evs) := by
  refine ⟨fun ho => ?_, fun _ => ?_, fun _ => .inl hw, htried⟩
  · rw [hcl, hclosed] at ho
    cases ho
  · rw [hr]
    exact hi.reader (.inl ⟨hclosed, hpc⟩)

theorem Closing.init : Closing Hub.new [] where
  fresh := nofun
  reader h := by simp [Hub.new, CompletionHub.new] at h
  writer h := by simp [Hub.new, CompletionHub.new] at h
  tried := nofun

theorem Closing.step (hi : Closing h log) (hcl : h.pc.closes = true → h.state.closed = true)
    (hc : ¬ StrandingRaise h a) (hs : Step refuses h a h' evs) : Closing h' (log ++ evs) := by
  cases hs with
  | closeReader hpc =>
    refine ⟨by simpa using hi.fresh, fun _ => rfl, fun h => .inl ?_, fun k i h => ?_⟩
    · simpa [hpc] using hi.writer h
    · simpa [hpc, LoopPc.draining] using hi.tried k i (by simpa using h)
  | closeState hpc =>
    refine ⟨nofun, fun _ => hi.reader (.inr ⟨_, hpc⟩), fun _ => .inr (.inr ⟨_, _, rfl⟩),
      fun k i h => ?_⟩
    rcases List.mem_append.mp h with h | h
    · refine .inl (List.mem_append_left _ ?_)
      simpa [hpc, LoopPc.draining] using hi.tried k i h
    · obtain ⟨t, ht, heq⟩ := List.mem_map.mp h
      cases heq
      exact .inr (List.mem_map_of_mem (List.mem_map_of_mem ht))
  | closeWriter hpc =>
    have hclosed := hcl (by simp [hpc, LoopPc.closes])
    refine hi.inside hclosed (by simp [hpc]) rfl rfl rfl fun k i h => ?_
    simpa [hpc, LoopPc.draining] using hi.tried k i (by simpa using h)
  | closeFuture hpc =>
    have hclosed := hcl (by simp [hpc, LoopPc.closes])
    have hwriter : h.writer = false := by simpa [hpc] using hi.writer hclosed
    refine hi.inside hclosed (by simp [hpc]) rfl rfl hwriter fun k i h => ?_
    rcases hi.tried k i (by simpa using h) with htried | hleft
    · exact .inl (List.mem_append_left _ htried)
    · rw [hpc, LoopPc.draining, List.map_cons, List.mem_cons] at hleft
      exact hleft.imp_left fun hk => by simp [hk]
  | closeFutureRaises hpc =>
    rename_i branch entry rest
    have hclosed := hcl (by simp [hpc, LoopPc.closes])
    have hwriter : h.writer = false := by simpa [hpc] using hi.writer hclosed
    refine hi.inside hclosed (by simp [hpc]) rfl rfl hwriter fun k i h => ?_
    rcases hi.tried k i (by simpa using h) with htried | hleft
    · exact .inl (List.mem_append_left _ htried)
    · rw [hpc, LoopPc.draining, List.map_cons, List.mem_cons] at hleft
      refine hleft.imp (fun hk => by simp [hk]) fun hk => ?_
      split
      · exact hk
      · -- unguarded, the raise leaves the callback: nothing may be left
        cases rest with
        | nil => cases hk
        | cons next rest =>
          exact absurd (.inr (.inr ⟨_, _, _, _, hpc, (Bool.not_eq_true _).mp ‹_›⟩)) hc
  | closeDone hpc =>
    have hclosed := hcl (by simp [hpc, LoopPc.closes])
    have hwriter : h.writer = false := by simpa [hpc] using hi.writer hclosed
    refine hi.inside hclosed (by simp [hpc]) rfl rfl hwriter fun k i h => ?_
    simpa [hpc, LoopPc.draining] using hi.tried k i (by simpa using h)
  | collect hpc =>
    refine ⟨nofun, fun h => by simp at h, fun _ => .inr (.inl rfl), fun k i h => .inl ?_⟩
    have hold : .left k i .close ∈ log := by simpa [leftBy] using h
    exact List.mem_append_left _ (by simpa [hpc, LoopPc.draining] using hi.tried k i hold)
  | dropWriter hpc =>
    refine ⟨by simpa using hi.fresh, fun _ => rfl, fun _ => .inl rfl, fun k i h => ?_⟩
    simpa [hpc, LoopPc.draining] using hi.tried k i (by simpa using h)
  | closeReaderRaises hpc hg => exact absurd (.inr (.inl ⟨_, hpc, hg⟩)) hc
  | recvByte | recvEof | recvFails | joinFailed | store | storeCancelled | poll | publish =>
    exact hi.outside (by simp) rfl (by simp) (.inl rfl) (by simp)
  | write =>
    exact hi.outside (by simp) rfl (fun hw => (Hub.writeByte_unread _ hw).1) (.inl rfl) nofun
  | cancelWake hpc =>
    exact hi.outside (by simp) rfl (fun hw => (Hub.writeByte_unread _ hw).1)
      (.inr ⟨by simp [hpc, LoopPc.retiring], rfl⟩) nofun
  | delivered hpc | idleEnter hpc | cancelIdle hpc =>
    refine hi.outside (by simp) rfl (by simp) (.inr ⟨by simp [hpc, LoopPc.retiring], ?_⟩) nofun
    split <;> rfl
  | unregister hpc | cancelRemove hpc =>
    refine hi.outside rfl rfl id (.inr ⟨by simp [hpc, LoopPc.retiring], rfl⟩) fun k i => ?_
    unfold Hub.cancelEvents
    split <;> simp
  | takeReady hpc =>
    exact hi.outside rfl rfl id (.inr ⟨by simp [hpc, LoopPc.retiring], rfl⟩) (by simp [leftBy])
  | lookup hpc | register hpc | registerClosed hpc | attachRaises hpc | attach hpc
  | futureCancel hpc | cancelCallback hpc | doneCallback hpc | cancelSend hpc | wakeCallback hpc
  | idleCallback hpc | wakeRaises hpc | wakeCancelled hpc | wakeResult hpc | deliver hpc
  | scheduleRaises hpc | schedule hpc | armRaises hpc | arm hpc =>
    exact hi.outside (by simp) rfl (by simp)
      (.inr ⟨by simp [hpc, LoopPc.retiring], by simp [hpc, LoopPc.retiring]⟩) (by simp)

/-- Between two callbacks a hub is open with its next step scheduled, or
closed with both ends of its socketpair, and every future it drained had its
`cancel()` tried. -/
def Hub.NotStranded (h : Hub) (log : List Event) : Prop :=
  h.pc.callbacks = 0 → h.pc ≠ .dropWriter →
    h.state.closed = false ∧ 0 < h.armed + h.wakes.length + h.idles ∨
    h.state.closed = true ∧ h.writer = false ∧ h.readerClosed = true ∧
      ∀ k i, .left k i .close ∈ log → .cancelTried k ∈ log

theorem Hub.notStranded
    (hr : (Hub.machine refuses).Reach (fun h a => ¬ StrandingRaise h a) h log) :
    h.NotStranded log := by
  have hinv : Scheduled h ∧ Closing h log := by
    refine hr.invariant (P := fun h log => Scheduled h ∧ Closing h log)
      ⟨Scheduled.init, Closing.init⟩ ?_
    rintro h log a h' evs ⟨hs, hcl⟩ hc hstep
    have hstep := Step.of_step hstep
    exact ⟨hs.step hc hstep, hcl.step hs.closes hc hstep⟩
  obtain ⟨hs, hcl⟩ := hinv
  intro hpc hdrop
  cases hc : h.state.closed with
  | false =>
    have hturns := hs.turns hc
    rw [Hub.turns, hpc] at hturns
    exact .inl ⟨rfl, by omega⟩
  | true =>
    refine .inr ⟨rfl, ?_, hcl.reader (.inl ⟨hc, hdrop⟩), fun k i h => ?_⟩
    · rcases hcl.writer hc with h | h | ⟨_, _, h⟩
      · exact h
      · exact absurd h hdrop
      · simp [h, LoopPc.callbacks] at hpc
    · refine (hcl.tried k i h).resolve_right fun hk => ?_
      unfold LoopPc.draining at hk
      split at hk <;> simp_all [LoopPc.callbacks]

def cancelledRun : List Action :=
  [.lookup, .loop false, .loop false, .recv .cancelled, .wakeCallback, .loop false, .loop false,
    .drain [1], .loop false, .loop false, .loop false]

theorem Hub.notStranded_cancelled : ∃ h log,
    (Hub.machine fun _ => none).Reach (fun h a => ¬ StrandingRaise h a) h log ∧ h.pc = .idle ∧
      h.state.closed = true ∧ h.NotStranded log := by
  have hquiet : ∀ a ∈ cancelledRun, ∀ h, ¬ StrandingRaise h a := by
    simp [cancelledRun, StrandingRaise]
  obtain ⟨h, log, hreach, heq⟩ := Transition.Machine.reach_replay (m := Hub.machine fun _ => none)
    cancelledRun (fun h _ => (h.pc, h.state.closed)) (fun a ha h => hquiet a ha h)
    (b := (.idle, true)) (by decide +kernel)
  obtain ⟨hpc, hclosed⟩ := Prod.mk.inj heq
  exact ⟨h, log, hreach, hpc, hclosed, Hub.notStranded hreach⟩

/-- One operation, a cancelled receive, and a `reader.close()` that raises:
the hub stays open, its operation live and nothing scheduled. -/
def strandedRun : List Action :=
  [.lookup, .loop false, .loop false, .recv .cancelled, .wakeCallback, .loop false, .loop true]

theorem Hub.stranded : ¬ ∀ h log, (Hub.machine fun _ => none).Reachable h log →
    h.NotStranded log := by
  intro hall
  obtain ⟨h, log, hreach, heq⟩ := Transition.Machine.reach_replay (m := Hub.machine fun _ => none)
    strandedRun (fun h _ => (h.pc, h.state.closed, h.armed + h.wakes.length + h.idles))
    (fun _ _ _ => trivial) (b := (.idle, false, 0)) (by decide +kernel)
  simp only [Prod.mk.injEq] at heq
  obtain ⟨hpc, hopen, hturns⟩ := heq
  rcases hall h log hreach (by simp [hpc, LoopPc.callbacks]) (by simp [hpc]) with
    ⟨-, hpos⟩ | ⟨hclosed, -⟩
  · omega
  · rw [hopen] at hclosed
    cases hclosed

end ProcessKit.Runtime
