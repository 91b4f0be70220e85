import ProcessKit.Runtime.Loop
import ProcessKit.Runtime.Operation
import ProcessKit.Runtime.Turns

/-!
# No wakeup is lost

Beside its next turn on the loop (`Scheduled`), a hub whose callbacks' Python
calls succeed keeps count of the wakeups in flight (`Tokens`): the unread
bytes, the parties between setting `wake_outstanding` and their write, and
the wake callbacks that have yet to take the ready ids. While the writer lives
their number is what the flag says, so the flag is never set with nothing
coming.
-/

namespace ProcessKit.Runtime

/-- A wakeup the loop thread has in hand: a receive whose ready ids are yet
to be taken, or the flag `wake_if_idle` set and has not written for. -/
def LoopPc.tokens : LoopPc → Nat
  | .cancelWake | .wakeTake _ => 1
  | .wakeEnter received => if received = .cancelled then 0 else 1
  | _ => 0

/-- The tasks between `publish`'s locked section and its write. -/
def Hub.waking (h : Hub) : Nat := h.ops.countP (·.worker = .waking)

def Hub.received (h : Hub) : Nat := h.wakes.countP (· ≠ .cancelled)

def Hub.tokens (h : Hub) : Nat := h.unread + h.waking + h.received + h.pc.tokens

structure Tokens (h : Hub) : Prop where
  flag : h.writer = true → h.state.closed = false →
    h.tokens = if h.state.wakeOutstanding then 1 else 0
  le_one : h.writer = true → h.tokens ≤ 1
  ready : h.state.ready ≠ [] → h.state.wakeOutstanding = true
  closed : h.state.closed = true → h.state.wakeOutstanding = false

/-- No Python call of the wake and the idle callback raises, the receive
included: what may fail is `add_done_callback` in `start_bridge`, and the
write of the byte. -/
def Calm (h : Hub) : Action → Prop
  | .loop true => h.pc = .cancelWake ∨ ∃ op, h.pc = .attaching op
  | .recv received => received ≠ .error
  | _ => True

theorem Calm.not_stranding (hc : Calm h a) : ¬ StrandingRaise h a := by
  cases a with
  | loop raises =>
    cases raises with
    | false => exact id
    | true => rcases hc with hc | ⟨op, hc⟩ <;> simp [StrandingRaise, hc]
  | _ => exact id

-- ---------------------------------------------------------------------------
-- The wakeups in flight
-- ---------------------------------------------------------------------------

theorem countP_modify (p : α → Bool) {f : α → α} {l : List α} {k : Nat} (hk : l[k]? = some a) :
    (l.modify k f).countP p + (if p a then 1 else 0) = l.countP p + if p (f a) then 1 else 0 := by
  induction l generalizing k with
  | nil => simp at hk
  | cons b l ih =>
    cases k with
    | zero =>
      obtain rfl : b = a := by simpa using hk
      simp only [List.modify_zero_cons, List.countP_cons]
      omega
    | succ k =>
      have hl := ih (k := k) (by simpa using hk)
      simp only [List.modify_succ_cons, List.countP_cons]
      omega

theorem countP_modify_of_eq {p : α → Bool} {f : α → α} (hf : ∀ a, p (f a) = p a) (l : List α)
    (k : Nat) : (l.modify k f).countP p = l.countP p := by
  cases hk : l[k]? with
  | none => rw [List.modify_eq_self (by simpa using hk)]
  | some a =>
    have h := countP_modify p (f := f) hk
    rw [hf] at h
    omega

theorem completeEntry_waking (refuses : PyErr → Option PyErr) (ops : List Operation)
    (entry : HubEntry) :
    (completeEntry refuses ops entry).1.countP (·.worker = .waking) =
      ops.countP (·.worker = .waking) := by
  have h := congrArg (List.countP (· = WorkerPc.waking))
    (completeEntry_map refuses ops entry Operation.worker (fun _ => rfl) fun _ _ => rfl)
  simpa only [List.countP_map, Function.comp_def] using h

theorem waking_modify {ops : List Operation} (hk : ops[k]? = some o) (ho : o.worker ≠ .waking)
    (hf : (f o).worker ≠ .waking) :
    (ops.modify k f).countP (·.worker = .waking) = ops.countP (·.worker = .waking) := by
  simpa [ho, hf] using countP_modify (·.worker = .waking) (f := f) hk

theorem pollCancellable_waking {o : Operation} (ho : o.worker = .polling listening) :
    (pollCancellable o listening work).1.worker ≠ .waking := by
  unfold pollCancellable
  repeat' split
  all_goals simp [ho]

theorem Tokens.congr (hi : Tokens h) (hw : h'.writer = true → h.writer = true)
    (hc : h'.state.closed = h.state.closed)
    (hf : h'.state.wakeOutstanding = h.state.wakeOutstanding)
    (hr : h'.state.ready = h.state.ready) (ht : h'.writer = true → h'.tokens = h.tokens) :
    Tokens h' := by
  refine ⟨fun hw' hc' => ?_, fun hw' => ?_, ?_, ?_⟩
  · rw [ht hw', hi.flag (hw hw') (hc ▸ hc'), hf]
  · rw [ht hw']
    exact hi.le_one (hw hw')
  · rw [hr, hf]
    exact hi.ready
  · rw [hc, hf]
    exact hi.closed

theorem Tokens.init : Tokens Hub.new := ⟨fun _ _ => rfl, fun _ => Nat.zero_le 1, nofun, nofun⟩

theorem Tokens.step (hi : Tokens h) (ha : Attaching h) (hc : Calm h a)
    (hs : Step refuses h a h' evs) : Tokens h' := by
  cases hs with
  | lookup hpc | attachRaises hpc | scheduleRaises hpc | schedule hpc | armRaises hpc | arm hpc
  | closeReader hpc | closeDone hpc | idleCallback hpc | wakeCancelled hpc =>
    refine hi.congr id rfl rfl rfl fun _ => ?_
    simp [Hub.tokens, Hub.waking, Hub.received, hpc, LoopPc.tokens]
  | wakeResult hpc hne =>
    refine hi.congr id rfl rfl rfl fun _ => ?_
    simp [Hub.tokens, Hub.waking, Hub.received, hpc, LoopPc.tokens, hne]
  | delivered hpc | idleEnter hpc | closeFutureRaises hpc =>
    refine hi.congr id rfl rfl rfl fun _ => ?_
    split <;> simp [Hub.tokens, Hub.waking, Hub.received, hpc, LoopPc.tokens]
  | register hpc | registerClosed hpc =>
    refine hi.congr (by simp) (by simp) (by simp) (by simp) fun _ => ?_
    simp [Hub.tokens, Hub.waking, Hub.received, hpc, LoopPc.tokens, Operation.new]
  | unregister hpc | cancelRemove hpc =>
    refine hi.congr id rfl rfl rfl fun _ => ?_
    simp [Hub.tokens, Hub.waking, Hub.received, hpc, LoopPc.tokens]
  | futureCancel hpc | cancelCallback hpc | doneCallback hpc | cancelSend hpc | closeFuture hpc =>
    refine hi.congr id rfl rfl rfl fun _ => ?_
    simp [Hub.tokens, Hub.waking, Hub.received, hpc, LoopPc.tokens, countP_modify_of_eq]
  | deliver hpc =>
    refine hi.congr id rfl rfl rfl fun _ => ?_
    simp only [Hub.tokens, Hub.waking, Hub.received, hpc, LoopPc.tokens, completeEntry_waking]
  | attach hpc =>
    obtain ⟨o, ho, hu⟩ := ha _ hpc
    refine hi.congr id rfl rfl rfl fun _ => ?_
    simp [Hub.tokens, Hub.waking, Hub.received, hpc, LoopPc.tokens, waking_modify ho, hu]
  | poll hop hw =>
    refine hi.congr id rfl rfl rfl fun _ => ?_
    simp [Hub.tokens, Hub.waking, Hub.received, waking_modify hop, hw, pollCancellable_waking hw]
  | joinFailed hop hw | store hop hw | storeCancelled hop hw =>
    refine hi.congr id rfl rfl rfl fun _ => ?_
    simp [Hub.tokens, Hub.waking, Hub.received, waking_modify hop, hw]
  | wakeRaises hpc | closeReaderRaises hpc =>
    rcases hc with hc | ⟨op, hc⟩ <;> simp [hpc] at hc
  | recvByte _ hu =>
    refine hi.congr id rfl rfl rfl fun _ => ?_
    simp only [Hub.tokens, Hub.waking, Hub.received, List.countP_append, List.countP_singleton]
    simp only [ne_eq, reduceCtorEq, not_false_eq_true, decide_true, if_true]
    omega
  | recvEof _ _ hw =>
    refine hi.congr id rfl rfl rfl fun hw' => ?_
    rw [show h.writer = true from hw'] at hw
    cases hw
  | recvFails _ hr =>
    obtain rfl : _ = Received.cancelled := hr.resolve_left hc
    refine hi.congr id rfl rfl rfl fun _ => ?_
    simp [Hub.tokens, Hub.waking, Hub.received]
  | wakeCallback hpc hwakes =>
    refine hi.congr id rfl rfl rfl fun _ => ?_
    simp only [Hub.tokens, Hub.waking, Hub.received, hpc, hwakes, LoopPc.tokens, List.countP_cons]
    split
    · simp_all
    · simp_all
      omega
  | takeReady hpc =>
    have hle := hi.le_one
    simp only [Hub.tokens, Hub.waking, Hub.received, hpc, LoopPc.tokens] at hle
    refine ⟨fun hw _ => ?_, fun hw => ?_, by simp, by simp⟩ <;>
    · have := hle hw
      simp only [Hub.tokens, Hub.waking, Hub.received, LoopPc.tokens,
        CompletionHub.takeReady_wakeOutstanding, Bool.false_eq_true, if_false]
      omega
  | closeState hpc =>
    refine ⟨fun _ hcl => by simp at hcl, fun hw => ?_, by simp, by simp⟩
    have := hi.le_one hw
    simpa [Hub.tokens, Hub.waking, Hub.received, hpc, LoopPc.tokens] using this
  | collect hpc =>
    refine ⟨fun _ hcl => by simp at hcl, fun hw => ?_, by simp, by simp⟩
    have := hi.le_one hw
    simp only [Hub.tokens, Hub.waking, Hub.received, hpc, LoopPc.tokens, List.countP_nil] at this ⊢
    omega
  | closeWriter hpc | dropWriter hpc =>
    exact ⟨fun hw => by simp at hw, fun hw => by simp at hw, hi.ready, hi.closed⟩
  | cancelIdle hpc =>
    rcases h.wakeIfIdle_flag with ⟨hwake, hopen, hflag, hset⟩ | ⟨hwake, hkept⟩
    · have hzero : h.writer = true → h.tokens = 0 := fun hw => by simp [hi.flag hw hopen, hflag]
      simp only [Hub.tokens, Hub.waking, Hub.received, hpc, LoopPc.tokens] at hzero
      refine ⟨fun hw _ => ?_, fun hw => ?_, fun _ => by simp [hset],
        fun hc => by simp [hopen] at hc⟩ <;>
      · have := hzero (by simpa using hw)
        simp only [Hub.tokens, Hub.waking, Hub.received, hwake, hset, if_true, LoopPc.tokens]
        omega
    · refine hi.congr (by simp) (by simp) hkept (by simp) fun _ => ?_
      simp [Hub.tokens, Hub.waking, Hub.received, hpc, hwake, LoopPc.tokens]
  | cancelWake hpc =>
    refine hi.congr (fun hw => (h.writeByte_unread hw).1) (by simp) (by simp) (by simp) fun hw => ?_
    have hu := (h.writeByte_unread hw).2
    simp only [Hub.tokens, Hub.waking, Hub.received, hpc, hu, LoopPc.tokens, Hub.writeByte_ops,
      Hub.writeByte_wakes]
    omega
  | publish hop hw =>
    rename_i o
    cases hp : h.publishes o.id with
    | false =>
      refine hi.congr (by simp) (by simp) (by simp [h.publish_neg hp]) (by simp [h.publish_neg hp])
        fun _ => ?_
      simp [Hub.tokens, Hub.waking, Hub.received, waking_modify hop, hw, h.publish_neg hp]
    | true =>
      have hcount := countP_modify (·.worker = .waking) hop
        (f := fun p => { p with worker := if !h.state.wakeOutstanding then .waking else .returned })
      have hopen := (h.publishes_iff.mp hp).1
      have hflag := fun hw => hi.flag hw hopen
      simp only [Hub.tokens, Hub.waking, Hub.received] at hflag
      refine ⟨fun hw' _ => ?_, fun hw' => ?_, fun _ => by simp [h.publish_pos hp],
        fun hc => by simp [hopen] at hc⟩ <;>
      · have := hflag (by simpa using hw')
        simp only [Hub.tokens, Hub.waking, Hub.received, h.publish_pos hp, if_true, hw,
          Hub.modifyOp_ops, Hub.modifyOp_unread, Hub.modifyOp_wakes, Hub.modifyOp_pc] at hcount ⊢
        cases hset : h.state.wakeOutstanding <;>
          simp only [hset, Bool.not_true, Bool.not_false, Bool.false_eq_true, if_true, if_false,
            reduceCtorEq, decide_true, decide_false] at this hcount ⊢ <;> omega
  | write hop hw =>
    refine hi.congr (fun hw' => (Hub.writeByte_unread _ hw').1) (by simp) (by simp) (by simp)
      fun hw' => ?_
    have hcount := countP_modify (·.worker = .waking) hop
      (f := fun p => { p with worker := .returned })
    have hu := (Hub.writeByte_unread _ hw').2
    simp [hw] at hcount
    simp only [Hub.tokens, Hub.waking, Hub.received, hu, Hub.writeByte_ops, Hub.writeByte_wakes,
      Hub.writeByte_pc, Hub.modifyOp_ops, Hub.modifyOp_unread, Hub.modifyOp_wakes, Hub.modifyOp_pc]
    omega

-- ---------------------------------------------------------------------------
-- Every hub of a loop
-- ---------------------------------------------------------------------------

/-- Between the wakeup a party promised and the callback that takes the
ready ids. -/
def Hub.WakeComing (h : Hub) : Prop :=
  0 < h.unread ∨ (∃ o ∈ h.ops, o.worker = .waking) ∨ h.pc = .cancelWake ∨
    (∃ r ∈ h.wakes, r ≠ .cancelled) ∨ (∃ r, h.pc = .wakeEnter r ∧ r ≠ .cancelled) ∨
    (∃ ok, h.pc = .wakeTake ok) ∨ h.writer = false

theorem Hub.wakeComing_of_tokens {h : Hub} (ht : 0 < h.tokens) : h.WakeComing := by
  unfold Hub.tokens at ht
  by_cases hu : 0 < h.unread
  · exact .inl hu
  · by_cases hw : 0 < h.waking
    · obtain ⟨o, ho, hworker⟩ := List.countP_pos_iff.mp hw
      exact .inr (.inl ⟨o, ho, by simpa using hworker⟩)
    · by_cases hr : 0 < h.received
      · obtain ⟨r, hmem, hne⟩ := List.countP_pos_iff.mp hr
        exact .inr (.inr (.inr (.inl ⟨r, hmem, by simpa using hne⟩)))
      · have hpc : 0 < h.pc.tokens := by omega
        unfold LoopPc.tokens at hpc
        split at hpc
        · exact .inr (.inr (.inl ‹_›))
        · exact .inr (.inr (.inr (.inr (.inr (.inl ⟨_, ‹_›⟩)))))
        · refine .inr (.inr (.inr (.inr (.inl ⟨_, ‹_›, fun hc => ?_⟩))))
          simp [hc] at hpc
        · cases hpc

/-- The hub's side of "no wakeup is lost". -/
structure Hub.KeepsWakeups (h : Hub) : Prop where
  /-- An open hub has exactly one next turn, a running callback included. -/
  turn : h.state.closed = false → h.armed + h.wakes.length + h.idles + h.pc.callbacks = 1
  /-- A ready operation that nobody took out is about to be delivered. -/
  coming : (∃ i ∈ h.state.ready, i ∈ h.state.entries) → h.WakeComing
  /-- At most one wakeup is in flight, and on an open hub the flag says
  whether one is. -/
  tokens : h.writer = true → h.unread ≤ 1 ∧ h.tokens ≤ 1 ∧
    (h.state.closed = false → (h.state.wakeOutstanding = true ↔ h.tokens = 1))

theorem Hub.keepsWakeups_of (hs : Scheduled h) (ht : Tokens h) : h.KeepsWakeups where
  turn := hs.turns
  coming := by
    rintro ⟨i, hi, -⟩
    have hflag := ht.ready (List.ne_nil_of_mem hi)
    have hopen : h.state.closed = false := by
      cases hc : h.state.closed with
      | false => rfl
      | true => rw [ht.closed hc] at hflag; cases hflag
    cases hw : h.writer with
    | false => exact .inr (.inr (.inr (.inr (.inr (.inr hw)))))
    | true => exact Hub.wakeComing_of_tokens (by simp [ht.flag hw hopen, hflag])
  tokens hw := by
    have hle := ht.le_one hw
    refine ⟨by unfold Hub.tokens at hle; omega, hle, fun hopen => ?_⟩
    rw [ht.flag hw hopen]
    cases h.state.wakeOutstanding <;> simp

/-- In every run of a loop, whatever its tasks, the runtime and the socket
do, every hub the loop has ever had keeps its wakeups. -/
theorem EventLoop.keepsWakeups (hr : (EventLoop.machine refuses).Reach (Meets Calm) w log) :
    ∀ h ∈ w.hubs, h.KeepsWakeups := by
  intro h hh
  obtain ⟨hubLog, hreach⟩ := EventLoop.hubs_reach hr h hh
  have hinv : Scheduled h ∧ Attaching h ∧ Tokens h := by
    refine hreach.inv (P := fun h => Scheduled h ∧ Attaching h ∧ Tokens h)
      ⟨Scheduled.init, nofun, Tokens.init⟩ ?_
    rintro h a h' evs ⟨hs, ha, ht⟩ hc hstep
    have hstep := Step.of_step hstep
    exact ⟨hs.step hc.not_stranding hstep, ha.step hstep, ht.step ha hc hstep⟩
  exact Hub.keepsWakeups_of hinv.1 hinv.2.2

def publishedRun : List LoopAction :=
  .create :: [.lookup, .loop false, .loop false, .poll 0 (some (.ok ⟨.ok 7⟩)), .store 0,
    .publish 0].map (.hub 0)

theorem EventLoop.keepsWakeups_published :
    ∃ w log, (EventLoop.machine fun _ => none).Reach (Meets Calm) w log ∧
      ∃ h ∈ w.hubs, (∃ i ∈ h.state.ready, i ∈ h.state.entries) ∧ h.WakeComing := by
  have hcalm : ∀ a ∈ publishedRun, ∀ w, Meets Calm w a := by
    simp [publishedRun, Meets, Calm]
  have hreach : (EventLoop.machine fun _ => none).Reach (Meets Calm) _ _ :=
    Transition.Machine.reach_run publishedRun hcalm rfl
  have hready : ∃ i ∈ [1], i ∈ (∅ : AList fun _ : UInt64 => HubEntry).insert 1 ⟨0, 0⟩ := by decide
  have hkeeps := EventLoop.keepsWakeups hreach _ (List.mem_singleton_self _)
  exact ⟨_, _, hreach, _, List.mem_singleton_self _, hready, hkeeps.coming hready⟩

end ProcessKit.Runtime
