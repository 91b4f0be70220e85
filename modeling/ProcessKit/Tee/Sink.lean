import ProcessKit.Tee.Write
import ProcessKit.Transition
import Mathlib.Data.List.Forall2

/-!
# The tee as a sink

`PyWriterSink` dispatches each write and each flush to the blocking pool and holds
the handle while the caller polls. The caller polls a write to completion before it
starts anything else; a flush it may also leave, and the next operation then finds
that flush in flight. A `poll` action is one turn of the loop in `poll_write` or
`poll_flush`, and `ready` is whether the handle it polls is seen to be done, which
it need not be when it is. A task of the pool runs at any time.

The invariant `Tracked` says which task is in flight, and that every write that has
returned has its own finished task, in order.
-/

namespace ProcessKit.Tee

open ProcessKit.Runtime (PyErr)
open Transition (Machine)

/-- `writer.flush`, looked up and called. -/
inductive Flush
  | absent
  | failed (error : PyErr)
  | notCallable
  | called (answer : Answer Unit)
  deriving DecidableEq

def finalizingFlush : Refused := ⟨"tee flush skipped: Python interpreter is finalizing", none⟩

def callPyFlush (attached : Bool) (flush : Flush) : Joined :=
  if attached then
    match flush with
    | .called (.returned ()) => .ok (.ok ())
    | .called (.raised err) => .ok (.error (raisedError err))
    | .called (.panicked error) => .error error
    | .notCallable | .absent => .ok (.ok ())
    | .failed err => .ok (.error (raisedError err))
  else .ok (.error finalizingFlush)

inductive Job
  | write (data : List UInt8) (raw : Bool)
  | flush
  deriving DecidableEq

def Job.isWrite : Job → Bool
  | .write .. => true
  | .flush => false

structure Task where
  job : Job
  joined : Option Joined
  calls : List Call
  deriving DecidableEq

inductive Pending
  | write (handle len : Nat)
  | flush (handle : Nat)
  deriving DecidableEq

def Pending.handle : Pending → Nat
  | .write handle _ | .flush handle => handle

/-- The caller's operation. `poll_shutdown` is `poll_flush`. -/
inductive Op
  | write (chunk : List UInt8)
  | flush
  deriving DecidableEq

/-- A sink with the tasks it has spawned, oldest first; a handle is an index. -/
structure Sink where
  raw : Bool
  pending : Option Pending
  tasks : List Task
  op : Option Op

def Sink.new (raw : Bool) : Sink := ⟨raw, none, [], none⟩

inductive Event
  | called (call : Call)
  | returned (chunk : List UInt8) (result : Except String Nat)

-- ---------------------------------------------------------------------------
-- Polling
-- ---------------------------------------------------------------------------

def finishWrite (joined : Joined) (len : Nat) : Except String Nat :=
  match joined with
  | .ok (.ok ()) => .ok len
  | .ok (.error refused) => .error refused.message
  | .error joinErr => .error s!"tee writer task failed: {joinErr.text}"

def finishFlush (joined : Joined) : Except String Unit :=
  match joined with
  | .ok (.ok ()) => .ok ()
  | .ok (.error refused) => .error refused.message
  | .error joinErr => .error s!"tee flush task failed: {joinErr.text}"

inductive Turn (α : Type)
  | again
  | pending
  | ready (result : α)

namespace Sink

def spawnBlocking (s : Sink) (job : Job) : Nat × Sink :=
  (s.tasks.length, { s with tasks := s.tasks ++ [⟨job, none, []⟩] })

def pollHandle (s : Sink) (ready : Bool) (handle : Nat) : Option Joined :=
  if ready then s.tasks[handle]?.bind Task.joined else none

def pollWrite (s : Sink) (ready : Bool) (buf : List UInt8) : Sink × Turn (Except String Nat) :=
  match s.pending with
  | some (.write handle len) =>
    match s.pollHandle ready handle with
    | none => ({ s with pending := some (.write handle len) }, .pending)
    | some joined => ({ s with pending := none }, .ready (finishWrite joined len))
  | some (.flush handle) =>
    match s.pollHandle ready handle with
    | none => ({ s with pending := some (.flush handle) }, .pending)
    | some _ => ({ s with pending := none }, .again)
  | none =>
    if buf = [] then ({ s with pending := none }, .ready (.ok 0))
    else
      let (handle, s) := s.spawnBlocking (.write buf s.raw)
      ({ s with pending := some (.write handle buf.length) }, .again)

def pollFlush (s : Sink) (ready : Bool) : Sink × Turn (Except String Unit) :=
  match s.pending with
  | some (.write handle len) =>
    match s.pollHandle ready handle with
    | none => ({ s with pending := some (.write handle len) }, .pending)
    | some joined =>
      match finishWrite joined len with
      | .error err => ({ s with pending := none }, .ready (.error err))
      | .ok _ => ({ s with pending := none }, .again)
  | some (.flush handle) =>
    match s.pollHandle ready handle with
    | none => ({ s with pending := some (.flush handle) }, .pending)
    | some joined => ({ s with pending := none }, .ready (finishFlush joined))
  | none =>
    let (handle, s) := s.spawnBlocking .flush
    ({ s with pending := some (.flush handle) }, .again)

end Sink

-- ---------------------------------------------------------------------------
-- The machine
-- ---------------------------------------------------------------------------

/-- `leave` drops a flush that is not done. `abort` is a task that ends without
having called the writer, as when the runtime shuts down. -/
inductive Action
  | start (op : Op)
  | poll (ready : Bool)
  | leave
  | run (handle : Nat) (attached : Bool) (answers : Nat → Answer Returned) (flush : Flush)
  | abort (handle : Nat) (error : JoinError)

def Job.run (attached : Bool) (answers : Nat → Answer Returned) (flush : Flush) :
    Job → Joined × List Call
  | .write data raw => callPyWrite attached answers data raw
  | .flush => (callPyFlush attached flush, [])

namespace Sink

def conclude (emit : α → List Event) : Sink × Turn α → Sink × List Event
  | (s, .ready result) => ({ s with op := none }, emit result)
  | (s, .again) | (s, .pending) => (s, [])

def join (s : Sink) (handle : Nat) (ran : Job → Joined × List Call) : Option (Sink × List Event) :=
  match s.tasks[handle]? with
  | some ⟨job, none, _⟩ =>
    let task : Task := ⟨job, some (ran job).1, (ran job).2⟩
    some ({ s with tasks := s.tasks.set handle task }, (ran job).2.map .called)
  | _ => none

def step (s : Sink) : Action → Option (Sink × List Event)
  | .start op => if s.op.isNone then some ({ s with op := some op }, []) else none
  | .poll ready =>
    match s.op with
    | none => none
    | some (.write chunk) =>
      some (conclude (fun result => [.returned chunk result]) (s.pollWrite ready chunk))
    | some .flush => some (conclude (fun _ => []) (s.pollFlush ready))
  | .leave => if s.op = some .flush then some ({ s with op := none }, []) else none
  | .run handle attached answers flush => s.join handle (Job.run attached answers flush)
  | .abort handle error => s.join handle fun _ => (.error error, [])

def machine (raw : Bool) : Machine Sink Action Event where
  init := .new raw
  step := step

end Sink

-- ---------------------------------------------------------------------------
-- What a tee owes its caller
-- ---------------------------------------------------------------------------

def Event.call : Event → Option Call
  | .called call => some call
  | .returned .. => none

def Event.write : Event → Option (List UInt8 × Except String Nat)
  | .returned chunk result => if chunk = [] then none else some (chunk, result)
  | .called _ => none

def called (log : List Event) : List Call := log.filterMap Event.call

def writes (log : List Event) : List (List UInt8 × Except String Nat) := log.filterMap Event.write

/-- A task that is over, by what the writer was called with and answered. -/
structure Wrote (raw : Bool) (data : List UInt8) (joined : Joined) (calls : List Call) : Prop where
  fed : Fed (shown raw data) joined calls
  obeys : calls = [] ∧ joined ≠ .ok (.ok ()) ∨ Obeys joined calls
  unit : ∀ call ∈ calls, call.payload.isBytes = raw

theorem callPyWrite_wrote (attached : Bool) (answers : Nat → Answer Returned) (data : List UInt8)
    (raw : Bool) : Wrote raw data (callPyWrite attached answers data raw).1
      (callPyWrite attached answers data raw).2 :=
  ⟨callPyWrite_fed _ _ _ _, callPyWrite_obeys _ _ _ _, callPyWrite_isBytes _ _ _ _⟩

def Task.Sound (task : Task) : Prop :=
  match task.joined, task.job with
  | some joined, .write data raw => Wrote raw data joined task.calls
  | _, _ => task.calls = []

structure Delivered (raw : Bool) (write : List UInt8 × Except String Nat) (task : Task) : Prop where
  job : task.job = .write write.1 raw
  joined : ∃ joined, task.joined = some joined ∧ write.2 = finishWrite joined write.1.length ∧
    Wrote raw write.1 joined task.calls

-- ---------------------------------------------------------------------------
-- The steps
-- ---------------------------------------------------------------------------

def Sink.joinedOf (s : Sink) (handle : Nat) : Option Joined := s.tasks[handle]?.bind Task.joined

inductive Step (s : Sink) : Sink → List Event → Prop
  | start : s.op = none → Step s { s with op := some op } []
  | leave : s.op = some .flush → Step s { s with op := none } []
  | wait : Step s s []
  | empty : s.pending = none → s.op = some (.write []) →
      Step s { s with op := none } [.returned [] (.ok 0)]
  | dispatch : s.pending = none → s.op = some (.write chunk) → chunk ≠ [] →
      Step s { s with
        tasks := s.tasks ++ [⟨.write chunk s.raw, none, []⟩]
        pending := some (.write s.tasks.length chunk.length) } []
  | dispatchFlush : s.pending = none → s.op = some .flush →
      Step s { s with
        tasks := s.tasks ++ [⟨.flush, none, []⟩]
        pending := some (.flush s.tasks.length) } []
  | drain : s.pending = some p → s.joinedOf p.handle = some joined →
      (∀ handle len, p = .write handle len → s.op = some .flush) →
      Step s { s with pending := none } []
  | written : s.pending = some (.write handle len) → s.joinedOf handle = some joined →
      s.op = some (.write chunk) →
      Step s { s with pending := none, op := none } [.returned chunk (finishWrite joined len)]
  | flushed : s.pending = some p → s.joinedOf p.handle = some joined → s.op = some .flush →
      Step s { s with pending := none, op := none } []
  | join : s.tasks[handle]? = some ⟨job, none, old⟩ → Task.Sound ⟨job, some joined, calls⟩ →
      Step s { s with tasks := s.tasks.set handle ⟨job, some joined, calls⟩ } (calls.map .called)

theorem pollHandle_joined {s : Sink} (h : s.pollHandle ready handle = some joined) :
    s.joinedOf handle = some joined := by
  cases ready with
  | false => cases h
  | true => exact h

theorem Job.run_sound (job : Job) (attached : Bool) (answers : Nat → Answer Returned)
    (flush : Flush) :
    Task.Sound ⟨job, some (job.run attached answers flush).1, (job.run attached answers flush).2⟩ := by
  cases job with
  | write data raw => exact callPyWrite_wrote attached answers data raw
  | flush => rfl

theorem abort_sound (job : Job) (error : JoinError) :
    Task.Sound ⟨job, some (.error error), []⟩ := by
  cases job with
  | write data raw => exact ⟨.nil nofun, .inl ⟨rfl, nofun⟩, nofun⟩
  | flush => rfl

theorem Step.of_join {s : Sink} {ran : Job → Joined × List Call}
    (hsound : ∀ job, Task.Sound ⟨job, some (ran job).1, (ran job).2⟩)
    (h : s.join handle ran = some (s', evs)) : Step s s' evs := by
  unfold Sink.join at h
  split at h
  · rename_i job old htask
    cases h
    exact .join htask (hsound job)
  · cases h

theorem Sink.pending_eq {s : Sink} (h : s.pending = some p) : { s with pending := some p } = s := by
  rw [← h]

theorem Step.of_pollWrite {s : Sink} (ready : Bool) (hop : s.op = some (.write chunk)) :
    let polled := Sink.conclude (fun result => [.returned chunk result]) (s.pollWrite ready chunk)
    Step s polled.1 polled.2 := by
  intro polled
  unfold polled Sink.pollWrite
  split
  · rename_i handle len hpending
    split
    · rw [Sink.pending_eq hpending]
      exact .wait
    · rename_i joined hpoll
      exact .written hpending (pollHandle_joined hpoll) hop
  · rename_i handle hpending
    split
    · rw [Sink.pending_eq hpending]
      exact .wait
    · rename_i joined hpoll
      exact .drain hpending (pollHandle_joined hpoll) nofun
  · rename_i hpending
    split
    · rename_i hempty
      subst hempty
      have hsame : { s with pending := none } = s := by rw [← hpending]
      rw [hsame]
      exact .empty hpending hop
    · rename_i hmore
      exact .dispatch hpending hop hmore

theorem Step.of_pollFlush {s : Sink} (ready : Bool) (hop : s.op = some .flush) :
    let polled := Sink.conclude (fun _ => []) (s.pollFlush ready)
    Step s polled.1 polled.2 := by
  intro polled
  unfold polled Sink.pollFlush
  split
  · rename_i handle len hpending
    split
    · rw [Sink.pending_eq hpending]
      exact .wait
    · rename_i joined hpoll
      have hjoined := pollHandle_joined hpoll
      split
      · exact .flushed (p := .write handle len) hpending hjoined hop
      · exact .drain (p := .write handle len) hpending hjoined fun _ _ _ => hop
  · rename_i handle hpending
    split
    · rw [Sink.pending_eq hpending]
      exact .wait
    · rename_i joined hpoll
      exact .flushed hpending (pollHandle_joined hpoll) hop
  · rename_i hpending
    exact .dispatchFlush hpending hop

theorem Step.of_step {s : Sink} (h : s.step a = some (s', evs)) : Step s s' evs := by
  cases a with
  | start op =>
    obtain ⟨hop, hnext⟩ := Option.ite_none_right_eq_some.mp h
    cases hnext
    exact .start (Option.isNone_iff_eq_none.mp hop)
  | leave =>
    obtain ⟨hop, hnext⟩ := Option.ite_none_right_eq_some.mp h
    cases hnext
    exact .leave hop
  | run handle attached answers flush =>
    exact .of_join (fun job => job.run_sound attached answers flush) h
  | abort handle error => exact .of_join (fun job => abort_sound job error) h
  | poll ready =>
    simp only [Sink.step] at h
    split at h
    · cases h
    · rename_i chunk hop
      simpa only [Option.some.inj h] using Step.of_pollWrite ready hop
    · rename_i hop
      simpa only [Option.some.inj h] using Step.of_pollFlush ready hop

-- ---------------------------------------------------------------------------
-- The task in flight
-- ---------------------------------------------------------------------------

/-- Every write that has returned has its own task, in order. -/
def Matched (raw : Bool) (returned : List (List UInt8 × Except String Nat)) (tasks : List Task) :
    Prop :=
  List.Forall₂ (Delivered raw) returned (tasks.filter (·.job.isWrite))

/-- The task that `pending` holds the handle of. -/
def Pending.Holds (s : Sink) (task : Task) : Pending → Prop
  | .write _ len => ∃ chunk, chunk ≠ [] ∧ s.op = some (.write chunk) ∧
      task.job = .write chunk s.raw ∧ len = chunk.length
  | .flush _ => task.job = .flush

/-- At most one task is in flight: the last, and `pending` has its handle. -/
def Sink.Phase (s : Sink) (returned : List (List UInt8 × Except String Nat)) : Prop :=
  match s.pending with
  | none => (∀ task ∈ s.tasks, task.joined ≠ none) ∧ Matched s.raw returned s.tasks
  | some pending => ∃ before task, s.tasks = before ++ [task] ∧ pending.handle = before.length ∧
      (∀ task ∈ before, task.joined ≠ none) ∧ Matched s.raw returned before ∧
      pending.Holds s task

structure Tracked (raw : Bool) (s : Sink) (log : List Event) : Prop where
  mode : s.raw = raw
  sound : ∀ task ∈ s.tasks, task.Sound
  order : called log = s.tasks.flatMap Task.calls
  empty : ∀ result, .returned [] result ∈ log → result = .ok 0
  phase : s.Phase (writes log)

theorem Tracked.new (raw : Bool) : Tracked raw (.new raw) [] :=
  ⟨rfl, nofun, rfl, nofun, nofun, .nil⟩

theorem Matched.append_write {task : Task} (h : Matched raw returned tasks)
    (hd : Delivered raw write task) : Matched raw (returned ++ [write]) (tasks ++ [task]) := by
  have hwrite : task.job.isWrite = true := by rw [hd.job]; rfl
  simp only [Matched, List.filter_append, List.filter_cons, hwrite, List.filter_nil, if_true]
  exact List.rel_append h (.cons hd .nil)

theorem Matched.append_flush {task : Task} (h : Matched raw returned tasks)
    (hjob : task.job = .flush) : Matched raw returned (tasks ++ [task]) := by
  simpa [Matched, hjob, Job.isWrite] using h

/-- The handle that `pending` holds is that of the last task. -/
theorem joinedOf_last {s : Sink} (htasks : s.tasks = before ++ [task])
    (hhandle : handle = before.length) : s.joinedOf handle = task.joined := by
  simp [Sink.joinedOf, htasks, hhandle]

theorem called_append (log evs : List Event) : called (log ++ evs) = called log ++ called evs :=
  List.filterMap_append

theorem writes_append (log evs : List Event) : writes (log ++ evs) = writes log ++ writes evs :=
  List.filterMap_append

theorem called_map (calls : List Call) : called (calls.map .called) = calls := by
  simp [called, List.filterMap_map, Function.comp_def, Event.call]

theorem writes_map (calls : List Call) : writes (calls.map .called) = [] := by
  simp [writes, Event.write]

theorem called_returned (chunk : List UInt8) (result : Except String Nat) :
    called [.returned chunk result] = [] := rfl

theorem writes_returned (hmore : chunk ≠ []) (result : Except String Nat) :
    writes [.returned chunk result] = [(chunk, result)] := by
  simp [writes, Event.write, hmore]

theorem writes_empty (result : Except String Nat) : writes [.returned [] result] = [] := rfl

theorem Sink.Phase.turn {s : Sink} (h : s.Phase returned)
    (hop : ∀ chunk, s.op ≠ some (.write chunk)) (op : Option Op) :
    ({ s with op := op } : Sink).Phase returned := by
  unfold Phase at h ⊢
  cases hpending : s.pending with
  | none => simpa only [hpending] using h
  | some pending =>
    simp only [hpending] at h ⊢
    cases pending with
    | flush handle => exact h
    | write handle len =>
      obtain ⟨_, _, _, _, _, _, chunk, _, hchunk, _⟩ := h
      exact absurd hchunk (hop chunk)

theorem Sink.Phase.spawn {s : Sink} (h : s.Phase returned) (hpending : s.pending = none)
    {pending : Pending} (hhandle : pending.handle = s.tasks.length)
    (hholds : pending.Holds s ⟨job, none, []⟩) :
    ({ s with tasks := s.tasks ++ [⟨job, none, []⟩], pending := some pending } : Sink).Phase
      returned := by
  simp only [Phase, hpending] at h
  refine ⟨s.tasks, _, rfl, hhandle, h.1, h.2, ?_⟩
  cases pending with
  | write => exact hholds
  | flush => exact hholds

theorem Sink.Phase.settled {s : Sink} (h : s.Phase returned) (hpending : s.pending = some p)
    (hjoined : s.joinedOf p.handle = some joined) :
    ∃ before task, s.tasks = before ++ [task] ∧ task.joined = some joined ∧
      (∀ task ∈ s.tasks, task.joined ≠ none) ∧ Matched s.raw returned before ∧ p.Holds s task := by
  simp only [Phase, hpending] at h
  obtain ⟨before, task, htasks, hhandle, hbefore, hmatched, hholds⟩ := h
  have htask : task.joined = some joined := (joinedOf_last htasks hhandle).symm.trans hjoined
  refine ⟨before, task, htasks, htask, fun other hmem => ?_, hmatched, hholds⟩
  rw [htasks] at hmem
  rcases List.mem_append.mp hmem with hmem | hmem
  · exact hbefore other hmem
  · obtain rfl := List.mem_singleton.mp hmem
    simp [htask]

theorem Sink.Phase.drained {s : Sink} (h : s.Phase returned) (hpending : s.pending = some p)
    (hjoined : s.joinedOf p.handle = some joined)
    (howner : ∀ handle len, p = .write handle len → s.op = some .flush) (op : Option Op) :
    ({ s with pending := none, op := op } : Sink).Phase returned := by
  obtain ⟨before, task, htasks, -, hall, hmatched, hholds⟩ := h.settled hpending hjoined
  cases p with
  | flush handle =>
    refine ⟨hall, ?_⟩
    simpa only [htasks] using hmatched.append_flush hholds
  | write handle len =>
    obtain ⟨chunk, _, hop, _⟩ := hholds
    simp [howner handle len rfl] at hop

theorem Sink.Phase.join {s : Sink} (h : s.Phase returned)
    (htask : s.tasks[handle]? = some ⟨job, none, old⟩) :
    ∃ before, s.tasks = before ++ [⟨job, none, old⟩] ∧ (∀ joined calls,
      s.tasks.set handle ⟨job, joined, calls⟩ = before ++ [⟨job, joined, calls⟩] ∧
      ({ s with tasks := s.tasks.set handle ⟨job, joined, calls⟩ } : Sink).Phase returned) := by
  unfold Phase at h
  split at h
  · exact absurd rfl (h.1 _ (List.mem_of_getElem? htask))
  · rename_i pending hpending
    obtain ⟨before, task, htasks, hhandle, hbefore, hmatched, hholds⟩ := h
    rw [htasks] at htask
    obtain ⟨rfl, rfl⟩ : handle = before.length ∧ task = ⟨job, none, old⟩ := by
      rcases Nat.lt_or_ge handle before.length with hlt | hge
      · rw [List.getElem?_append_left hlt] at htask
        exact absurd rfl (hbefore _ (List.mem_of_getElem? htask))
      · rw [List.getElem?_append_right hge, List.getElem?_singleton] at htask
        obtain ⟨hindex, hlast⟩ := Option.ite_none_right_eq_some.mp htask
        exact ⟨by omega, Option.some.inj hlast⟩
    have hset : ∀ joined calls, s.tasks.set before.length ⟨job, joined, calls⟩ =
        before ++ [⟨job, joined, calls⟩] := by
      simp [htasks]
    refine ⟨before, htasks, fun joined calls => ⟨hset joined calls, ?_⟩⟩
    simp only [Phase, hpending]
    exact ⟨before, _, hset joined calls, hhandle, hbefore, hmatched, by
      cases pending <;> exact hholds⟩

theorem Tracked.step (h : Tracked raw s log) (hstep : Step s s' evs) :
    Tracked raw s' (log ++ evs) := by
  obtain ⟨hmode, hsound, horder, hempty, hphase⟩ := h
  have hreturned : (∀ result, .returned [] result ∈ evs → result = .ok 0) →
      ∀ result, .returned [] result ∈ log ++ evs → result = .ok 0 := by
    intro hevs result hmem
    rcases List.mem_append.mp hmem with hmem | hmem
    · exact hempty result hmem
    · exact hevs result hmem
  have hspawned : ∀ job, ∀ task ∈ s.tasks ++ [⟨job, none, []⟩], task.Sound := by
    intro job task hmem
    rcases List.mem_append.mp hmem with hmem | hmem
    · exact hsound task hmem
    · obtain rfl := List.mem_singleton.mp hmem
      rfl
  cases hstep with
  | start hop =>
    rw [List.append_nil]
    exact ⟨hmode, hsound, horder, hempty, hphase.turn (by simp [hop]) _⟩
  | leave hop =>
    rw [List.append_nil]
    exact ⟨hmode, hsound, horder, hempty, hphase.turn (by simp [hop]) _⟩
  | wait =>
    rw [List.append_nil]
    exact ⟨hmode, hsound, horder, hempty, hphase⟩
  | empty hpending hop =>
    refine ⟨hmode, hsound, ?_, hreturned (by simp), ?_⟩
    · rw [called_append, called_returned, List.append_nil]
      exact horder
    · rw [writes_append, writes_empty, List.append_nil]
      simpa only [Sink.Phase, hpending] using hphase
  | dispatch hpending hop hmore =>
    rw [List.append_nil]
    refine ⟨hmode, hspawned _, ?_, hempty, hphase.spawn hpending rfl ⟨_, hmore, hop, rfl, rfl⟩⟩
    simpa using horder
  | dispatchFlush hpending hop =>
    rw [List.append_nil]
    refine ⟨hmode, hspawned _, ?_, hempty, hphase.spawn hpending rfl rfl⟩
    simpa using horder
  | drain hpending hjoined howner =>
    rw [List.append_nil]
    exact ⟨hmode, hsound, horder, hempty, hphase.drained hpending hjoined howner s.op⟩
  | flushed hpending hjoined hop =>
    rw [List.append_nil]
    exact ⟨hmode, hsound, horder, hempty,
      hphase.drained hpending hjoined (fun _ _ _ => hop) none⟩
  | written hpending hjoined hop =>
    rename_i handle len joined chunk
    obtain ⟨before, task, htasks, htask, hall, hmatched, chunk', hmore, hchunk, hjob, rfl⟩ :=
      hphase.settled hpending hjoined
    obtain rfl : chunk = chunk' := by simpa [hop] using hchunk
    have hwrote : Wrote s.raw chunk joined task.calls := by
      simpa [Task.Sound, htask, hjob] using hsound task (by simp [htasks])
    refine ⟨hmode, hsound, ?_, hreturned fun result hmem => ?_, hall, ?_⟩
    · rw [called_append, called_returned, List.append_nil]
      exact horder
    · exact absurd (by simpa using hmem : [] = chunk ∧ _).1.symm hmore
    · rw [writes_append, writes_returned hmore]
      simpa only [htasks] using hmatched.append_write ⟨hjob, joined, htask, rfl, hwrote⟩
  | join htask hrun =>
    rename_i handle job joined calls old
    obtain ⟨before, htasks, hset⟩ := hphase.join htask
    obtain ⟨hset, hphase⟩ := hset (some joined) calls
    refine ⟨hmode, ?_, ?_, hreturned (by simp), ?_⟩
    · intro task hmem
      rw [hset] at hmem
      rcases List.mem_append.mp hmem with hmem | hmem
      · exact hsound task (by simp [htasks, hmem])
      · obtain rfl := List.mem_singleton.mp hmem
        exact hrun
    · have hold : old = [] := hsound ⟨job, none, old⟩ (by simp [htasks])
      simp only [hset, called_append, called_map, horder]
      simp [htasks, hold]
    · rw [writes_append, writes_map, List.append_nil]
      exact hphase

-- ---------------------------------------------------------------------------
-- Every chunk once
-- ---------------------------------------------------------------------------

/-- What a write of a chunk has come to when it returned `result`, by the task that
was spawned for it. -/
structure Handed (raw : Bool) (chunk : List UInt8) (result : Except String Nat) (task : Task) :
    Prop where
  job : task.job = .write chunk raw
  /-- A chunk is shown as it is, but for text that is not UTF-8. -/
  shows : raw = true ∨ (∃ text, chunk = encode text) → shown raw chunk = chunk
  all : result = .ok n → n = chunk.length ∧ pieces task.calls = shown raw chunk
  part : result = .error message → pieces task.calls <+: shown raw chunk
  /-- Each call is passed what is behind the pieces accepted before it. -/
  payload : ∀ before call after, task.calls = before ++ call :: after →
    shown raw chunk = pieces before ++ call.payload.encode
  /-- Bytes, or a text of whole characters. -/
  unit : ∀ call ∈ task.calls, call.payload.isBytes = raw
  /-- The first answer that is no valid count ends the write with an error. -/
  refused : ∀ before call after, task.calls = before ++ call :: after →
    call.answer.count call.payload.length = none → after = [] ∧ ∃ message, result = .error message

/-- Every chunk goes to the writer once, in the order of the writes. -/
structure DeliversOnce (s : Sink) (log : List Event) : Prop where
  matched : ∃ done inFlight, s.tasks.filter (·.job.isWrite) = done ++ inFlight ∧
    List.Forall₂ (fun write task => Handed s.raw write.1 write.2 task) (writes log) done ∧
    inFlight.length ≤ 1 ∧
    ∀ task ∈ inFlight, ∃ chunk, s.op = some (.write chunk) ∧ task.job = .write chunk s.raw
  order : called log = s.tasks.flatMap Task.calls
  alone : ∀ task ∈ s.tasks.dropLast, task.joined ≠ none
  empty : ∀ result, .returned [] result ∈ log → result = .ok 0

theorem finishWrite_ok (joined : Joined) (h : finishWrite joined len = .ok n) :
    joined = .ok (.ok ()) ∧ n = len := by
  unfold finishWrite at h
  split at h <;> cases h
  exact ⟨rfl, rfl⟩

theorem finishWrite_error (joined : Joined) (len : Nat) (h : joined ≠ .ok (.ok ())) :
    ∃ message, finishWrite joined len = .error message := by
  unfold finishWrite
  split
  · exact absurd rfl h
  · exact ⟨_, rfl⟩
  · exact ⟨_, rfl⟩

theorem Obeys.refused_last (h : Obeys joined calls) (heq : calls = before ++ call :: after)
    (hbad : call.answer.count call.payload.length = none) :
    after = [] ∧ joined ≠ .ok (.ok ()) := by
  induction h generalizing before with
  | done => simp at heq
  | refused _ hjoined =>
    refine ⟨?_, hjoined⟩
    cases before <;> simp_all
  | took hvalid _ ih =>
    cases before with
    | nil =>
      obtain ⟨rfl, -⟩ := List.cons.inj heq
      exact absurd hbad hvalid
    | cons first before => exact ih (List.cons.inj heq).2

theorem Delivered.handed (h : Delivered raw write task) : Handed raw write.1 write.2 task := by
  obtain ⟨hjob, joined, -, hresult, hwrote⟩ := h
  refine ⟨hjob, ?_, fun {n} hok => ?_, fun _ => hwrote.fed.handed, hwrote.fed.payload, hwrote.unit,
    ?_⟩
  · rintro (rfl | ⟨text, htext⟩)
    · rfl
    · rw [htext, shown_encode]
  · obtain ⟨hjoined, rfl⟩ := finishWrite_ok joined (hresult.symm.trans hok)
    exact ⟨rfl, hwrote.fed.complete hjoined⟩
  · intro before call after heq hbad
    rcases hwrote.obeys with ⟨hnone, -⟩ | hobeys
    · simp [hnone] at heq
    · obtain ⟨hlast, hjoined⟩ := hobeys.refused_last heq hbad
      rw [hresult]
      exact ⟨hlast, finishWrite_error joined _ hjoined⟩

theorem Pending.Holds.inFlight {p : Pending} (h : p.Holds s task) :
    ∀ other ∈ [task].filter (·.job.isWrite), ∃ chunk, s.op = some (.write chunk) ∧
      other.job = .write chunk s.raw := by
  intro other hmem
  obtain ⟨hlast, hwrite⟩ := List.mem_filter.mp hmem
  obtain rfl := List.mem_singleton.mp hlast
  cases p with
  | flush handle =>
    have hjob : other.job = .flush := h
    simp [hjob, Job.isWrite] at hwrite
  | write handle len =>
    obtain ⟨chunk, -, hop, hjob, -⟩ := h
    exact ⟨chunk, hop, hjob⟩

theorem Tracked.delivers_once (h : Tracked raw s log) : DeliversOnce s log := by
  have hphase := h.phase
  have hhanded : ∀ {tasks}, Matched s.raw (writes log) tasks →
      List.Forall₂ (fun write task => Handed s.raw write.1 write.2 task) (writes log)
        (tasks.filter (·.job.isWrite)) :=
    fun hmatched => hmatched.imp fun _ _ hdelivered => hdelivered.handed
  unfold Sink.Phase at hphase
  split at hphase
  · refine ⟨⟨_, [], (List.append_nil _).symm, hhanded hphase.2, by simp, nofun⟩, h.order,
      fun task hmem => ?_, h.empty⟩
    exact hphase.1 task (List.dropLast_subset _ hmem)
  · obtain ⟨before, task, htasks, -, hbefore, hmatched, hholds⟩ := hphase
    refine ⟨⟨_, [task].filter (·.job.isWrite), ?_, hhanded hmatched, ?_, hholds.inFlight⟩, h.order,
      fun other hmem => ?_, h.empty⟩
    · rw [htasks, List.filter_append]
    · exact List.length_filter_le _ _
    · exact hbefore other (by simpa [htasks] using hmem)

/-- `write()` decides how a chunk is cut, the caller when it polls. -/
theorem sink_delivers_once (raw : Bool) (h : (Sink.machine raw).Reachable s log) :
    DeliversOnce s log := by
  have ht : Tracked raw s log :=
    h.invariant (P := Tracked raw) (.new raw) fun s log a s' evs ht _ hstep =>
      ht.step (.of_step hstep)
  exact ht.delivers_once

/-- A flush that the caller left is in flight when it writes, and the writer takes
the chunk byte by byte. -/
def shortWritesRun : List Action :=
  [.start .flush, .poll true, .leave, .start (.write [104, 105]),
    .run 0 true (fun _ => .returned .other) .absent, .poll true, .poll true,
    .run 1 true (fun _ => .returned (.int 1)) .absent, .poll true]

theorem sink_delivers_once_short : ∃ s log, (Sink.machine true).Reachable s log ∧
    writes log = [([104, 105], .ok 2)] ∧ DeliversOnce s log := by
  obtain ⟨s, log, hr, hwrites⟩ := Transition.Machine.reach_replay (m := Sink.machine true)
    shortWritesRun (fun _ log => writes log) (fun _ _ _ => trivial) (b := [([104, 105], .ok 2)])
    (by decide +kernel)
  exact ⟨s, log, hr, hwrites, sink_delivers_once true hr⟩

end ProcessKit.Tee
