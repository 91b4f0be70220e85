import ProcessKit.Guards

/-!
# The lazy awaitable

A `PyLazyFuture` keeps its work until the first `__await__`, which hands it to
`start_bridge`. One call holds the awaitable's lock from its first look at the state
to its last write, so a run is a sequence of calls, each in a context of its own. What
the calls into Python answer is part of the context.

`start_bridge` fails at any of its steps up to the spawn. Its last two lines, the spawn
of the work and of the task that waits for it, do not fail.
-/

namespace ProcessKit.Runtime

open ProcessKit.Guards (Context guardAgainstFork)

/-- What the steps of `start_bridge` meet, in their order. The hub is in the state the
earlier operations of its loop left it in. -/
structure BridgeSetup where
  currentLocals : PyResult Unit
  createFuture : PyResult PyObject
  completionHub : PyResult CompletionHub
  addDoneCallback : PyResult Unit

inductive LazyEvent (ω : Type)
  | unregistered (id : UInt64) (hub : CompletionHub)
  | scheduled (work : ω) (future : PyObject)
  | delegated (future : PyObject)
  | answered (answer : PyResult PyObject)

def hubClosed : PyErr := ProcessError.newErr "the asyncio completion hub is closed"

/-- The future and its completion are made together and share their name here. -/
def startBridge (work : ω) (setup : BridgeSetup) : List (LazyEvent ω) × PyResult PyObject :=
  match setup.currentLocals with
  | .error err => ([], .error err)
  | .ok () =>
    match setup.createFuture with
    | .error err => ([], .error err)
    | .ok future =>
      match setup.completionHub with
      | .error err => ([], .error err)
      | .ok hub =>
        match hub.register future future with
        | (_, none) => ([], .error hubClosed)
        | (hub, some id) =>
          match setup.addDoneCallback with
          | .error err => ([.unregistered id (hub.cancel id)], .error err)
          | .ok () => ([.scheduled work future], .ok future)

inductive LazyState (ω : Type)
  | pending (work : ω)
  | started (inner : PyObject)
  | spent

/-- One call of `__await__`. `innerAwait` is the `__await__` of a future. -/
structure AwaitCall where
  ctx : Context
  setup : BridgeSetup
  innerAwait : PyObject → PyResult PyObject

def alreadyConsumed : PyErr := ProcessError.newErr "this async operation has already been consumed"

/-- `__await__`. The state is `Spent` from the take of the work to the last line. -/
def LazyState.await (state : LazyState ω) (call : AwaitCall) :
    LazyState ω × List (LazyEvent ω) × PyResult PyObject :=
  match guardAgainstFork call.ctx with
  | .error err => (state, [], .error err)
  | .ok () =>
    match state with
    | .started inner => (.started inner, [.delegated inner], call.innerAwait inner)
    | .spent => (.spent, [], .error alreadyConsumed)
    | .pending work =>
      match startBridge work call.setup with
      | (evs, .error err) => (.spent, evs, .error err)
      | (evs, .ok inner) =>
        match call.innerAwait inner with
        | .error err => (.spent, evs ++ [.delegated inner], .error err)
        | .ok awaitIter => (.started inner, evs ++ [.delegated inner], .ok awaitIter)

def lazyFuture (work : ω) : Transition.Machine (LazyState ω) AwaitCall (LazyEvent ω) where
  init := .pending work
  step state call :=
    let (state, evs, answer) := state.await call
    some (state, evs ++ [.answered answer])

-- ---------------------------------------------------------------------------
-- The calls
-- ---------------------------------------------------------------------------

def LazyEvent.schedule : LazyEvent ω → Option (ω × PyObject)
  | .scheduled work future => some (work, future)
  | .unregistered .. | .delegated _ | .answered _ => none

/-- The works handed to the runtime, each with its backing future. -/
def schedules (log : List (LazyEvent ω)) : List (ω × PyObject) := log.filterMap LazyEvent.schedule

@[simp] theorem schedules_nil : schedules ([] : List (LazyEvent ω)) = [] := rfl

@[simp] theorem schedules_append (log evs : List (LazyEvent ω)) :
    schedules (log ++ evs) = schedules log ++ schedules evs :=
  List.filterMap_append

@[simp] theorem schedules_cons (ev : LazyEvent ω) (evs : List (LazyEvent ω)) :
    schedules (ev :: evs) = ev.schedule.toList ++ schedules evs := by
  cases ev <;> rfl

/-- Every step of the setup succeeds, and `inner` is the future made. -/
def BridgeSetup.Succeeds (setup : BridgeSetup) (inner : PyObject) : Prop :=
  setup.currentLocals = .ok () ∧ setup.createFuture = .ok inner ∧
    (∃ hub, setup.completionHub = .ok hub ∧ hub.isClosed = false) ∧
    setup.addDoneCallback = .ok ()

/-- The first call that is let through: the future is made, and its own `__await__`
raises. -/
def AwaitCall.LosesWork (call : AwaitCall) (state : LazyState ω) : Prop :=
  (∃ work, state = .pending work) ∧ call.ctx.forked = false ∧
    ∃ inner err, call.setup.Succeeds inner ∧ call.innerAwait inner = .error err

theorem startBridge_cases (work : ω) (setup : BridgeSetup) :
    (∃ evs err, startBridge work setup = (evs, .error err) ∧ schedules evs = []) ∨
      ∃ inner, setup.Succeeds inner ∧
        startBridge work setup = ([.scheduled work inner], .ok inner) := by
  unfold startBridge
  cases hlocals : setup.currentLocals with
  | error err => exact .inl ⟨_, _, rfl, rfl⟩
  | ok =>
    cases hfuture : setup.createFuture with
    | error err => exact .inl ⟨_, _, rfl, rfl⟩
    | ok inner =>
      cases hhub : setup.completionHub with
      | error err => exact .inl ⟨_, _, rfl, rfl⟩
      | ok hub =>
        cases hclosed : hub.state.closed with
        | true =>
          simp only [CompletionHub.register, hclosed, if_true]
          exact .inl ⟨_, _, rfl, rfl⟩
        | false =>
          simp only [CompletionHub.register, hclosed, Bool.false_eq_true, if_false]
          cases hcallback : setup.addDoneCallback with
          | error err => exact .inl ⟨_, _, rfl, rfl⟩
          | ok => exact .inr ⟨inner, ⟨hlocals, hfuture, ⟨hub, hhub, hclosed⟩, hcallback⟩, rfl⟩

inductive LazyState.Step (call : AwaitCall) :
    LazyState ω → LazyState ω → List (LazyEvent ω) → PyResult PyObject → Prop
  | refused : call.ctx.forked = true → Step call s s [] (.error err)
  | again : call.ctx.forked = false →
      Step call (.started future) (.started future) [.delegated future] (call.innerAwait future)
  | consumed : call.ctx.forked = false → Step call .spent .spent [] (.error alreadyConsumed)
  | failed : call.ctx.forked = false → schedules evs = [] →
      Step call (.pending work) .spent evs (.error err)
  | lost : call.LosesWork (.pending work) →
      Step call (.pending work) .spent [.scheduled work future, .delegated future] (.error err)
  | started : call.ctx.forked = false →
      Step call (.pending work) (.started future) [.scheduled work future, .delegated future]
        (.ok it)

theorem guardAgainstFork_owner (h : ctx.forked = false) : guardAgainstFork ctx = .ok () := by
  simp [guardAgainstFork, h]

namespace LazyState

theorem await_step (state : LazyState ω) (call : AwaitCall) :
    Step call state (state.await call).1 (state.await call).2.1 (state.await call).2.2 := by
  cases hforked : call.ctx.forked with
  | true =>
    obtain ⟨err, herr⟩ := Guards.guardAgainstFork_forked hforked
    simp only [await, herr]
    exact .refused hforked
  | false =>
    simp only [await, guardAgainstFork_owner hforked]
    cases state with
    | started inner => exact .again hforked
    | spent => exact .consumed hforked
    | pending work =>
      obtain ⟨evs, err, hbridge, hnone⟩ | ⟨inner, hsetup, hbridge⟩ :=
        startBridge_cases work call.setup
      · simp only [hbridge]
        exact .failed hforked hnone
      · simp only [hbridge]
        cases hinner : call.innerAwait inner with
        | error err => exact .lost ⟨⟨work, rfl⟩, hforked, inner, err, hsetup, hinner⟩
        | ok it => exact .started hforked

/-- What was handed to the runtime by the time a state is reached. -/
def Accounts (work : ω) (log : List (LazyEvent ω)) : LazyState ω → Prop
  | .pending kept => kept = work ∧ schedules log = []
  | .started inner => schedules log = [(work, inner)]
  | .spent => (schedules log).length ≤ 1

theorem Step.accounts (hs : Step call s s' evs answer) (h : s.Accounts work log) :
    s'.Accounts work (log ++ (evs ++ [.answered answer])) := by
  cases hs with
  | refused =>
    cases s <;> simpa [Accounts, LazyEvent.schedule] using h
  | again => simpa [Accounts, LazyEvent.schedule] using h
  | consumed => simpa [Accounts, LazyEvent.schedule] using h
  | failed _ hnone => simp [Accounts, LazyEvent.schedule, hnone, h.2]
  | lost => simp [Accounts, LazyEvent.schedule, h.2]
  | started => simp [Accounts, LazyEvent.schedule, h.1, h.2]

theorem Step.spent (hs : Step call s s' evs answer) (hok : ¬ call.LosesWork s)
    (hacc : s.Accounts work log) (h : s = .spent → schedules log = []) (hspent : s' = .spent) :
    schedules (log ++ (evs ++ [.answered answer])) = [] := by
  cases hs with
  | refused | consumed => simpa [LazyEvent.schedule] using h hspent
  | again | started => cases hspent
  | failed _ hnone => simp [LazyEvent.schedule, hnone, hacc.2]
  | lost hlost => exact absurd hlost hok

end LazyState

-- ---------------------------------------------------------------------------
-- Every order of calls
-- ---------------------------------------------------------------------------

variable {work : ω} {s : LazyState ω} {log : List (LazyEvent ω)}
  {ok : LazyState ω → AwaitCall → Prop}

theorem reach_accounts (h : (lazyFuture work).Reach ok s log) : s.Accounts work log := by
  refine h.invariant (P := fun s log => s.Accounts work log) ⟨rfl, rfl⟩ ?_
  intro s log call s' evs hacc _ hs
  cases hs
  exact (s.await_step call).accounts hacc

/-- Whatever the calls meet, the work is handed over at most once. -/
theorem schedules_length_le (h : (lazyFuture work).Reach ok s log) :
    (schedules log).length ≤ 1 := by
  have hacc := reach_accounts h
  cases s with
  | pending => simp [hacc.2]
  | started => simp [show schedules log = _ from hacc]
  | spent => exact hacc

theorem reach_spent (h : (lazyFuture work).Reach (fun s call => ¬ call.LosesWork s) s log)
    (hspent : s = .spent) : schedules log = [] := by
  refine (h.invariant (P := fun s log => s.Accounts work log ∧ (s = .spent → schedules log = []))
    ⟨⟨rfl, rfl⟩, nofun⟩ ?_).2 hspent
  intro s log call s' evs ⟨hacc, hnone⟩ hok hs
  cases hs
  exact ⟨(s.await_step call).accounts hacc, (s.await_step call).spent hok hacc hnone⟩

/-- What holds of an awaitable between two calls. -/
structure Lifecycle (s : LazyState ω) (log : List (LazyEvent ω)) : Prop where
  once : (schedules log).length ≤ 1
  inert : ∀ work, s = .pending work → schedules log = []
  owned : ∀ work inner, (work, inner) ∈ schedules log → s = .started inner
  refused : ∀ call : AwaitCall, call.ctx.forked = true → ∃ err, s.await call = (s, [], .error err)
  delegates : ∀ inner, s = .started inner → ∀ call : AwaitCall, call.ctx.forked = false →
    s.await call = (.started inner, [.delegated inner], call.innerAwait inner)
  consumed : s = .spent → ∀ call : AwaitCall, call.ctx.forked = false →
    s.await call = (.spent, [], .error alreadyConsumed)
  failed : ∀ work, s = .pending work → ∀ (call : AwaitCall) err, call.ctx.forked = false →
    ¬ call.LosesWork s → (s.await call).2.2 = .error err →
    (s.await call).1 = .spent ∧ schedules (s.await call).2.1 = []

theorem LazyState.await_refused (s : LazyState ω) {call : AwaitCall} (h : call.ctx.forked = true) :
    ∃ err, s.await call = (s, [], .error err) := by
  obtain ⟨err, herr⟩ := Guards.guardAgainstFork_forked h
  exact ⟨err, by simp [LazyState.await, herr]⟩

theorem LazyState.await_failed {call : AwaitCall} (hforked : call.ctx.forked = false)
    (hok : ¬ call.LosesWork (.pending work))
    (h : ((LazyState.pending work).await call).2.2 = .error err) :
    ((LazyState.pending work).await call).1 = .spent ∧
      schedules ((LazyState.pending work).await call).2.1 = [] := by
  have hs := (LazyState.pending work).await_step call
  generalize (LazyState.pending work).await call = r at h hs
  obtain ⟨s', evs, answer⟩ := r
  cases hs with
  | refused hrefused => simp [hrefused] at hforked
  | failed _ hnone => exact ⟨rfl, hnone⟩
  | lost hlost => exact absurd hlost hok
  | started => cases h

/-- Where no future's first `__await__` raises, the awaitable keeps its contract. -/
theorem lazyFuture_lifecycle
    (h : (lazyFuture work).Reach (fun s call => ¬ call.LosesWork s) s log) :
    Lifecycle s log where
  once := schedules_length_le h
  inert kept hpending := by
    have hacc := reach_accounts h
    rw [hpending] at hacc
    exact hacc.2
  owned kept inner hmem := by
    have hacc := reach_accounts h
    cases hs : s with
    | pending => simp [(hs ▸ hacc).2] at hmem
    | started future =>
      rw [hs] at hacc
      have hacc : schedules log = [(work, future)] := hacc
      obtain ⟨rfl, rfl⟩ : kept = work ∧ inner = future := by simpa [hacc] using hmem
      rfl
    | spent => simp [reach_spent h hs] at hmem
  refused call := s.await_refused
  delegates inner hstarted call hforked := by
    rw [hstarted]
    simp [LazyState.await, guardAgainstFork_owner hforked]
  consumed hspent call hforked := by
    rw [hspent]
    simp [LazyState.await, guardAgainstFork_owner hforked]
  failed kept hpending call err hforked hok herr := by
    subst hpending
    exact LazyState.await_failed hforked hok herr

/-- A call in the owning process with a running loop, whose future's `__await__` answers
as given. -/
def ownerCall (answer : PyResult PyObject) : AwaitCall where
  ctx := ⟨false, true, 7, 7⟩
  setup := ⟨.ok (), .ok 1, .ok .new, .ok ()⟩
  innerAwait _ := answer

theorem lazyFuture_lifecycle_twice :
    ∃ log, (LazyState.started 1 : LazyState Unit).await (ownerCall (.ok 3)) =
        (.started 1, [.delegated 1], .ok 3) ∧
      Lifecycle (LazyState.started 1 : LazyState Unit) log := by
  have hkeeps : ∀ call ∈ [ownerCall (.ok 2)], ∀ s : LazyState Unit, ¬ call.LosesWork s := by
    rintro call hcall s ⟨_, _, inner, err, _, herr⟩
    obtain rfl := List.mem_singleton.mp hcall
    cases herr
  obtain ⟨s, log, hr, hs⟩ := Transition.Machine.reach_replay (m := lazyFuture ())
    [ownerCall (.ok 2)] (fun s _ => s) hkeeps rfl
  subst hs
  exact ⟨log, rfl, lazyFuture_lifecycle hr⟩

/-- The work is scheduled, the call raises, and nothing reaches the future any more. -/
theorem lost_future :
    ∃ log, (lazyFuture ()).Reachable .spent log ∧
      log = [.scheduled () 1, .delegated 1,
        .answered (.error ⟨"RuntimeError", "no iterator"⟩)] := by
  obtain ⟨s, log, hr, hs⟩ := Transition.Machine.reach_replay (m := lazyFuture ())
    [ownerCall (.error ⟨"RuntimeError", "no iterator"⟩)]
    (fun s log => (s, log)) (fun _ _ _ => trivial) rfl
  obtain ⟨rfl, hlog⟩ := Prod.mk.inj hs
  exact ⟨log, hr, hlog⟩

end ProcessKit.Runtime
