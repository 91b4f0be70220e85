import ProcessKit.Runtime.Step

/-!
# One event loop and its hubs

A loop has one hub at a time: `start_bridge` takes the hub the weak-key map
holds for its loop and makes a new one when that one is closed. The tasks of
a closed hub live on beside the hubs that follow it. The loop has one thread,
so while it is inside one hub no other hub's callback can start.

Every hub of a reachable loop is a reachable hub, so what holds of one hub in
every run holds of every hub a loop has ever had.
-/

namespace ProcessKit.Runtime

/-- The hubs in the order they were made; the map holds the last. -/
structure EventLoop where
  hubs : List Hub

inductive LoopAction
  | create
  | hub (g : Nat) (action : Action)
  deriving DecidableEq

/-- The moves of the loop thread; the others are the socket's and the
runtime's. -/
def Action.loopThread : Action → Bool
  | .lookup | .futureCancel _ | .cancelCallback _ | .wakeCallback | .idleCallback | .loop _
  | .drain _ | .collect _ => true
  | .recv _ | .poll .. | .joinFailed .. | .store _ | .publish _ | .write .. => false

/-- The loop thread is inside no hub, hub `g` apart. -/
def EventLoop.freeFor (w : EventLoop) (g : Nat) : Bool :=
  w.hubs.zipIdx.all fun (h, i) => i = g || h.pc = .idle

def EventLoop.step (refuses : PyErr → Option PyErr) (w : EventLoop) :
    LoopAction → Option (EventLoop × List (Nat × Event))
  | .create =>
    if w.freeFor w.hubs.length ∧ w.hubs.getLast?.all fun h => h.isClosed then
      some ({ hubs := w.hubs ++ [.new] }, [])
    else none
  | .hub g action =>
    match w.hubs[g]? with
    | some h =>
      if (action.loopThread → w.freeFor g) ∧ (action = .lookup → g + 1 = w.hubs.length) then
        (h.step refuses action).map fun r => ({ hubs := w.hubs.set g r.1 }, r.2.map (g, ·))
      else none
    | none => none

def EventLoop.machine (refuses : PyErr → Option PyErr) :
    Transition.Machine EventLoop LoopAction (Nat × Event) where
  init := { hubs := [] }
  step := EventLoop.step refuses

/-- A condition on the moves inside a hub, for every hub of the loop. -/
def Meets (ok : Hub → Action → Prop) (w : EventLoop) : LoopAction → Prop
  | .create => True
  | .hub g action => ∀ h, w.hubs[g]? = some h → ok h action

theorem EventLoop.hubs_reach {ok : Hub → Action → Prop}
    (hr : (EventLoop.machine refuses).Reach (Meets ok) w log) :
    ∀ h ∈ w.hubs, ∃ log, (Hub.machine refuses).Reach ok h log := by
  induction hr with
  | init => simp [EventLoop.machine]
  | @step w log a w' evs _ hok hs ih =>
    intro h hh
    cases a with
    | create =>
      simp only [EventLoop.machine, EventLoop.step] at hs
      split at hs <;> cases hs
      rcases List.mem_append.mp hh with hold | hnew
      · exact ih h hold
      · obtain rfl := List.mem_singleton.mp hnew
        exact ⟨[], .init⟩
    | hub g action =>
      simp only [EventLoop.machine, EventLoop.step] at hs
      split at hs
      · rename_i old hg
        split at hs
        · obtain ⟨⟨next, own⟩, hstep, heq⟩ := Option.map_eq_some_iff.mp hs
          cases heq
          rcases List.mem_or_eq_of_mem_set hh with hold | rfl
          · exact ih h hold
          · obtain ⟨oldLog, hreach⟩ := ih old (List.mem_of_getElem? hg)
            exact ⟨_, hreach.step (hok old hg) hstep⟩
        · cases hs
      · cases hs

end ProcessKit.Runtime
