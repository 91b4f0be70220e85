import ProcessKit.Runtime.Hub
import ProcessKit.Shared
import ProcessKit.Transition
import Mathlib.Data.List.Induction

/-!
# Reconfiguring a scripted double

`ScriptedRunner` and `DryRunRunner` keep the crate's runner in a `Mutex<Arc<_>>`. A run verb or
an injection clones the `Arc` out from under the lock and drops its clone whenever it likes. A
builder takes the runner out of its `Arc`, which works while there is no clone, and has an
empty runner in the lock meanwhile.

Between any two steps of a thread the others may take theirs. A poisoned lock is taken all the
same (`PoisonError::into_inner`), so that a panic in a builder only lets go of the lock.
-/

namespace ProcessKit.Runner.Reconfigure

open ProcessKit.Runtime (PyErr PyResult PyObject ProcessError.newErr ValueError.newErr)
open Shared (Heap)
open Transition (Machine Justified)

abbrev PathBuf := String

abbrev PkReply := Nat

inductive Setting
  | on (argPrefix : List PathBuf) (reply : PkReply)
  | fallback (reply : PkReply)
  | when (predicate : PyObject) (reply : PkReply)
  | onSequence (argPrefix : List PathBuf) (replies : List PkReply)
  | onInvocation (callback : PyObject)
  deriving DecidableEq

def Setting.rule? : Setting → Option Setting
  | .fallback _ | .onInvocation _ => none
  | rule => some rule

def Setting.fallback? : Setting → Option PkReply
  | .fallback reply => some reply
  | _ => none

def Setting.callback? : Setting → Option PyObject
  | .onInvocation callback => some callback
  | _ => none

/-- The crate's runner. A builder consumes it, and `none` is a builder's panic; a run through
any clone leaves its record in it, which the builders carry over. Rules are added, and the
fallback and the callback of `on_invocation` have one place each. -/
structure PkDouble (ρ κ : Type) where
  new : ρ
  build : Setting → ρ → Option ρ
  record : κ → ρ → ρ
  rules : ρ → List Setting
  fallback : ρ → Option PkReply
  callback : ρ → Option PyObject
  commands : ρ → List κ
  rules_new : rules new = []
  fallback_new : fallback new = none
  callback_new : callback new = none
  commands_new : commands new = []
  rules_build : build setting runner = some built →
    rules built = rules runner ++ setting.rule?.toList
  fallback_build : build setting runner = some built →
    fallback built = setting.fallback?.or (fallback runner)
  callback_build : build setting runner = some built →
    callback built = setting.callback?.or (callback runner)
  commands_build : build setting runner = some built → commands built = commands runner
  panics : build setting runner = none → ∃ argPrefix, setting = .onSequence argPrefix []
  rules_record : rules (record command runner) = rules runner
  fallback_record : fallback (record command runner) = fallback runner
  callback_record : callback (record command runner) = callback runner
  commands_record : commands (record command runner) = commands runner ++ [command]

-- ---------------------------------------------------------------------------
-- The builder methods
-- ---------------------------------------------------------------------------

/-- A builder call from Python. A reply in a sequence is borrowed by the method itself, and the
borrow may fail. -/
inductive Call
  | on (argPrefix : List PathBuf) (reply : PkReply)
  | fallback (reply : PkReply)
  | when (predicate : PyObject) (reply : PkReply)
  | onSequence (argPrefix : List PathBuf) (replies : List (PyResult PkReply))
  | onInvocation (callback : PyObject)

/-- What a method does before it gets to `reconfigure`. -/
def Call.checked : Call → PyResult Setting
  | .on argPrefix reply => .ok (.on argPrefix reply)
  | .fallback reply => .ok (.fallback reply)
  | .when predicate reply => .ok (.when predicate reply)
  | .onSequence argPrefix replies =>
    if replies.isEmpty then .error (ValueError.newErr "on_sequence needs at least one reply")
    else (replies.mapM id).map (.onSequence argPrefix)
  | .onInvocation callback => .ok (.onInvocation callback)

structure Builder where
  call : Call
  setting : Setting
  checked : call.checked = .ok setting

def Call.builder (call : Call) : PyResult Builder :=
  match h : call.checked with
  | .error err => .error err
  | .ok setting => .ok ⟨call, setting, h⟩

inductive Double
  | scripted
  | dryRun
  deriving DecidableEq

def Double.offers : Double → Call → Bool
  | .scripted, .onInvocation _ => false
  | .scripted, _ => true
  | .dryRun, .onInvocation _ => true
  | .dryRun, _ => false

def Double.inFlight : Double → PyErr
  | .scripted =>
    ProcessError.newErr "cannot reconfigure a ScriptedRunner while a call is in flight"
  | .dryRun => ProcessError.newErr "cannot reconfigure a DryRunRunner while a call is in flight"

-- ---------------------------------------------------------------------------
-- The threads
-- ---------------------------------------------------------------------------

/-- What an `Arc` holds; the mark tells the runners that `reconfigure` puts in to keep the lock
full. -/
structure Inner (ρ : Type) where
  runner : ρ
  placeholder : Bool

inductive Phase (ρ : Type)
  | idle
  | awaitsSwap (builder : Builder)
  | locked (builder : Builder)
  | swapped (builder : Builder) (original : Nat)
  | unwrapped (builder : Builder) (runner : ρ)
  | refused (builder : Builder) (original : Nat)
  | awaitsClone
  | cloning
  | leaving

def Phase.inside : Phase ρ → Bool
  | .idle | .awaitsSwap _ | .awaitsClone => false
  | _ => true

/-- `cell` is the `Arc` in the lock, `handles` are the clones that are about. -/
structure State (τ ρ : Type) where
  heap : Heap (Inner ρ)
  cell : Nat
  handles : List Nat
  holder : Option τ
  phase : τ → Phase ρ

inductive Action (τ κ : Type)
  | configure (t : τ) (call : Call)
  | read (t : τ)
  | advance (t : τ)
  | clone (arc : Nat)
  | drop (arc : Nat)
  | record (arc : Nat) (command : κ)

inductive Event (τ κ ρ : Type)
  | configured (t : τ) (builder : Builder)
  | failed (t : τ) (call : Call) (err : PyErr)
  | panicked (t : τ)
  | obtained (t : τ) (inner : Inner ρ)
  | recorded (command : κ)

section
variable {τ κ ρ : Type} [DecidableEq τ]

def State.goto (s : State τ ρ) (t : τ) (phase : Phase ρ) : State τ ρ :=
  { s with phase := Function.update s.phase t phase }

def State.enter (s : State τ ρ) (t : τ) (phase : Phase ρ) :
    Option (State τ ρ × List (Event τ κ ρ)) :=
  if s.holder.isNone then some ({ s with holder := some t }.goto t phase, []) else none

def State.leave (s : State τ ρ) (t : τ) : State τ ρ := { s with holder := none }.goto t .idle

variable (crate : PkDouble ρ κ) (double : Double)

def State.advance (s : State τ ρ) (t : τ) : Option (State τ ρ × List (Event τ κ ρ)) :=
  match s.phase t with
  | .idle => none
  | .awaitsSwap builder => s.enter t (.locked builder)
  | .locked builder =>
    some ({ s with heap := s.heap.new ⟨crate.new, true⟩, cell := s.heap.fresh }.goto t
      (.swapped builder s.cell), [])
  | .swapped builder original =>
    match s.heap.tryUnwrap original with
    | some (inner, heap) => some ({ s with heap }.goto t (.unwrapped builder inner.runner), [])
    | none => some (s.goto t (.refused builder original), [])
  | .unwrapped builder runner =>
    match crate.build builder.setting runner with
    | some runner =>
      some ({ s with heap := (s.heap.new ⟨runner, false⟩).release s.cell
                     cell := s.heap.fresh }.goto t .leaving, [.configured t builder])
    | none => some (s.leave t, [.panicked t])
  | .refused builder original =>
    some ({ s with heap := s.heap.release s.cell, cell := original }.goto t .leaving,
      [.failed t builder.call double.inFlight])
  | .awaitsClone => s.enter t .cloning
  | .cloning =>
    match s.heap.get s.cell with
    | some inner =>
      some ({ s with heap := s.heap.clone s.cell, handles := s.cell :: s.handles }.goto t .leaving,
        [.obtained t inner])
    | none => none
  | .leaving => some (s.leave t, [])

def State.step (s : State τ ρ) : Action τ κ → Option (State τ ρ × List (Event τ κ ρ))
  | .configure t call =>
    match s.phase t with
    | .idle =>
      if double.offers call then
        match call.builder with
        | .error err => some (s, [.failed t call err])
        | .ok builder => some (s.goto t (.awaitsSwap builder), [])
      else none
    | _ => none
  | .read t =>
    match s.phase t with
    | .idle => some (s.goto t .awaitsClone, [])
    | _ => none
  | .advance t => s.advance crate double t
  | .clone arc =>
    if arc ∈ s.handles then
      some ({ s with heap := s.heap.clone arc, handles := arc :: s.handles }, [])
    else none
  | .drop arc =>
    if arc ∈ s.handles then
      some ({ s with heap := s.heap.release arc, handles := s.handles.erase arc }, [])
    else none
  | .record arc command =>
    if arc ∈ s.handles then
      let heap := s.heap.modify arc fun inner =>
        { inner with runner := crate.record command inner.runner }
      some ({ s with heap }, [.recorded command])
    else none

def machine : Machine (State τ ρ) (Action τ κ) (Event τ κ ρ) where
  init :=
    { heap := Heap.empty.new ⟨crate.new, false⟩
      cell := 0
      handles := []
      holder := none
      phase := fun _ => .idle }
  step := State.step crate double

end

-- ---------------------------------------------------------------------------
-- What a log says was done
-- ---------------------------------------------------------------------------

variable {τ κ ρ : Type}

def built (log : List (Event τ κ ρ)) : List Setting :=
  log.filterMap fun
    | .configured _ builder => some builder.setting
    | _ => none

def recorded (log : List (Event τ κ ρ)) : List κ :=
  log.filterMap fun
    | .recorded command => some command
    | _ => none

@[simp] theorem built_append (log evs : List (Event τ κ ρ)) :
    built (log ++ evs) = built log ++ built evs := List.filterMap_append

theorem mem_built {log : List (Event τ κ ρ)} (h : .configured t builder ∈ log) :
    builder.setting ∈ built log :=
  List.mem_filterMap.mpr ⟨_, h, rfl⟩

def Event.apply (crate : PkDouble ρ κ) (runner : ρ) : Event τ κ ρ → Option ρ
  | .configured _ builder => crate.build builder.setting runner
  | .recorded command => some (crate.record command runner)
  | .failed .. | .panicked _ | .obtained .. => some runner

def replay (crate : PkDouble ρ κ) (runner : ρ) (log : List (Event τ κ ρ)) : Option ρ :=
  log.foldlM (Event.apply crate) runner

theorem replay_append {crate : PkDouble ρ κ} {log evs : List (Event τ κ ρ)}
    (h : replay crate runner log = some made) (h' : replay crate made evs = some made') :
    replay crate runner (log ++ evs) = some made' := by
  rw [replay, List.foldlM_append]
  exact Option.bind_eq_some_iff.mpr ⟨made, h, h'⟩

/-- A runner with the rules of these builder calls, in their order, and with what came last
where there is one place only. -/
structure Configured (crate : PkDouble ρ κ) (log : List (Event τ κ ρ)) (runner : ρ) : Prop where
  replayed : replay crate crate.new log = some runner
  rules : crate.rules runner = (built log).filterMap Setting.rule?
  fallback : crate.fallback runner = (built log).reverse.findSome? Setting.fallback?
  callback : crate.callback runner = (built log).reverse.findSome? Setting.callback?
  commands : crate.commands runner = recorded log

theorem last_concat (f : Setting → Option β) (settings : List Setting) (setting : Setting) :
    (settings ++ [setting]).reverse.findSome? f =
      (f setting).or (settings.reverse.findSome? f) := by
  rw [List.reverse_concat, List.findSome?_cons]
  cases f setting <;> rfl

theorem Configured.of_replay {crate : PkDouble ρ κ} {log : List (Event τ κ ρ)}
    (h : replay crate crate.new log = some runner) : Configured crate log runner := by
  induction log using List.reverseRecOn generalizing runner with
  | nil =>
    obtain rfl := Option.some.inj h
    exact ⟨rfl, crate.rules_new, crate.fallback_new, crate.callback_new, crate.commands_new⟩
  | append_singleton log e ih =>
    have hsplit := h
    rw [replay, List.foldlM_append] at hsplit
    obtain ⟨before, hbefore, hlast⟩ := Option.bind_eq_some_iff.mp hsplit
    obtain ⟨-, hrules, hfallback, hcallback, hcommands⟩ := ih hbefore
    have hlast : e.apply crate before = some runner := by simpa using hlast
    cases e with
    | configured t builder =>
      have hbuilt : built (log ++ [(.configured t builder : Event τ κ ρ)]) =
          built log ++ [builder.setting] := built_append _ _
      refine ⟨h, ?_, ?_, ?_, ?_⟩
      · rw [crate.rules_build hlast, hrules, hbuilt, List.filterMap_append]
        cases hrule : builder.setting.rule? <;> simp [hrule]
      · rw [crate.fallback_build hlast, hfallback, hbuilt, last_concat]
      · rw [crate.callback_build hlast, hcallback, hbuilt, last_concat]
      · rw [crate.commands_build hlast, hcommands]
        simp [recorded]
    | recorded command =>
      obtain rfl := Option.some.inj hlast
      have hbuilt : built (log ++ [(.recorded command : Event τ κ ρ)]) = built log := by
        simp [built]
      refine ⟨h, ?_, ?_, ?_, ?_⟩
      · rw [crate.rules_record, hrules, hbuilt]
      · rw [crate.fallback_record, hfallback, hbuilt]
      · rw [crate.callback_record, hcallback, hbuilt]
      · rw [crate.commands_record, hcommands]
        simp [recorded]
    | failed t call err | panicked t | obtained t inner =>
      obtain rfl := Option.some.inj hlast
      refine ⟨h, ?_, ?_, ?_, ?_⟩ <;> simpa [built, recorded]

theorem checked_sequence (h : Call.checked call = .ok setting) :
    setting ≠ .onSequence argPrefix [] := by
  rintro rfl
  cases call with
  | onSequence given replies =>
    simp only [Call.checked] at h
    split at h
    · cases h
    · next hreplies =>
      cases replies with
      | nil => exact hreplies rfl
      | cons reply replies =>
        cases reply with
        | error err => cases h
        | ok reply =>
          cases hrest : replies.mapM id with
          | error err => simp [List.mapM_cons, hrest, bind, Except.bind, Except.map] at h
          | ok rest =>
            simp [List.mapM_cons, hrest, bind, Except.bind, pure, Except.pure, Except.map] at h
  | on | fallback | when | onInvocation => cases h

theorem PkDouble.build_checked (crate : PkDouble ρ κ) (builder : Builder) (runner : ρ) :
    ∃ made, crate.build builder.setting runner = some made := by
  cases hbuild : crate.build builder.setting runner with
  | some made => exact ⟨made, rfl⟩
  | none =>
    obtain ⟨argPrefix, hsetting⟩ := crate.panics hbuild
    exact absurd hsetting (checked_sequence builder.checked)

-- ---------------------------------------------------------------------------
-- The lock
-- ---------------------------------------------------------------------------

def Locked (s : State τ ρ) : Prop := ∀ t, (s.phase t).inside = true ↔ s.holder = some t

def State.mode (s : State τ ρ) : Phase ρ :=
  match s.holder with
  | some t => s.phase t
  | none => .idle

theorem mode_of_inside {s : State τ ρ} (h : Locked s) (hin : (s.phase t).inside = true) :
    s.mode = s.phase t := by
  rw [State.mode, (h t).mp hin]

section
variable [DecidableEq τ] {s : State τ ρ} {t : τ} {phase : Phase ρ}

theorem Locked.goto (h : Locked s) (hsame : phase.inside = (s.phase t).inside) :
    Locked (s.goto t phase) := by
  intro u
  by_cases hu : u = t
  · subst hu
    simpa [State.goto, hsame] using h u
  · simpa [State.goto, hu] using h u

theorem Locked.enter (h : Locked s) (hfree : s.holder = none) (hin : phase.inside = true) :
    Locked ({ s with holder := some t }.goto t phase) := by
  intro u
  by_cases hu : u = t
  · subst hu
    simp [State.goto, hin]
  · have hout := h u
    simp [State.goto, hu, Ne.symm hu, hfree] at hout ⊢
    exact hout

theorem Locked.leave (h : Locked s) (hin : (s.phase t).inside = true) : Locked (s.leave t) := by
  intro u
  by_cases hu : u = t
  · subst hu
    simp [State.leave, State.goto, Phase.inside]
  · have hout := h u
    rw [(h t).mp hin] at hout
    simp [State.leave, State.goto, hu, Ne.symm hu] at hout ⊢
    exact hout

theorem mode_goto_inside (h : Locked s) (hin : (s.phase t).inside = true) :
    (s.goto t phase).mode = phase := by
  simp [State.mode, State.goto, (h t).mp hin]

theorem mode_goto_outside (h : Locked s) (hout : (s.phase t).inside = false) :
    (s.goto t phase).mode = s.mode := by
  cases hholder : s.holder with
  | none => simp [State.mode, State.goto, hholder]
  | some u =>
    have hne : u ≠ t := by
      rintro rfl
      exact absurd ((h u).mpr hholder) (by simp [hout])
    simp [State.mode, State.goto, hholder, hne]

end

-- ---------------------------------------------------------------------------
-- Where the runner is
-- ---------------------------------------------------------------------------

/-- An `Arc` of the runner itself: one reference is the double's, the others are the clones. -/
structure Held (heap : Heap (Inner ρ)) (handles : List Nat) (arc : Nat) (runner : ρ) : Prop where
  counted : heap.Counted arc (handles.length + 1) ⟨runner, false⟩
  clones : ∀ handle ∈ handles, handle = arc

/-- The runner is in the lock, in the `Arc` a builder took from it, or with a builder. -/
def Placed (heap : Heap (Inner ρ)) (cell : Nat) (handles : List Nat) (runner : ρ) :
    Phase ρ → Prop
  | .swapped _ original | .refused _ original =>
    Held heap handles original runner ∧ cell ≠ original
  | .unwrapped _ moved => moved = runner ∧ handles = []
  | .idle | .awaitsSwap _ | .locked _ | .awaitsClone | .cloning | .leaving =>
    Held heap handles cell runner

section
variable {heap : Heap (Inner ρ)} {handles : List Nat} {arc cell : Nat} {runner : ρ}

theorem Held.clone (h : Held heap handles arc runner) :
    Held (heap.clone arc) (arc :: handles) arc runner := by
  refine ⟨h.counted.clone, ?_⟩
  intro handle hmem
  rcases List.mem_cons.mp hmem with rfl | hmem
  · rfl
  · exact h.clones handle hmem

theorem Held.drop (h : Held heap handles arc runner) (hmem : arc ∈ handles) :
    Held (heap.release arc) (handles.erase arc) arc runner := by
  have hlength : handles.length = (handles.erase arc).length + 1 := by
    have hpos := List.length_pos_of_mem hmem
    rw [List.length_erase_of_mem hmem]
    omega
  constructor
  · have hcounted := h.counted
    rw [hlength] at hcounted
    exact hcounted.release
  · intro handle hhandle
    exact h.clones handle (List.mem_of_mem_erase hhandle)

theorem Held.record (h : Held heap handles arc runner) (f : ρ → ρ) :
    Held (heap.modify arc fun inner => { inner with runner := f inner.runner }) handles arc
      (f runner) :=
  ⟨h.counted.modify _, h.clones⟩

theorem Placed.through {heap' : Heap (Inner ρ)} {handles' : List Nat} {runner' : ρ}
    (h : Placed heap cell handles runner phase) (hmem : arc ∈ handles)
    (hheld : Held heap handles arc runner → Held heap' handles' arc runner') :
    Placed heap' cell handles' runner' phase := by
  cases phase with
  | swapped builder original =>
    obtain ⟨hplaced, hcell⟩ := h
    obtain rfl := hplaced.clones arc hmem
    exact ⟨hheld hplaced, hcell⟩
  | refused builder original =>
    obtain ⟨hplaced, hcell⟩ := h
    obtain rfl := hplaced.clones arc hmem
    exact ⟨hheld hplaced, hcell⟩
  | unwrapped builder moved =>
    obtain ⟨-, hnone⟩ := h
    rw [hnone] at hmem
    cases hmem
  | idle | awaitsSwap | locked | awaitsClone | cloning | leaving =>
    have hplaced : Held heap handles cell runner := h
    obtain rfl := hplaced.clones arc hmem
    exact hheld hplaced

end

-- ---------------------------------------------------------------------------
-- Every state
-- ---------------------------------------------------------------------------

structure Sound (crate : PkDouble ρ κ) (s : State τ ρ) (log : List (Event τ κ ρ)) : Prop where
  locked : Locked s
  cellOld : s.cell < s.heap.fresh
  placed : ∃ runner, replay crate crate.new log = some runner ∧
    Placed s.heap s.cell s.handles runner s.mode

section
variable {crate : PkDouble ρ κ} {double : Double} {s s' : State τ ρ}
  {log evs : List (Event τ κ ρ)}

theorem Sound.next (h : Sound crate s log) (hlocked : Locked s')
    (hcell : s'.cell < s'.heap.fresh)
    (hplaced : ∀ runner, Placed s.heap s.cell s.handles runner s.mode →
      ∃ runner', replay crate runner evs = some runner' ∧
        Placed s'.heap s'.cell s'.handles runner' s'.mode) : Sound crate s' (log ++ evs) := by
  obtain ⟨runner, hreplay, hrunner⟩ := h.placed
  obtain ⟨runner', hreplay', hrunner'⟩ := hplaced runner hrunner
  exact ⟨hlocked, hcell, runner', replay_append hreplay hreplay', hrunner'⟩

theorem Sound.same (h : Sound crate s log) (hlocked : Locked s') (hcell : s'.cell < s'.heap.fresh)
    (hsilent : ∀ runner, replay crate runner evs = some runner)
    (hplaced : ∀ runner, Placed s.heap s.cell s.handles runner s.mode →
      Placed s'.heap s'.cell s'.handles runner s'.mode) : Sound crate s' (log ++ evs) :=
  h.next hlocked hcell fun runner hrunner => ⟨runner, hsilent runner, hplaced runner hrunner⟩

/-- The runner of the double, wherever it is just now. -/
def State.current (s : State τ ρ) : Option ρ :=
  match s.mode with
  | .swapped _ original | .refused _ original => (s.heap.get original).map Inner.runner
  | .unwrapped _ runner => some runner
  | _ => (s.heap.get s.cell).map Inner.runner

theorem Sound.current (h : Sound crate s log) :
    ∃ runner, s.current = some runner ∧ replay crate crate.new log = some runner := by
  obtain ⟨runner, hreplay, hrunner⟩ := h.placed
  refine ⟨runner, ?_, hreplay⟩
  rw [State.current]
  cases hmode : s.mode with
  | swapped | refused =>
    rw [hmode] at hrunner
    simp [hrunner.1.counted.get_eq]
  | unwrapped =>
    rw [hmode] at hrunner
    simp [hrunner.1]
  | idle | awaitsSwap | locked | awaitsClone | cloning | leaving =>
    rw [hmode] at hrunner
    have hheld : Held s.heap s.handles s.cell runner := hrunner
    simp [hheld.counted.get_eq]

-- ---------------------------------------------------------------------------
-- What a step reports
-- ---------------------------------------------------------------------------

/-- What may come after this log: a clone of the runner as it is then, and no panic. -/
def Snapshot (crate : PkDouble ρ κ) (before : List (Event τ κ ρ)) : Event τ κ ρ → Prop
  | .obtained _ inner =>
    inner.placeholder = false ∧ replay crate crate.new before = some inner.runner
  | .panicked _ => False
  | .configured .. | .failed .. | .recorded _ => True

def Emits (crate : PkDouble ρ κ) (log evs : List (Event τ κ ρ)) : Prop :=
  evs = [] ∨ ∃ e, evs = [e] ∧ Snapshot crate log e

theorem Emits.justified (h : Emits crate log evs) (hlog : Justified (Snapshot crate) log) :
    Justified (Snapshot crate) (log ++ evs) := by
  rcases h with rfl | ⟨e, rfl, he⟩
  · rwa [List.append_nil]
  · exact hlog.snoc he

-- ---------------------------------------------------------------------------
-- One step
-- ---------------------------------------------------------------------------

variable [DecidableEq τ]

theorem Sound.within {heap : Heap (Inner ρ)} {cell : Nat} {handles : List Nat} {old new : Phase ρ}
    (h : Sound crate s log) (hphase : s.phase t = old) (hold : old.inside = true)
    (hnew : new.inside = true) (hcell : cell < heap.fresh)
    (hplaced : ∀ runner, Placed s.heap s.cell s.handles runner old →
      ∃ runner', replay crate runner evs = some runner' ∧
        Placed heap cell handles runner' new) :
    Sound crate ({ s with heap, cell, handles }.goto t new) (log ++ evs) := by
  have hin : (s.phase t).inside = true := by rw [hphase, hold]
  have hlocked : Locked { s with heap, cell, handles } := h.locked
  refine h.next (hlocked.goto (hnew.trans hin.symm)) hcell ?_
  rw [mode_goto_inside hlocked hin, mode_of_inside h.locked hin, hphase]
  exact hplaced

theorem Sound.moves {heap : Heap (Inner ρ)} {cell : Nat} {handles : List Nat} {old new : Phase ρ}
    (h : Sound crate s log) (hphase : s.phase t = old) (hold : old.inside = true)
    (hnew : new.inside = true) (hcell : cell < heap.fresh)
    (hsilent : ∀ runner, replay crate runner evs = some runner)
    (hplaced : ∀ runner, Placed s.heap s.cell s.handles runner old →
      Placed heap cell handles runner new) :
    Sound crate ({ s with heap, cell, handles }.goto t new) (log ++ evs) :=
  h.within hphase hold hnew hcell fun runner hrunner =>
    ⟨runner, hsilent runner, hplaced runner hrunner⟩

theorem Sound.enter (h : Sound crate s log) (phase : Phase ρ) (hin : phase.inside = true)
    (hidle : ∀ runner, Placed s.heap s.cell s.handles runner .idle →
      Placed s.heap s.cell s.handles runner phase)
    (hstep : s.enter t phase = some (s', evs)) :
    Sound crate s' (log ++ evs) ∧ Emits crate log evs := by
  rw [State.enter] at hstep
  split at hstep
  · next hfree =>
    have hfree : s.holder = none := by simpa using hfree
    obtain ⟨rfl, rfl⟩ := Prod.mk.inj (Option.some.inj hstep)
    refine ⟨?_, .inl rfl⟩
    refine h.same (h.locked.enter hfree hin) h.cellOld (fun _ => rfl) fun runner hrunner => ?_
    have hmode : ({ s with holder := some t }.goto t phase).mode = phase := by
      simp [State.mode, State.goto]
    rw [hmode]
    exact hidle runner (by simpa [State.mode, hfree] using hrunner)
  · cases hstep

theorem Sound.outside (h : Sound crate s log) (hphase : s.phase t = .idle) (phase : Phase ρ)
    (hout : phase.inside = false) : Sound crate (s.goto t phase) log := by
  have hidle : (s.phase t).inside = false := by rw [hphase]; rfl
  rw [← List.append_nil log]
  refine h.same (h.locked.goto (hout.trans hidle.symm)) h.cellOld (fun _ => rfl) fun runner hrunner => ?_
  rw [mode_goto_outside h.locked hidle]
  exact hrunner

theorem Sound.leave (h : Sound crate s log) (hphase : s.phase t = .leaving) :
    Sound crate (s.leave t) log := by
  have hin : (s.phase t).inside = true := by rw [hphase]; rfl
  rw [← List.append_nil log]
  refine h.same (h.locked.leave hin) h.cellOld (fun _ => rfl) fun runner hrunner => ?_
  rw [mode_of_inside h.locked hin, hphase] at hrunner
  exact hrunner

theorem Sound.advance (h : Sound crate s log)
    (hstep : s.advance crate double t = some (s', evs)) :
    Sound crate s' (log ++ evs) ∧ Emits crate log evs := by
  rw [State.advance] at hstep
  cases hphase : s.phase t with
  | idle => simp [hphase] at hstep
  | awaitsSwap builder =>
    simp only [hphase] at hstep
    exact h.enter (.locked builder) rfl (fun _ hrunner => hrunner) hstep
  | awaitsClone =>
    simp only [hphase] at hstep
    exact h.enter .cloning rfl (fun _ hrunner => hrunner) hstep
  | leaving =>
    simp only [hphase, Option.some.injEq, Prod.mk.injEq] at hstep
    obtain ⟨rfl, rfl⟩ := hstep
    rw [List.append_nil]
    exact ⟨h.leave hphase, .inl rfl⟩
  | locked builder =>
    simp only [hphase, Option.some.injEq, Prod.mk.injEq] at hstep
    obtain ⟨rfl, rfl⟩ := hstep
    refine ⟨?_, .inl rfl⟩
    refine h.moves hphase rfl rfl (Nat.lt_succ_self _) (fun _ => rfl) ?_
    intro runner hrunner
    have hheld : Held s.heap s.handles s.cell runner := hrunner
    exact ⟨⟨hheld.counted.new_other _, hheld.clones⟩, Nat.ne_of_gt h.cellOld⟩
  | swapped builder original =>
    simp only [hphase] at hstep
    split at hstep
    · next inner heap hunwrap =>
      obtain ⟨rfl, rfl⟩ := Prod.mk.inj (Option.some.inj hstep)
      refine ⟨?_, .inl rfl⟩
      have hcell : s.cell < heap.fresh := (Heap.fresh_tryUnwrap hunwrap) ▸ h.cellOld
      refine h.moves hphase rfl rfl hcell (fun _ => rfl) ?_
      rintro runner ⟨hheld, -⟩
      obtain ⟨hone, rfl⟩ := hheld.counted.of_tryUnwrap hunwrap
      exact ⟨rfl, List.eq_nil_of_length_eq_zero (Nat.succ.inj hone)⟩
    · next hunwrap =>
      obtain ⟨rfl, rfl⟩ := Prod.mk.inj (Option.some.inj hstep)
      exact ⟨h.moves hphase rfl rfl h.cellOld (fun _ => rfl) fun _ hrunner => hrunner, .inl rfl⟩
  | unwrapped builder runner =>
    simp only [hphase] at hstep
    obtain ⟨made, hmade⟩ := crate.build_checked builder runner
    rw [hmade] at hstep
    obtain ⟨rfl, rfl⟩ := Prod.mk.inj (Option.some.inj hstep)
    refine ⟨?_, .inr ⟨_, rfl, trivial⟩⟩
    refine h.within hphase rfl rfl (Nat.lt_succ_self _) ?_
    rintro _ ⟨rfl, hnone⟩
    refine ⟨made, ?_, ?_⟩
    · simpa [replay, Event.apply] using hmade
    · have hnew : (s.heap.new ⟨made, false⟩).Counted s.heap.fresh 1 ⟨made, false⟩ := .new
      rw [hnone]
      exact ⟨hnew.release_other (Nat.ne_of_lt h.cellOld), nofun⟩
  | refused builder original =>
    simp only [hphase] at hstep
    obtain ⟨rfl, rfl⟩ := Prod.mk.inj (Option.some.inj hstep)
    refine ⟨?_, .inr ⟨_, rfl, trivial⟩⟩
    obtain ⟨runner, -, hrunner⟩ := h.placed
    have hin : (s.phase t).inside = true := by rw [hphase]; rfl
    rw [mode_of_inside h.locked hin, hphase] at hrunner
    refine h.moves hphase rfl rfl hrunner.1.counted.old (fun _ => rfl) ?_
    rintro runner ⟨hheld, hcell⟩
    exact ⟨hheld.counted.release_other hcell, hheld.clones⟩
  | cloning =>
    simp only [hphase] at hstep
    split at hstep
    · next inner hinner =>
      obtain ⟨rfl, rfl⟩ := Prod.mk.inj (Option.some.inj hstep)
      constructor
      · refine h.moves hphase rfl rfl h.cellOld (fun _ => rfl) ?_
        intro runner hrunner
        exact Held.clone hrunner
      · refine .inr ⟨_, rfl, ?_⟩
        obtain ⟨runner, hreplay, hrunner⟩ := h.placed
        have hin : (s.phase t).inside = true := by rw [hphase]; rfl
        rw [mode_of_inside h.locked hin, hphase] at hrunner
        have hheld : Held s.heap s.handles s.cell runner := hrunner
        obtain rfl := Option.some.inj (hinner.symm.trans hheld.counted.get_eq)
        exact ⟨rfl, hreplay⟩
    · cases hstep

theorem Sound.step (h : Sound crate s log) (hstep : s.step crate double a = some (s', evs)) :
    Sound crate s' (log ++ evs) ∧ Emits crate log evs := by
  cases a with
  | advance t => exact h.advance hstep
  | configure t call =>
    simp only [State.step] at hstep
    split at hstep
    · next hphase =>
      split at hstep
      · split at hstep
        · obtain ⟨rfl, rfl⟩ := Prod.mk.inj (Option.some.inj hstep)
          exact ⟨h.same h.locked h.cellOld (fun _ => rfl) fun _ hrunner => hrunner,
            .inr ⟨_, rfl, trivial⟩⟩
        · next builder _ =>
          obtain ⟨rfl, rfl⟩ := Prod.mk.inj (Option.some.inj hstep)
          rw [List.append_nil]
          exact ⟨h.outside hphase (.awaitsSwap builder) rfl, .inl rfl⟩
      · cases hstep
    · cases hstep
  | read t =>
    simp only [State.step] at hstep
    split at hstep
    · next hphase =>
      obtain ⟨rfl, rfl⟩ := Prod.mk.inj (Option.some.inj hstep)
      rw [List.append_nil]
      exact ⟨h.outside hphase .awaitsClone rfl, .inl rfl⟩
    · cases hstep
  | clone arc =>
    simp only [State.step] at hstep
    split at hstep
    · next hmem =>
      obtain ⟨rfl, rfl⟩ := Prod.mk.inj (Option.some.inj hstep)
      exact ⟨h.same h.locked h.cellOld (fun _ => rfl) fun _ hrunner => hrunner.through hmem Held.clone,
        .inl rfl⟩
    · cases hstep
  | drop arc =>
    simp only [State.step] at hstep
    split at hstep
    · next hmem =>
      obtain ⟨rfl, rfl⟩ := Prod.mk.inj (Option.some.inj hstep)
      exact ⟨h.same h.locked h.cellOld (fun _ => rfl) fun _ hrunner =>
        hrunner.through hmem fun hheld => hheld.drop hmem, .inl rfl⟩
    · cases hstep
  | record arc command =>
    simp only [State.step] at hstep
    split at hstep
    · next hmem =>
      obtain ⟨rfl, rfl⟩ := Prod.mk.inj (Option.some.inj hstep)
      refine ⟨?_, .inr ⟨_, rfl, trivial⟩⟩
      refine h.next h.locked h.cellOld fun runner hrunner =>
        ⟨crate.record command runner, rfl, ?_⟩
      exact hrunner.through hmem fun hheld => hheld.record _
    · cases hstep

-- ---------------------------------------------------------------------------
-- Every run
-- ---------------------------------------------------------------------------

theorem sound_init : Sound crate (machine (τ := τ) (κ := κ) crate double).init [] := by
  refine ⟨?_, Nat.lt_succ_self _, crate.new, rfl, ?_⟩
  · intro t
    simp [machine, Phase.inside]
  · exact ⟨.new, nofun⟩

theorem reachable_sound (h : (machine crate double).Reachable s log) :
    Sound crate s log ∧ Justified (Snapshot crate) log := by
  refine h.invariant (P := fun s log => Sound crate s log ∧ Justified (Snapshot crate) log)
    ⟨sound_init, .nil⟩ ?_
  intro s log a s' evs ⟨hsound, hlog⟩ _ hstep
  obtain ⟨hnext, hemits⟩ := hsound.step hstep
  exact ⟨hnext, hemits.justified hlog⟩

/-- Whatever the threads do, and between any two of their steps, the double has one runner:
with the settings of the calls that succeeded, and with every command run through it. A clone
is of that runner as it was when the clone was taken, so it misses no setting made before it. A
step changes the runner by what it reports and by nothing else. -/
theorem reconfigure_atomic (h : (machine crate double).Reachable s log) :
    (∃ runner, s.current = some runner ∧ Configured crate log runner) ∧
    (∀ before t inner after, log = before ++ .obtained t inner :: after →
      inner.placeholder = false ∧ Configured crate before inner.runner ∧
        ∀ u builder rule, .configured u builder ∈ before → builder.setting.rule? = some rule →
          rule ∈ crate.rules inner.runner) ∧
    (∀ t, .panicked t ∉ log) ∧
    ∀ a s' evs, (machine crate double).step s a = some (s', evs) →
      ∃ runner runner', s.current = some runner ∧ s'.current = some runner' ∧
        replay crate runner evs = some runner' := by
  obtain ⟨hsound, hjustified⟩ := reachable_sound h
  refine ⟨?_, ?_, ?_, ?_⟩
  · obtain ⟨runner, hcurrent, hreplay⟩ := hsound.current
    exact ⟨runner, hcurrent, .of_replay hreplay⟩
  · intro before t inner after hlog
    obtain ⟨hreal, hreplay⟩ := hjustified _ _ _ hlog
    have hconfigured := Configured.of_replay hreplay
    refine ⟨hreal, hconfigured, fun u builder rule hbuilder hrule => ?_⟩
    rw [hconfigured.rules]
    exact List.mem_filterMap.mpr ⟨_, mem_built hbuilder, hrule⟩
  · intro t hpanicked
    obtain ⟨before, after, hlog⟩ := List.append_of_mem hpanicked
    exact hjustified _ _ _ hlog
  · intro a s' evs hstep
    obtain ⟨runner, hcurrent, hreplay⟩ := hsound.current
    obtain ⟨runner', hcurrent', hreplay'⟩ := (hsound.step hstep).1.current
    refine ⟨runner, runner', hcurrent, hcurrent', ?_⟩
    rw [replay, List.foldlM_append] at hreplay'
    obtain ⟨between, hbetween, hafter⟩ := Option.bind_eq_some_iff.mp hreplay'
    obtain rfl := Option.some.inj (hreplay.symm.trans hbetween)
    exact hafter

end

structure PlainDouble where
  rules : List Setting
  fallback : Option PkReply
  callback : Option PyObject
  commands : List String
  deriving DecidableEq

def plainDouble : PkDouble PlainDouble String where
  new := ⟨[], none, none, []⟩
  build
    | .onSequence _ [], _ => none
    | setting, runner =>
      some { runner with
        rules := runner.rules ++ setting.rule?.toList
        fallback := setting.fallback?.or runner.fallback
        callback := setting.callback?.or runner.callback }
  record command runner := { runner with commands := runner.commands ++ [command] }
  rules := PlainDouble.rules
  fallback := PlainDouble.fallback
  callback := PlainDouble.callback
  commands := PlainDouble.commands
  rules_new := rfl
  fallback_new := rfl
  callback_new := rfl
  commands_new := rfl
  rules_build := by
    intro setting runner built h
    split at h <;> cases h
    rfl
  fallback_build := by
    intro setting runner built h
    split at h <;> cases h
    rfl
  callback_build := by
    intro setting runner built h
    split at h <;> cases h
    rfl
  commands_build := by
    intro setting runner built h
    split at h <;> cases h
    rfl
  panics := by
    intro setting runner h
    split at h
    · exact ⟨_, rfl⟩
    · cases h
  rules_record := rfl
  fallback_record := rfl
  callback_record := rfl
  commands_record := rfl

/-- A builder that comes while a run is on is refused, and accepted once the run is over. A
second fallback takes the place of the first. -/
def contended : List (Action Bool String) :=
  [.configure true (.fallback 1), .advance true, .advance true, .advance true, .advance true,
    .advance true, .read false, .advance false, .configure true (.on ["git"] 2), .advance false,
    .advance false, .advance true, .record 2 "git status", .advance true, .advance true,
    .advance true, .advance true, .drop 2, .configure true (.fallback 3), .advance true,
    .advance true, .advance true, .advance true, .advance true]

theorem reconfigure_contended :
    ∃ s log, (machine plainDouble .scripted).Reachable (s : State Bool _) log ∧
      s.current = some ⟨[], some 3, none, ["git status"]⟩ := by
  obtain ⟨s, log, h, heq⟩ := Machine.reach_replay (m := machine plainDouble .scripted) contended
    (fun _ log => (built log, recorded log)) (fun _ _ _ => trivial)
    (b := ([.fallback 1, .fallback 3], ["git status"])) (by decide +kernel)
  obtain ⟨hbuilt, hrecorded⟩ := Prod.mk.inj heq
  obtain ⟨runner, hcurrent, -, hrules, hfallback, hcallback, hcommands⟩ :=
    (reconfigure_atomic h).1
  rw [hbuilt] at hrules hfallback hcallback
  rw [hrecorded] at hcommands
  refine ⟨s, log, h, hcurrent.trans (congrArg some ?_)⟩
  obtain ⟨rules, fallback, callback, commands⟩ := runner
  obtain rfl : rules = [] := hrules
  obtain rfl : fallback = some 3 := hfallback
  obtain rfl : callback = none := hcallback
  obtain rfl : commands = ["git status"] := hcommands
  rfl

end ProcessKit.Runner.Reconfigure
