import ProcessKit.Runtime.Hub

/-!
# A client's environment resolvers

The crate's resolver hook returns a plain string, so a `default_env_fn` callback
that fails parks its error in a slot of its thread, and `build_command` reads the
slot once the crate has run the resolvers. A resolver may build commands itself,
on the same thread and through the same slot; each build brackets the slot.

`Build.answer` is a build where errors are values and there is no slot.
`buildCommand_eq` says that the bracketed slot comes to the same.
-/

namespace ProcessKit.Client

open ProcessKit.Runtime (PyErr PyResult)

/-- `RESOLVER_ERROR` of one thread. -/
abbrev ResolverError := Option PyErr

/-- What the defaults put into a command's environment. -/
abbrev Command := List (String × String)

structure ResolverErrorScope where
  outer : Option PyErr

namespace ResolverErrorScope

def enter (slot : ResolverError) : ResolverErrorScope × ResolverError := (⟨slot⟩, none)

def takeError (_ : ResolverErrorScope) (slot : ResolverError) : Option PyErr × ResolverError :=
  (slot, none)

def drop (scope : ResolverErrorScope) (_ : ResolverError) : ResolverError := scope.outer

end ResolverErrorScope

mutual
/-- What a callback does: it ends with what `call0` and `extract` give, or it
builds a command first and goes on by what the build gave it. -/
inductive Callback
  | done (result : PyResult String)
  | build (build : Build) (next : PyResult Command → Callback)
/-- The resolvers that the crate runs for one build, in their order. A resolver
that is not attached finds the interpreter going away. -/
inductive Build
  | nil
  | cons (key : String) (attached : Bool) (callback : Callback) (rest : Build)
end

-- ---------------------------------------------------------------------------
-- The code
-- ---------------------------------------------------------------------------

def park (err : PyErr) (slot : ResolverError) : ResolverError :=
  if slot.isNone then some err else slot

def makeEnvResolver (attached : Bool) (call : ResolverError → PyResult String × ResolverError)
    (slot : ResolverError) : String × ResolverError :=
  if attached then
    match call slot with
    | (.ok resolved, slot) => (resolved, slot)
    | (.error err, slot) => ("", park err slot)
  else ("", slot)

/-- `build_command` around the crate's build. -/
def bracket (build : ResolverError → Command × ResolverError) (slot : ResolverError) :
    PyResult Command × ResolverError :=
  let (scope, slot) := ResolverErrorScope.enter slot
  let (command, slot) := build slot
  let (error, slot) := scope.takeError slot
  let answer := match error with
    | some err => .error err
    | none => .ok command
  (answer, scope.drop slot)

mutual
def Callback.call : Callback → ResolverError → PyResult String × ResolverError
  | .done result, slot => (result, slot)
  | .build build next, slot =>
    let built := bracket (fun slot => build.command slot) slot
    (next built.1).call built.2
def Build.command : Build → ResolverError → Command × ResolverError
  | .nil, slot => ([], slot)
  | .cons key attached callback rest, slot =>
    let resolved := makeEnvResolver attached (fun slot => callback.call slot) slot
    let command := rest.command resolved.2
    ((key, resolved.1) :: command.1, command.2)
end

def buildCommand (build : Build) : ResolverError → PyResult Command × ResolverError :=
  bracket build.command

/-- What the calls of a build's own resolvers give, each from the slot it finds. -/
def Build.calls : Build → ResolverError → List (PyResult String)
  | .nil, _ => []
  | .cons _ attached callback rest, slot =>
    (if attached then [(callback.call slot).1] else []) ++
      rest.calls (makeEnvResolver attached callback.call slot).2

-- ---------------------------------------------------------------------------
-- A build without the slot
-- ---------------------------------------------------------------------------

def failure : PyResult α → Option PyErr
  | .error err => some err
  | .ok _ => none

def resolvedTo : PyResult String → String
  | .ok resolved => resolved
  | .error _ => ""

def answerOf (failed : Option PyErr) (command : Command) : PyResult Command :=
  match failed with
  | some err => .error err
  | none => .ok command

mutual
def Callback.result : Callback → PyResult String
  | .done result => result
  | .build build next => (next (answerOf build.failed build.env)).result
def Build.failed : Build → Option PyErr
  | .nil => none
  | .cons _ attached callback rest =>
    (if attached then failure callback.result else none).or rest.failed
def Build.env : Build → Command
  | .nil => []
  | .cons key attached callback rest =>
    (key, if attached then resolvedTo callback.result else "") :: rest.env
end

def Build.answer (b : Build) : PyResult Command := answerOf b.failed b.env

-- ---------------------------------------------------------------------------
-- The slot comes to the same
-- ---------------------------------------------------------------------------

theorem park_eq (err : PyErr) (slot : ResolverError) : park err slot = slot.or (some err) := by
  cases slot <;> rfl

theorem makeEnvResolver_eq (attached : Bool)
    {call : ResolverError → PyResult String × ResolverError} {slot : ResolverError}
    (h : call slot = (result, slot)) :
    makeEnvResolver attached call slot =
      (if attached then resolvedTo result else "",
        slot.or (if attached then failure result else none)) := by
  cases attached with
  | false => simp [makeEnvResolver]
  | true => cases result <;> simp [makeEnvResolver, h, resolvedTo, failure, park_eq]

theorem bracket_eq {build : ResolverError → Command × ResolverError}
    (h : build none = (command, failed)) (slot : ResolverError) :
    bracket build slot = (answerOf failed command, slot) := by
  cases failed <;>
    simp [bracket, ResolverErrorScope.enter, ResolverErrorScope.takeError, ResolverErrorScope.drop,
      h, answerOf]

mutual
theorem Callback.call_eq : (cb : Callback) → ∀ slot, cb.call slot = (cb.result, slot)
  | .done _, _ => rfl
  | .build build next, slot => by
    have hbuild : build.command none = (build.env, build.failed) := build.command_eq none
    rw [Callback.call, bracket_eq hbuild slot, (next _).call_eq slot, Callback.result]
theorem Build.command_eq : (b : Build) → ∀ slot, b.command slot = (b.env, slot.or b.failed)
  | .nil, slot => by simp [Build.command, Build.env, Build.failed]
  | .cons key attached callback rest, slot => by
    have hcall := callback.call_eq slot
    rw [Build.command, makeEnvResolver_eq attached hcall, rest.command_eq, Build.env, Build.failed,
      Option.or_assoc]
end

theorem buildCommand_eq (b : Build) (slot : ResolverError) :
    buildCommand b slot = (b.answer, slot) := bracket_eq (b.command_eq none) slot

theorem Build.calls_failed (b : Build) (slot : ResolverError) :
    (b.calls slot).findSome? failure = b.failed := by
  induction b using Build.rec (motive_1 := fun _ => True) generalizing slot with
  | done => trivial
  | build => trivial
  | nil => rfl
  | cons key attached callback rest _ ih =>
    cases attached with
    | false => simpa [Build.calls, Build.failed] using ih _
    | true =>
      cases hfail : failure callback.result <;>
        simp [Build.calls, Build.failed, callback.call_eq, ih, hfail]

theorem exists_failure (calls : List (PyResult String)) :
    (∃ e, calls.findSome? failure = some e) ↔ ∃ e, .error e ∈ calls := by
  rw [← Option.isSome_iff_exists, List.findSome?_isSome_iff]
  constructor
  · rintro ⟨call, hmem, hfail⟩
    cases call with
    | error e => exact ⟨e, hmem⟩
    | ok => cases hfail
  · rintro ⟨e, hmem⟩
    exact ⟨_, hmem, rfl⟩

-- ---------------------------------------------------------------------------
-- Failing closed
-- ---------------------------------------------------------------------------

/-- A build that finds `slot` fails as its own resolvers do, and by nothing else
on the thread. A nested build is one that finds what the outer builds parked. -/
structure FailsClosed (b : Build) (slot : ResolverError) : Prop where
  fails : (∃ e, (buildCommand b slot).1 = .error e) ↔
    ∃ e, .error e ∈ b.calls (ResolverErrorScope.enter slot).2
  first : (buildCommand b slot).1 = .error e ↔
    (b.calls (ResolverErrorScope.enter slot).2).findSome? failure = some e
  own : ∀ other, (buildCommand b other).1 = (buildCommand b slot).1
  restores : (buildCommand b slot).2 = slot

theorem answer_error (b : Build) : b.answer = .error e ↔ b.failed = some e := by
  unfold Build.answer
  cases b.failed <;> simp [answerOf]

theorem build_fails_closed (b : Build) (slot : ResolverError) : FailsClosed b slot := by
  have hfirst : ∀ e, (buildCommand b slot).1 = .error e ↔
      (b.calls (ResolverErrorScope.enter slot).2).findSome? failure = some e := by
    intro e
    rw [buildCommand_eq, b.calls_failed, answer_error]
  refine ⟨?_, hfirst _, fun other => ?_, ?_⟩
  · simp only [hfirst]
    exact exists_failure _
  · rw [buildCommand_eq, buildCommand_eq]
  · rw [buildCommand_eq]

end ProcessKit.Client
