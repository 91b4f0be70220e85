import ProcessKit.Runtime.Step

/-!
# One operation through a step

A step of the hub moves at most one task of at most one operation. `OpMove`
says how a step leaves the tasks of operation `k` and which of the events
about them it emits; every property of their history is derived from it.
-/

namespace ProcessKit.Runtime

/-- The events an operation's tasks emit. -/
def Event.ofTask (k : Nat) : Event → Bool
  | .stored op _ | .published op | .cancelConsumed op => op = k
  | _ => false

/-- How a step that finds operation `k` as `o` leaves it. -/
inductive OpMove (h : Hub) (k : Nat) (o : Operation) : Operation → List Event → Prop
  | touch : o'.id = o.id → o'.worker = o.worker → OpMove h k o o' []
  | spawn : h.pc = .attaching k →
      OpMove h k o { o with callback := .attached, worker := .polling true } []
  | poll : o.worker = .polling listening →
      OpMove h k o (pollCancellable o listening work).1
        (if (pollCancellable o listening work).2 then [.cancelConsumed k] else [])
  | joinFailed : o.worker = .polling listening →
      OpMove h k o { o with worker := .joined (.error error) } []
  | store : o.worker = .joined exit → joinResult exit = some result →
      OpMove h k o { o with completion := .ready result, worker := .stored } [.stored k result]
  | storeCancelled : o.worker = .joined exit → joinResult exit = none →
      OpMove h k o { o with worker := .returned } []
  | publish : o.worker = .stored →
      OpMove h k o { o with worker := if (h.publish o.id).2 then .waking else .returned }
        (if h.publishes o.id then [.published k] else [])
  | write : o.worker = .waking → OpMove h k o { o with worker := .returned } []

theorem getElem?_modify_of_some {l : List α} (hk : l[k]? = some a) :
    (l.modify j f)[k]? = some (if j = k then f a else a) := by
  simp [List.getElem?_modify, hk]

@[simp] theorem filter_leftBy (k : Nat) (exit : Exit) (taken : List (UInt64 × HubEntry)) :
    (leftBy exit taken).filter (Event.ofTask k) = [] := by
  rw [List.filter_eq_nil_iff]
  intro e he
  obtain ⟨t, -, rfl⟩ := List.mem_map.mp he
  simp [Event.ofTask]

@[simp] theorem filter_cancelEvents (k : Nat) (h : Hub) (i : UInt64) :
    (h.cancelEvents i).filter (Event.ofTask k) = [] := by
  unfold Hub.cancelEvents
  split <;> simp [Event.ofTask]

theorem completeEntry_getElem? (refuses : PyErr → Option PyErr) {ops : List Operation}
    {k : Nat} {o : Operation} (entry : HubEntry) (hk : ops[k]? = some o) :
    ∃ o' : Operation, (completeEntry refuses ops entry).1[k]? = some o' ∧
      o'.id = o.id ∧ o'.worker = o.worker := by
  have hmap := congrArg (·[k]?) (completeEntry_map refuses ops entry (fun o => (o.id, o.worker))
    (fun _ => rfl) fun _ _ => rfl)
  simp only [List.getElem?_map, hk, Option.map_some, Option.map_eq_some_iff] at hmap
  obtain ⟨o', ho', heq⟩ := hmap
  exact ⟨o', ho', Prod.mk.inj heq⟩

theorem OpMove.touch_modify {h : Hub} {f : Operation → Operation} (hk : h.ops[k]? = some o)
    (hf : ∀ o, (f o).id = o.id ∧ (f o).worker = o.worker) :
    ∃ o', (h.ops.modify j f)[k]? = some o' ∧ OpMove h k o o' [] := by
  refine ⟨_, getElem?_modify_of_some hk, ?_⟩
  split
  · exact .touch (hf o).1 (hf o).2
  · exact .touch rfl rfl

theorem OpMove.task_modify {h : Hub} {f : Operation → Operation} {evs : List Event}
    (hk : h.ops[k]? = some o)
    (hj : h.ops[j]? = some p) (hother : j ≠ k → evs.filter (Event.ofTask k) = [])
    (hself : OpMove h j p (f p) (evs.filter (Event.ofTask j))) :
    ∃ o', (h.ops.modify j f)[k]? = some o' ∧ OpMove h k o o' (evs.filter (Event.ofTask k)) := by
  refine ⟨_, getElem?_modify_of_some hk, ?_⟩
  by_cases hjk : j = k
  · subst hjk
    obtain rfl : p = o := by simpa [hj] using hk
    simpa using hself
  · rw [hother hjk, if_neg hjk]
    exact .touch rfl rfl

theorem Step.opMove (hs : Step refuses h a h' evs) (hk : h.ops[k]? = some o) :
    ∃ o', h'.ops[k]? = some o' ∧ OpMove h k o o' (evs.filter (Event.ofTask k)) := by
  have hsame : ∃ o', h.ops[k]? = some o' ∧ OpMove h k o o' [] := ⟨o, hk, .touch rfl rfl⟩
  have hlt : k < h.ops.length := (List.getElem?_eq_some_iff.mp hk).1
  cases hs with
  | register =>
    refine ⟨o, ?_, by simpa [Event.ofTask] using .touch rfl rfl⟩
    simpa [List.getElem?_append_left hlt] using hk
  | futureCancel => exact OpMove.touch_modify hk fun o => ⟨o.cancel_id, o.cancel_worker⟩
  | cancelCallback | doneCallback | cancelSend => exact OpMove.touch_modify hk fun _ => ⟨rfl, rfl⟩
  | closeFuture =>
    simpa [Event.ofTask] using OpMove.touch_modify hk
      fun o => ⟨o.cancel_id, o.cancel_worker⟩
  | attach hpc =>
    refine ⟨_, getElem?_modify_of_some hk, ?_⟩
    split
    · rename_i hop
      exact .spawn (hop ▸ hpc)
    · exact .touch rfl rfl
  | deliver =>
    obtain ⟨o', ho', hid, hworker⟩ := completeEntry_getElem? refuses _ hk
    exact ⟨o', ho', .touch hid hworker⟩
  | poll hop hw =>
    refine OpMove.task_modify hk hop (fun hne => ?_) ?_
    · split <;> simp [Event.ofTask, hne]
    · convert OpMove.poll hw using 1
      split <;> simp [Event.ofTask]
  | joinFailed hop hw => exact OpMove.task_modify hk hop (fun _ => rfl) (.joinFailed hw)
  | store hop hw hj =>
    refine OpMove.task_modify hk hop (fun hne => by simp [Event.ofTask, hne]) ?_
    simpa [Event.ofTask] using .store hw hj
  | storeCancelled hop hw hj =>
      exact OpMove.task_modify hk hop (fun _ => rfl) (.storeCancelled hw hj)
  | publish hop hw =>
    refine OpMove.task_modify hk hop (fun hne => ?_) ?_
    · split <;> simp [Event.ofTask, hne]
    · convert OpMove.publish hw using 1
      split <;> simp [Event.ofTask]
  | write hop hw => exact OpMove.task_modify hk hop (fun _ => rfl) (.write hw)
  | _ => simpa [Event.ofTask] using hsame

-- ---------------------------------------------------------------------------
-- The operation being registered
-- ---------------------------------------------------------------------------

/-- The operation whose done-callback is being attached has no task yet. -/
def Attaching (h : Hub) : Prop :=
  ∀ k, h.pc = .attaching k → ∃ o, h.ops[k]? = some o ∧ o.worker = .unspawned

theorem Attaching.modify {h h' : Hub} (hi : Attaching h) (hpc : h'.pc = h.pc)
    (hops : h'.ops = h.ops.modify k f) (hk : h.ops[k]? = some o) (hw : o.worker ≠ .unspawned) :
    Attaching h' := by
  intro j hj
  obtain ⟨p, hp, hu⟩ := hi j (hpc ▸ hj)
  have hkj : k ≠ j := by
    rintro rfl
    obtain rfl : o = p := by simpa [hk] using hp
    exact hw hu
  exact ⟨p, by simp [hops, hkj, hp], hu⟩

theorem Attaching.step (hi : Attaching h) (hs : Step refuses h a h' evs) : Attaching h' := by
  cases hs with
  | register =>
    intro k hk
    obtain rfl : h.ops.length = k := by simpa using hk
    exact ⟨_, List.getElem?_concat_length, rfl⟩
  | recvByte | recvEof | recvFails => exact hi
  | poll hop hw | joinFailed hop hw => exact hi.modify rfl rfl hop (by simp [hw])
  | store hop hw | storeCancelled hop hw => exact hi.modify rfl rfl hop (by simp [hw])
  | publish hop hw | write hop hw => exact hi.modify rfl rfl hop (by simp [hw])
  | futureCancel hpc | doneCallback hpc => exact fun k hk => by simp [hpc] at hk
  | cancelIdle | delivered | idleEnter | closeFutureRaises =>
    intro k hk
    split at hk <;> cases hk
  | _ => exact fun k hk => by simp at hk

end ProcessKit.Runtime
