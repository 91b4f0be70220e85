import ProcessKit.Runtime.Bridge
import ProcessKit.Runtime.Operation

/-!
# Every operation is settled at most once, by its own outcome

The history of an operation's tasks is a function of where they are
(`TaskLog`), whatever else happens in the hub. Together with the order of the
bridge it says what a delivery finds: the outcome of that operation, stored
before it was published, published before it was taken.
-/

namespace ProcessKit.Runtime

-- ---------------------------------------------------------------------------
-- The history of one operation's tasks
-- ---------------------------------------------------------------------------

/-- What the tasks of operation `k` have emitted, by where they are. -/
def TaskLog (k : Nat) : WorkerPc → List Event → Prop
  | .joined (.ok .cancelled), tasks => tasks = [.cancelConsumed k]
  | .unspawned, tasks | .polling _, tasks | .joined _, tasks => tasks = []
  | .stored, tasks => ∃ r, tasks = [.stored k r]
  | .waking, tasks => ∃ r, tasks = [.stored k r, .published k]
  | .returned, tasks =>
    tasks = [.cancelConsumed k] ∨ ∃ r, tasks = [.stored k r] ∨ tasks = [.stored k r, .published k]

/-- The history of operation `k`; one that is yet to be registered has none. -/
def Told (h : Hub) (log : List Event) : Prop :=
  ∀ k, match h.ops[k]? with
    | some o => TaskLog k o.worker (log.filter (Event.ofTask k))
    | none => log.filter (Event.ofTask k) = []

theorem TaskLog.move (ht : TaskLog k o.worker tasks)
    (ha : h.pc = .attaching k → o.worker = .unspawned)
    (hm : OpMove h k o o' evs) : TaskLog k o'.worker (tasks ++ evs) := by
  cases hm with
  | touch _ hw => simpa [hw] using ht
  | spawn hpc => simpa [ha hpc, TaskLog] using ht
  | poll hw =>
    rw [hw] at ht
    obtain rfl : tasks = [] := ht
    unfold pollCancellable
    repeat' split
    all_goals simp_all [TaskLog]
  | joinFailed hw => simpa [hw, TaskLog] using ht
  | store hw hj =>
    rename_i exit result
    have hnone : exit ≠ .ok .cancelled := by
      rintro rfl
      cases hj
    have htasks : tasks = [] := by
      rw [hw] at ht
      unfold TaskLog at ht
      split at ht <;> simp_all
    exact ⟨result, by simp [htasks]⟩
  | storeCancelled hw hj =>
    rw [hw] at ht
    unfold joinResult at hj
    split at hj <;> cases hj
    exact .inl (by simpa [TaskLog] using ht)
  | publish hw =>
    rw [hw] at ht
    obtain ⟨r, rfl⟩ := ht
    cases hp : h.publishes o.id with
    | false => simp [h.publish_neg hp, TaskLog]
    | true =>
      simp only [if_true]
      split
      · exact ⟨r, rfl⟩
      · exact .inr ⟨r, .inr rfl⟩
  | write hw =>
    rw [hw] at ht
    obtain ⟨r, rfl⟩ := ht
    exact .inr ⟨r, .inr (by simp)⟩

theorem Step.opNew (hs : Step refuses h a h' evs) (hk : h.ops[k]? = none) :
    evs.filter (Event.ofTask k) = [] ∧ ∀ o, h'.ops[k]? = some o → ∃ i, o = .new i := by
  have hother : ∀ {op : Nat} {o : Operation}, h.ops[op]? = some o → op ≠ k := by
    rintro op o hop rfl
    simp [hk] at hop
  have hmodify : ∀ {op : Nat} {f : Operation → Operation} (o : Operation),
      (h.ops.modify op f)[k]? = some o → ∃ i, o = .new i := by
    intro op f o ho
    simp [List.getElem?_modify, hk] at ho
  cases hs with
  | register hpc =>
    refine ⟨rfl, fun o ho => ?_⟩
    rw [List.getElem?_append_right (by simpa using hk)] at ho
    obtain ⟨-, rfl⟩ := List.getElem?_eq_some_iff.mp ho
    simp
  | unregister | cancelRemove => exact ⟨filter_cancelEvents k h _, fun o ho => by simp [hk] at ho⟩
  | takeReady | closeState | collect => exact ⟨filter_leftBy k _ _, fun o ho => by simp [hk] at ho⟩
  | deliver =>
    refine ⟨rfl, fun o ho => ?_⟩
    obtain ⟨hlt, -⟩ := List.getElem?_eq_some_iff.mp ho
    rw [completeEntry_length] at hlt
    simp [List.getElem?_eq_getElem hlt] at hk
  | poll hop | publish hop =>
    refine ⟨?_, hmodify⟩
    split <;> simp [Event.ofTask, hother hop]
  | store hop => exact ⟨by simp [Event.ofTask, hother hop], hmodify⟩
  | joinFailed | storeCancelled | write | futureCancel | cancelCallback | doneCallback | cancelSend
  | attach | closeFuture => exact ⟨rfl, hmodify⟩
  | _ => exact ⟨rfl, fun o ho => by simp [hk] at ho⟩

theorem Told.step (hi : Told h log) (ha : Attaching h) (hs : Step refuses h a h' evs) :
    Told h' (log ++ evs) := by
  intro k
  have hk := hi k
  rw [List.filter_append]
  cases hop : h.ops[k]? with
  | none =>
    obtain ⟨hevs, hnew⟩ := hs.opNew hop
    simp only [hop] at hk
    simp only [hk, hevs, List.append_nil]
    split
    · obtain ⟨i, rfl⟩ := hnew _ ‹_›
      rfl
    · trivial
  | some o =>
    obtain ⟨o', ho', hm⟩ := hs.opMove hop
    simp only [hop] at hk
    simp only [ho']
    refine hk.move (fun hpc => ?_) hm
    obtain ⟨p, hp, hu⟩ := ha k hpc
    obtain rfl := Option.some.inj (hop ▸ hp)
    exact hu

theorem Told.tasks (hi : Told h log) (k : Nat) :
    ∃ pc, TaskLog k pc (log.filter (Event.ofTask k)) := by
  have hk := hi k
  split at hk
  · exact ⟨_, hk⟩
  · exact ⟨.unspawned, hk⟩

theorem TaskLog.cases (ht : TaskLog k pc tasks) : tasks = [] ∨ tasks = [.cancelConsumed k] ∨
    ∃ r, tasks = [.stored k r] ∨ tasks = [.stored k r, .published k] := by
  unfold TaskLog at ht
  split at ht
  · exact .inr (.inl ht)
  · exact .inl ht
  · exact .inl ht
  · exact .inl ht
  · obtain ⟨r, ht⟩ := ht
    exact .inr (.inr ⟨r, .inl ht⟩)
  · obtain ⟨r, ht⟩ := ht
    exact .inr (.inr ⟨r, .inr ht⟩)
  · exact .inr ht

theorem count_publishedOps (k : Nat) (log : List Event) :
    (publishedOps log).count k = (log.filter (Event.ofTask k)).count (.published k) := by
  rw [List.count_filter (by simp [Event.ofTask])]
  induction log with
  | nil => rfl
  | cons e log ih => cases e <;> simp_all [publishedOps, List.count_cons]

theorem Told.publishedOps (hi : Told h log) : (publishedOps log).Nodup := by
  rw [List.nodup_iff_count_le_one]
  intro k
  obtain ⟨pc, ht⟩ := hi.tasks k
  rw [count_publishedOps]
  rcases ht.cases with hl | hl | ⟨r, hl | hl⟩ <;> simp [hl]

theorem mem_tasks {e : Event} {log : List Event} (he : e.ofTask k = true) :
    e ∈ log.filter (Event.ofTask k) ↔ e ∈ log := by
  simp [List.mem_filter, he]

theorem Told.stored_of_published (hi : Told h log) (hp : .published k ∈ log) :
    ∃ r, .stored k r ∈ log := by
  obtain ⟨pc, ht⟩ := hi.tasks k
  have hp : .published k ∈ log.filter (Event.ofTask k) :=
    (mem_tasks (by simp [Event.ofTask])).mpr hp
  rcases ht.cases with hl | hl | ⟨r, hl | hl⟩
  · simp [hl] at hp
  · simp [hl] at hp
  · simp [hl] at hp
  · exact ⟨r, (mem_tasks (k := k) (by simp [Event.ofTask])).mp (by simp [hl])⟩

theorem Told.not_published (hi : Told h log) (hc : .cancelConsumed k ∈ log) :
    .published k ∉ log := by
  intro hp
  obtain ⟨pc, ht⟩ := hi.tasks k
  have hc : .cancelConsumed k ∈ log.filter (Event.ofTask k) :=
    (mem_tasks (by simp [Event.ofTask])).mpr hc
  have hp : .published k ∈ log.filter (Event.ofTask k) :=
    (mem_tasks (by simp [Event.ofTask])).mpr hp
  rcases ht.cases with hl | hl | ⟨r, hl | hl⟩ <;> simp [hl] at hc hp

-- ---------------------------------------------------------------------------
-- Who writes a completion, and who a future
-- ---------------------------------------------------------------------------

theorem modify_getElem?_eq {ops : List Operation} (hk : ops[k]? = some o)
    (hk' : (ops.modify j f)[k]? = some o') : o' = if j = k then f o else o := by
  rw [getElem?_modify_of_some hk] at hk'
  exact (Option.some.inj hk').symm

theorem modify_keeps (g : Operation → β) {ops : List Operation} {j k : Nat} {o o' : Operation}
    {f : Operation → Operation} (hk : ops[k]? = some o)
    (hk' : (ops.modify j f)[k]? = some o') (hf : ∀ p, ops[j]? = some p → g (f p) = g p) :
    g o' = g o := by
  rw [modify_getElem?_eq hk hk']
  split
  · rename_i hjk
    exact hf o (hjk ▸ hk)
  · rfl

theorem completeEntry_completion {ops : List Operation} {entry : HubEntry} (hk : ops[k]? = some o)
    (hk' : (completeEntry refuses ops entry).1[k]? = some o') :
    o'.completion = o.completion ∨ entry.completion = k := by
  refine or_iff_not_imp_right.mpr fun hc => ?_
  have hspent : (ops.modify entry.completion fun op => { op with completion := .pending })[k]? =
      some o := by rw [getElem?_modify_of_some hk, if_neg hc]
  rcases completeEntry_cases refuses ops entry with ⟨-, h⟩ | ⟨-, ⟨-, h⟩ | ⟨_, _, -, -, h⟩⟩ <;>
    rw [h] at hk'
  · obtain rfl : o = o' := by simpa [hk] using hk'
    rfl
  · rw [modify_getElem?_eq hspent hk']
    split <;> rfl
  · obtain rfl : o = o' := by simpa [hspent] using hk'
    rfl

theorem completeEntry_future {ops : List Operation} {entry : HubEntry} (hk : ops[k]? = some o)
    (hk' : (completeEntry refuses ops entry).1[k]? = some o') :
    o'.future = o.future ∨ entry.future = k ∧ o.future.done = false ∧
      o'.future = settledBy (completionAt ops entry.completion) := by
  obtain ⟨spent, hspent, hfuture⟩ : ∃ spent : Operation,
      (ops.modify entry.completion fun op => { op with completion := .pending })[k]? = some spent ∧
        spent.future = o.future := by
    refine ⟨_, getElem?_modify_of_some hk, ?_⟩
    split <;> rfl
  rcases completeEntry_cases refuses ops entry with
    ⟨-, h⟩ | ⟨hpending, ⟨-, h⟩ | ⟨_, _, -, -, h⟩⟩ <;>
    rw [h] at hk'
  · obtain rfl : o = o' := by simpa [hk] using hk'
    exact .inl rfl
  · rw [modify_getElem?_eq hspent hk']
    split
    · rename_i hf
      exact .inr ⟨hf, by simpa [futureAt, hf, hk] using hpending, rfl⟩
    · exact .inl hfuture
  · obtain rfl : spent = o' := by simpa [hspent] using hk'
    exact .inl hfuture

theorem Step.completion (hs : Step refuses h a h' evs) (hk : h.ops[k]? = some o)
    (hk' : h'.ops[k]? = some o') : o'.completion = o.completion ∨
      (∃ exit r, o.worker = .joined exit ∧ evs = [.stored k r] ∧ o'.completion = .ready r) ∨
      ∃ entry rest found, h.pc.taken = entry :: rest ∧ entry.completion = k ∧
        evs = [.completed entry.future found] := by
  have hlt : k < h.ops.length := (List.getElem?_eq_some_iff.mp hk).1
  cases hs with
  | register =>
    obtain rfl : o = o' := by simpa [List.getElem?_append_left hlt, hk] using hk'
    exact .inl rfl
  | deliver hpc =>
    rename_i entry
    rcases completeEntry_completion hk hk' with hsame | hentry
    · exact .inl hsame
    · exact .inr (.inr ⟨entry, _, _, by rw [hpc]; rfl, hentry, rfl⟩)
  | store hop hw hj =>
    rename_i op q exit result
    rw [modify_getElem?_eq hk hk']
    split
    · rename_i hopk
      subst hopk
      obtain rfl : q = o := by simpa [hk] using hop.symm
      exact .inr (.inl ⟨exit, result, hw, rfl, rfl⟩)
    · exact .inl rfl
  | poll hop hw =>
    rename_i op q work listening
    refine .inl (modify_keeps Operation.completion hk hk' fun p hp => ?_)
    obtain rfl : q = p := by simpa [hop] using hp
    obtain ⟨worker, hpoll⟩ := pollCancellable_worker q listening work
    rw [hpoll]
  | futureCancel | closeFuture => exact .inl (modify_keeps _ hk hk' fun p _ => p.cancel_completion)
  | attach | cancelCallback | doneCallback | cancelSend | joinFailed | storeCancelled | publish
  | write => exact .inl (modify_keeps Operation.completion hk hk' fun _ _ => rfl)
  | _ =>
    obtain rfl : o = o' := by simpa [hk] using hk'
    exact .inl rfl

theorem Step.future (hs : Step refuses h a h' evs) (hk : h.ops[k]? = some o)
    (hk' : h'.ops[k]? = some o') : o'.future = o.future ∨ o.future.done = false ∧
      (o'.future = .cancelled ∨ ∃ entry rest, h.pc.taken = entry :: rest ∧ entry.future = k ∧
        evs = [.completed k (completionAt h.ops entry.completion)] ∧
        o'.future = settledBy (completionAt h.ops entry.completion)) := by
  have hlt : k < h.ops.length := (List.getElem?_eq_some_iff.mp hk).1
  have hcancel : ∀ {j : Nat}, (h.ops.modify j Operation.cancel)[k]? = some o' →
      o'.future = o.future ∨ o.future.done = false ∧ o'.future = .cancelled := by
    intro j hj
    rw [modify_getElem?_eq hk hj]
    split
    · unfold Operation.cancel
      split
      · exact .inl rfl
      · rename_i hdone
        exact .inr ⟨by simpa using hdone, rfl⟩
    · exact .inl rfl
  cases hs with
  | register =>
    obtain rfl : o = o' := by simpa [List.getElem?_append_left hlt, hk] using hk'
    exact .inl rfl
  | deliver hpc =>
    rename_i entry
    rcases completeEntry_future hk hk' with hsame | ⟨rfl, hdone, hset⟩
    · exact .inl hsame
    · exact .inr ⟨hdone, .inr ⟨entry, _, by rw [hpc]; rfl, rfl, rfl, hset⟩⟩
  | futureCancel | closeFuture => exact (hcancel hk').imp_right fun hc => ⟨hc.1, .inl hc.2⟩
  | poll hop hw =>
    rename_i op q work listening
    refine .inl (modify_keeps Operation.future hk hk' fun p hp => ?_)
    obtain rfl : q = p := by simpa [hop] using hp
    obtain ⟨worker, hpoll⟩ := pollCancellable_worker q listening work
    rw [hpoll]
  | attach | cancelCallback | doneCallback | cancelSend | joinFailed | store | storeCancelled
  | publish | write => exact .inl (modify_keeps Operation.future hk hk' fun _ _ => rfl)
  | _ =>
    obtain rfl : o = o' := by simpa [hk] using hk'
    exact .inl rfl

-- ---------------------------------------------------------------------------
-- What a delivery finds
-- ---------------------------------------------------------------------------

theorem Told.not_stored (hi : Told h log) (hk : h.ops[k]? = some o) (hw : o.worker = .joined exit) :
    .stored k r ∉ log := by
  intro hs
  have hs : .stored k r ∈ log.filter (Event.ofTask k) := (mem_tasks (by simp [Event.ofTask])).mpr hs
  have ht := hi k
  rw [hk] at ht
  simp only [hw] at ht
  unfold TaskLog at ht
  split at ht <;> simp_all

theorem Step.stored (hs : Step refuses h a h' evs) (hk : h.ops[k]? = some o)
    (hk' : h'.ops[k]? = some o') (hr : .stored k r ∈ evs) : o'.completion = .ready r := by
  obtain ⟨p, hp, hm⟩ := hs.opMove hk
  obtain rfl : p = o' := by simpa [hp] using hk'
  have hr := (mem_tasks (k := k) (by simp [Event.ofTask])).mpr hr
  generalize evs.filter (Event.ofTask k) = tasks at hm hr
  cases hm with
  | store =>
    obtain rfl : r = _ := by simpa using hr
    rfl
  | poll | publish => split at hr <;> simp at hr
  | _ => cases hr

/-- An outcome stays in its completion until its delivery. -/
def Kept (h : Hub) (log : List Event) : Prop :=
  ∀ k o r, h.ops[k]? = some o → .stored k r ∈ log → k ∉ completedOps log → o.completion = .ready r

theorem Kept.step (hi : Kept h log) (ht : Told h log) (hf : h.bridge.Filed log)
    (hs : Step refuses h a h' evs) : Kept h' (log ++ evs) := by
  intro k o' r ho' hstored hnot
  rw [completedOps_append, List.mem_append, not_or] at hnot
  cases hop : h.ops[k]? with
  | none =>
    have hlog := ht k
    rw [hop] at hlog
    have hmem : .stored k r ∈ (log ++ evs).filter (Event.ofTask k) :=
      (mem_tasks (by simp [Event.ofTask])).mpr hstored
    rw [List.filter_append, hlog, (hs.opNew hop).1] at hmem
    cases hmem
  | some o =>
    rcases List.mem_append.mp hstored with hold | hnew
    · rcases hs.completion hop ho' with
        hsame | ⟨exit, r', hw, -, -⟩ | ⟨entry, rest, found, htaken, rfl, rfl⟩
      · rw [hsame]
        exact hi k o r hop hold hnot.1
      · exact absurd hold (ht.not_stored hop hw)
      · have hown := (hf.taken entry (by rw [Hub.bridge, htaken]; exact List.mem_cons_self)).1
        exact absurd (by simp [completedOps, hown]) hnot.2
    · exact hs.stored hop ho' hnew

def Caused (before : List Event) : Event → Prop
  | .left k i _ => .registered k i ∈ before
  | .published k => ∃ r, .stored k r ∈ before
  | .completed k found => ∃ r i, found = .ready r ∧ .stored k r ∈ before ∧ .published k ∈ before ∧
      .registered k i ∈ before ∧ .left k i .takeReady ∈ before
  | _ => True

theorem Caused.mono {e : Event} (h : Caused log e) : Caused (log ++ more) e := by
  cases e with
  | left => exact List.mem_append_left _ h
  | published => exact h.imp fun _ hr => List.mem_append_left _ hr
  | completed =>
    obtain ⟨r, i, hfound, hs, hp, hr, hl⟩ := h
    exact ⟨r, i, hfound, List.mem_append_left _ hs, List.mem_append_left _ hp,
      List.mem_append_left _ hr, List.mem_append_left _ hl⟩
  | _ => trivial

theorem Step.published (hs : Step refuses h a h' evs) (hp : .published k ∈ evs) :
    ∃ o, h.ops[k]? = some o ∧ o.worker = .stored := by
  have hp := (mem_tasks (k := k) (by simp [Event.ofTask])).mpr hp
  cases hop : h.ops[k]? with
  | none =>
    rw [(hs.opNew hop).1] at hp
    cases hp
  | some o =>
    obtain ⟨o', -, hm⟩ := hs.opMove hop
    generalize evs.filter (Event.ofTask k) = tasks at hm hp
    cases hm with
    | publish hw => exact ⟨o, rfl, hw⟩
    | poll => split at hp <;> simp at hp
    | store => simp at hp
    | _ => cases hp

theorem Step.completed (hs : Step refuses h a h' evs) (hc : .completed k found ∈ evs) :
    ∃ entry rest, h.pc.taken = entry :: rest ∧ entry.future = k ∧
      found = completionAt h.ops entry.completion := by
  cases hs with
  | deliver hpc =>
    obtain ⟨rfl, rfl⟩ : k = _ ∧ found = _ := by simpa using hc
    exact ⟨_, _, by rw [hpc]; rfl, rfl, rfl⟩
  | unregister | cancelRemove =>
    unfold Hub.cancelEvents at hc
    split at hc <;> simp at hc
  | takeReady | closeState | collect => simp [leftBy] at hc
  | poll | publish => split at hc <;> simp at hc
  | _ => simp at hc

theorem Bridge.Filed.left_registered (hf : Bridge.Filed b log) (hm : b.Move evs b')
    (hl : .left k i exit ∈ evs) : .registered k i ∈ log := by
  have hremoved : ∀ {out rest} {exit' : Exit}, Removed b.entries out rest →
      .left k i exit ∈ leftBy exit' out → .registered k i ∈ log := by
    intro out rest exit' hr hmem
    obtain ⟨t, ht, heq⟩ := List.mem_map.mp hmem
    cases heq
    obtain ⟨-, hlt, hi⟩ := hf.entries _ _ (hr.filed t ht)
    rw [hi]
    exact hf.registered _ hlt
  cases hm with
  | outside he => cases he _ hl
  | cancel hr => exact hremoved hr hl
  | take _ hr => exact hremoved hr hl
  | close _ hr => exact hremoved hr hl
  | register | publish | deliver => simp at hl

-- ---------------------------------------------------------------------------
-- Every run of a hub
-- ---------------------------------------------------------------------------

/-- What holds of every run, however long. -/
structure Settled (refuses : PyErr → Option PyErr) (h : Hub) (log : List Event) : Prop where
  /-- Nothing settles a future that is already done. -/
  final : ∀ a h' evs, h.step refuses a = some (h', evs) →
    ∀ k, (futureAt h.ops k).done = true → futureAt h'.ops k = futureAt h.ops k
  withdrawn : ∀ k, .cancelConsumed k ∈ log → .published k ∉ log

/-- What holds until the counter of ids wraps. -/
structure Delivered (h : Hub) (log : List Event) : Prop where
  ids : (registeredIds log).Nodup
  leaves : (leftIds log).Nodup
  caused : Transition.Justified Caused log
  published : (publishedOps log).Nodup
  order : (completedOps log).Sublist (publishedOps log)
  once : (completedOps log).Nodup
  own : ∀ k o, h.ops[k]? = some o → o.future = .pending ∨ o.future = .cancelled ∨
    ∃ r, .completed k (.ready r) ∈ log ∧ o.future = settledBy (.ready r)

/-- The invariant of the runs: the last two parts need ids that do not come
back. -/
structure Delivering (h : Hub) (log : List Event) : Prop where
  registering : Registering h
  attaching : Attaching h
  told : Told h log
  filed : h.bridge.Filed log
  kept : Kept h log
  once : h.bridge.ids.length ≤ UInt64.size → h.bridge.Once log ∧ Delivered h log

theorem Delivering.caused_completed (hi : Delivering h log) (hb : h.bridge.ids.length ≤ UInt64.size)
    (hs : Step refuses h a h' evs) (he : .completed k found ∈ evs) :
    Caused log (.completed k found) := by
  obtain ⟨entry, rest, htaken, rfl, rfl⟩ := hs.completed he
  have hmem : entry ∈ h.bridge.taken := by
    rw [Hub.bridge, htaken]
    exact List.mem_cons_self
  have honce := (hi.once hb).1
  obtain ⟨drained, hpub, hsub⟩ := honce.order
  have hnodup : drained.Nodup := (List.nodup_append.mp (hpub ▸ hi.told.publishedOps)).1
  have hdrained : entry.future ∈ drained :=
    hsub.subset (List.mem_append_right _ (List.mem_map_of_mem hmem))
  have hpublished : .published entry.future ∈ log :=
    mem_publishedOps.mp (hpub ▸ List.mem_append_left _ hdrained)
  have hnew : entry.future ∉ completedOps log := fun hold =>
    (List.nodup_append.mp (hnodup.sublist hsub)).2.2 _ hold _ (List.mem_map_of_mem hmem) rfl
  have hlt := hi.filed.published _ (mem_publishedOps.mpr hpublished)
  obtain ⟨r, hstored⟩ := hi.told.stored_of_published hpublished
  obtain ⟨o, hop⟩ : ∃ o, h.ops[entry.future]? = some o :=
    ⟨_, List.getElem?_eq_getElem (by simpa [Hub.bridge] using hlt)⟩
  refine ⟨r, opId entry.future, ?_, hstored, hpublished, hi.filed.registered _ hlt,
    honce.taken entry hmem⟩
  rw [completionAt, (hi.filed.taken entry hmem).1, hop]
  exact hi.kept _ _ r hop hstored hnew

theorem Delivering.step (hi : Delivering h log) (hs : Step refuses h a h' evs) :
    Delivering h' (log ++ evs) := by
  have hm := hs.move hi.registering
  have htold := hi.told.step hi.attaching hs
  have hfiled := hi.filed.move hm
  refine ⟨hi.registering.step hs, hi.attaching.step hs, htold, hfiled,
    hi.kept.step hi.told hi.filed hs, fun hb' => ?_⟩
  have hb := Nat.le_trans hm.length_le hb'
  obtain ⟨honce, hdel⟩ := hi.once hb
  have honce' := honce.move hi.filed hm hb'
  have horder : (completedOps (log ++ evs)).Sublist (publishedOps (log ++ evs)) := by
    obtain ⟨drained, hpub, hsub⟩ := honce'.order
    rw [hpub]
    exact ((List.sublist_append_left _ _).trans hsub).trans (List.sublist_append_left _ _)
  refine ⟨honce', hfiled.registeredIds ▸ hfiled.nodup hb', honce'.leaves, ?_,
    htold.publishedOps, horder,
    htold.publishedOps.sublist horder, ?_⟩
  · refine hdel.caused.append_of_log Caused.mono fun e he => ?_
    cases e with
    | left k i exit => exact hi.filed.left_registered hm he
    | published k =>
      obtain ⟨o, hop, hw⟩ := hs.published he
      have ht := hi.told k
      rw [hop] at ht
      simp only [hw] at ht
      obtain ⟨r, hr⟩ := ht
      exact ⟨r, (mem_tasks (k := k) (by simp [Event.ofTask])).mp (by simp [hr])⟩
    | completed k found => exact hi.caused_completed hb hs he
    | _ => trivial
  · intro k o' ho'
    cases hop : h.ops[k]? with
    | none =>
      obtain ⟨i, rfl⟩ := (hs.opNew hop).2 o' ho'
      exact .inl rfl
    | some o =>
      rcases hs.future hop ho' with hsame | ⟨-, hcancelled | ⟨entry, rest, -, -, hevs, hset⟩⟩
      · rw [hsame]
        refine (hdel.own k o hop).imp_right (.imp_right ?_)
        rintro ⟨r, hr, hf⟩
        exact ⟨r, List.mem_append_left _ hr, hf⟩
      · exact .inr (.inl hcancelled)
      · have hmem := hevs ▸ List.mem_singleton_self _
        obtain ⟨r, i, hfound, -⟩ := hi.caused_completed hb hs hmem
        rw [hfound] at hmem hset
        exact .inr (.inr ⟨r, List.mem_append_right _ hmem, hset⟩)

theorem Delivered.init : Delivered Hub.new [] :=
  ⟨List.nodup_nil, List.nodup_nil, .nil, List.nodup_nil, List.nil_sublist _, List.nodup_nil,
    fun _ _ hk => by simp [Hub.new] at hk⟩

theorem Delivering.init : Delivering Hub.new [] :=
  ⟨nofun, nofun, fun _ => rfl, .init, fun _ _ _ hk => by simp [Hub.new] at hk,
    fun _ => ⟨.init, .init⟩⟩

theorem Delivering.of_reachable (hr : (Hub.machine refuses).Reachable h log) : Delivering h log :=
  hr.invariant .init fun _ _ _ _ _ hi _ hs => hi.step (.of_step hs)

theorem Hub.delivers (hr : (Hub.machine refuses).Reachable h log) :
    Settled refuses h log ∧ (h.ops.length ≤ UInt64.size → Delivered h log) := by
  have hi := Delivering.of_reachable hr
  refine ⟨⟨fun a h' evs hs k hdone => ?_, fun k => hi.told.not_published⟩, fun hb => ?_⟩
  · have hs := Step.of_step hs
    cases hop : h.ops[k]? with
    | none => simp [futureAt, hop, FutureState.done] at hdone
    | some o =>
      obtain ⟨o', ho', -⟩ := hs.opMove hop
      have hdone : o.future.done = true := by simpa [futureAt, hop] using hdone
      rcases hs.future hop ho' with hsame | ⟨hpending, -⟩
      · simp [futureAt, hop, ho', hsame]
      · rw [hdone] at hpending
        cases hpending
  · exact (hi.once (by simpa [Hub.bridge] using hb)).2

def deliveredRun : List Action :=
  [.lookup, .loop false, .loop false, .poll 0 (some (.ok ⟨.ok 7⟩)), .store 0, .publish 0,
    .write 0 false, .recv .byte, .wakeCallback, .loop false, .loop false, .loop false]

theorem Hub.delivers_one : ∃ h log, (Hub.machine fun _ => none).Reachable h log ∧
    completedOps log = [0] ∧ Delivered h log := by
  obtain ⟨h, log, hreach, heq⟩ := Transition.Machine.reach_replay (m := Hub.machine fun _ => none)
    deliveredRun (fun h log => (completedOps log, h.ops.length)) (fun _ _ _ => trivial)
    (b := ([0], 1)) (by decide +kernel)
  obtain ⟨hcompleted, hlen⟩ := Prod.mk.inj heq
  exact ⟨h, log, hreach, hcompleted, (Hub.delivers hreach).2 (by rw [hlen]; decide)⟩

-- ---------------------------------------------------------------------------
-- The counter wraps
-- ---------------------------------------------------------------------------

theorem reachable_registered (refuses : PyErr → Option PyErr) (n : Nat) :
    ∃ h log, (Hub.machine refuses).Reachable h log ∧
    h.pc = .idle ∧ h.state.closed = false ∧ h.ops.length = n := by
  induction n with
  | zero => exact ⟨_, _, .init, rfl, rfl, rfl⟩
  | succ n ih =>
    obtain ⟨h, log, hr, hpc, hopen, rfl⟩ := ih
    have hlookup : (Hub.machine refuses).step h .lookup =
        some ({ h with pc := .registering }, []) := by
      simp [Hub.machine, Hub.step, hpc, CompletionHub.isClosed, hopen]
    have hr := hr.step trivial hlookup
    have hregister : (Hub.machine refuses).step { h with pc := .registering } (.loop false) =
        some ({ h with
          toCompletionHub := (h.register h.ops.length h.ops.length).1
          pc := .attaching h.ops.length
          ops := h.ops ++ [.new h.nextId] }, [.registered h.ops.length h.nextId]) := by
      simp [Hub.machine, Hub.step, Hub.loopStep, CompletionHub.register, hopen]
    have hr := hr.step trivial hregister
    exact ⟨_, _, hr.step trivial (a := .loop false) rfl, rfl, by simpa using hopen, by simp⟩

theorem Hub.ids_wrap : ¬ ∀ h log, (Hub.machine fun _ => none).Reachable h log →
    (registeredIds log).Nodup := by
  intro hnodup
  obtain ⟨h, log, hr, -, -, hlen⟩ := reachable_registered (fun _ => none) (UInt64.size + 1)
  have hf := (Delivering.of_reachable hr).filed
  have hlen : h.bridge.ids.length = UInt64.size + 1 := by simpa [Hub.bridge] using hlen
  have hfirst : 0 < h.bridge.ids.length := by omega
  have hlast : UInt64.size < h.bridge.ids.length := by omega
  have hids : h.bridge.ids.Nodup := hf.registeredIds ▸ hnodup h log hr
  have hsame : h.bridge.ids[UInt64.size] = h.bridge.ids[0] := by
    rw [hf.ids (UInt64.size) _ (List.getElem?_eq_getElem hlast),
      hf.ids 0 _ (List.getElem?_eq_getElem hfirst)]
    decide
  exact absurd (hids.getElem_inj_iff.mp hsame) (by decide)

-- ---------------------------------------------------------------------------
-- Whether a delivery settles the future
-- ---------------------------------------------------------------------------

theorem futureAt_modify {ops : List Operation} (hk : k < ops.length) :
    futureAt (ops.modify k f) k = (f (ops.get ⟨k, hk⟩)).future := by
  simp [futureAt, List.getElem?_eq_getElem hk]

theorem futureAt_spent (ops : List Operation) (completion future : Nat) :
    futureAt (ops.modify completion fun op => { op with completion := .pending }) future =
      futureAt ops future := by
  unfold futureAt
  rw [List.getElem?_modify]
  cases ops[future]? with
  | none => rfl
  | some o => by_cases hc : completion = future <;> simp [hc]

/-- The wake callback settles a pending future unless `set_exception` refuses
the error it is given; then the future stays pending, and its entry is gone. -/
theorem Hub.deliver_settles (hr : (Hub.machine refuses).Reachable h log)
    (hpc : h.pc = .wakeDeliver receiveOk (entry :: rest))
    (hpending : (futureAt h.ops entry.future).done = false)
    (hfound : completionAt h.ops entry.completion = .ready result)
    (hs : h.step refuses (.loop raises) = some (h', evs)) :
    (futureAt h'.ops entry.future).done = true ↔
      ∀ e, outcome result = .error e → refuses e = none := by
  have hlt : entry.future < h.ops.length := by
    have := ((Delivering.of_reachable hr).filed.taken entry
      (by simp [Hub.bridge, hpc, LoopPc.taken])).2
    simpa [Hub.bridge] using this
  have hops : h'.ops = (completeEntry refuses h.ops entry).1 := by
    simp only [Hub.step, Hub.loopStep, hpc, Option.some.injEq, Prod.mk.injEq] at hs
    rw [← hs.1]
  have hsettled : ∀ e, settledBy (.ready result) = .exception e ↔ outcome result = .error e := by
    intro e
    cases ho : outcome result <;> simp [settledBy, ho]
  rw [hops]
  rcases completeEntry_cases refuses h.ops entry with
    ⟨hdone, -⟩ | ⟨-, ⟨haccepts, h⟩ | ⟨e, _, he, hrefuses, h⟩⟩
  · rw [hdone] at hpending
    cases hpending
  · rw [h, futureAt_modify (by simpa using hlt), Operation.settle]
    refine iff_of_true (settledBy_done _) fun e he => haccepts e ?_
    rw [hfound, hsettled]
    exact he
  · rw [h, futureAt_spent, hpending]
    rw [hfound, hsettled] at he
    refine iff_of_false (by simp) fun haccepts => ?_
    rw [haccepts e he] at hrefuses
    cases hrefuses

/-- What `asyncio.Future.set_exception` raises instead of settling. -/
def setException (error : PyErr) : Option PyErr :=
  if error.type = "StopIteration" then
    some ⟨"TypeError",
      "StopIteration interacts badly with generators and cannot be raised into a Future"⟩
  else none

def takenRun (result : PyResult CompletionConverter) : List Action :=
  [.lookup, .loop false, .loop false, .poll 0 (some result), .store 0, .publish 0,
    .write 0 false, .recv .byte, .wakeCallback, .loop false, .loop false]

/-- A delivery that is about to happen, and what it leaves the future as. -/
def nextDelivery (h : Hub) : LoopPc × FutureState × CompletionState × Option FutureState :=
  (h.pc, futureAt h.ops 0, completionAt h.ops 0,
    (h.step setException (.loop false)).map fun r => futureAt r.1.ops 0)

theorem Hub.deliver_settles_error : ∃ h log h' evs, (Hub.machine setException).Reachable h log ∧
    h.step setException (.loop false) = some (h', evs) ∧ (futureAt h'.ops 0).done = true := by
  obtain ⟨h, log, hr, heq⟩ := Transition.Machine.reach_replay (m := Hub.machine setException)
    (takenRun (.error ⟨"ValueError", "bad tail"⟩)) (fun h _ => nextDelivery h)
    (fun _ _ _ => trivial)
    (b := (.wakeDeliver true [⟨0, 0⟩], .pending, .ready (.error ⟨"ValueError", "bad tail"⟩),
      some (.exception ⟨"ValueError", "bad tail"⟩))) (by decide +kernel)
  simp only [nextDelivery, Prod.mk.injEq] at heq
  obtain ⟨hpc, hpending, hfound, hnext⟩ := heq
  obtain ⟨⟨h', evs⟩, hs, -⟩ := Option.map_eq_some_iff.mp hnext
  refine ⟨h, log, h', evs, hr, hs,
    (Hub.deliver_settles hr hpc (by simp [hpending, FutureState.done]) hfound hs).mpr ?_⟩
  rintro e he
  cases he
  decide

theorem Hub.deliver_strands : ¬ ∀ h log h' evs entry rest receiveOk result,
    (Hub.machine setException).Reachable h log → h.pc = .wakeDeliver receiveOk (entry :: rest) →
    (futureAt h.ops entry.future).done = false →
    completionAt h.ops entry.completion = .ready result →
    h.step setException (.loop false) = some (h', evs) →
    (futureAt h'.ops entry.future).done = true := by
  intro hall
  obtain ⟨h, log, hr, heq⟩ := Transition.Machine.reach_replay (m := Hub.machine setException)
    (takenRun (.error ⟨"StopIteration", ""⟩)) (fun h _ => nextDelivery h) (fun _ _ _ => trivial)
    (b := (.wakeDeliver true [⟨0, 0⟩], .pending, .ready (.error ⟨"StopIteration", ""⟩),
      some .pending)) (by decide +kernel)
  simp only [nextDelivery, Prod.mk.injEq] at heq
  obtain ⟨hpc, hpending, hfound, hnext⟩ := heq
  obtain ⟨⟨h', evs⟩, hs, hstill⟩ := Option.map_eq_some_iff.mp hnext
  have hdone := hall h log h' evs ⟨0, 0⟩ [] true _ hr hpc
    (by simp [hpending, FutureState.done]) hfound hs
  rw [hstill] at hdone
  cases hdone

end ProcessKit.Runtime
