import ProcessKit.Runtime.Step

/-!
# The map and the queue

A `Bridge` is what delivery depends on in a hub: the ids handed out so far,
the entries, the ready queue, and the entries the wake callback has taken and
not yet completed. `Bridge.Move` is every way a step of a hub can change it,
and `Step.move` says that there is no other.

The map and the queue go out of step on purpose: an id stays queued after its
entry was cancelled. What keeps a stale id from delivering anything is that
an id names one operation for good, which holds until the counter wraps.
-/

namespace ProcessKit.Runtime

def opId (k : Nat) : UInt64 := .ofNat (k + 1)

/-- The operation an id belongs to, as long as the counter has not wrapped. -/
def opOf (i : UInt64) : Nat := (i - 1).toNat

theorem opOf_opId (h : k < UInt64.size) : opOf (opId k) = k := by
  rw [opOf, opId, UInt64.ofNat_add, show UInt64.ofNat 1 = 1 from rfl, UInt64.add_sub_cancel,
    UInt64.toNat_ofNat_of_lt' h]

-- ---------------------------------------------------------------------------
-- What a log says
-- ---------------------------------------------------------------------------

def registeredIds (log : List Event) : List UInt64 :=
  log.filterMap fun | .registered _ i => some i | _ => none

def leftIds (log : List Event) : List UInt64 :=
  log.filterMap fun | .left _ i _ => some i | _ => none

def publishedOps (log : List Event) : List Nat :=
  log.filterMap fun | .published k => some k | _ => none

def completedOps (log : List Event) : List Nat :=
  log.filterMap fun | .completed k _ => some k | _ => none

section
variable (log evs : List Event)

@[simp] theorem registeredIds_append :
    registeredIds (log ++ evs) = registeredIds log ++ registeredIds evs := List.filterMap_append

@[simp] theorem leftIds_append : leftIds (log ++ evs) = leftIds log ++ leftIds evs :=
  List.filterMap_append

@[simp] theorem publishedOps_append :
    publishedOps (log ++ evs) = publishedOps log ++ publishedOps evs := List.filterMap_append

@[simp] theorem completedOps_append :
    completedOps (log ++ evs) = completedOps log ++ completedOps evs := List.filterMap_append

end

theorem mem_publishedOps {log : List Event} : k ∈ publishedOps log ↔ .published k ∈ log := by
  simp only [publishedOps, List.mem_filterMap]
  constructor
  · rintro ⟨e, he, hk⟩
    cases e <;> simp_all
  · exact fun h => ⟨_, h, rfl⟩

/-- An event of the tasks or the futures, which the map does not see. -/
def Event.outside : Event → Bool
  | .stored .. | .cancelConsumed _ | .cancelTried _ => true
  | .registered .. | .left .. | .published _ | .completed .. => false

theorem outside_projections {evs : List Event} (h : ∀ e ∈ evs, e.outside = true) :
    registeredIds evs = [] ∧ leftIds evs = [] ∧ publishedOps evs = [] ∧ completedOps evs = [] := by
  refine ⟨?_, ?_, ?_, ?_⟩ <;>
  · refine List.filterMap_eq_nil_iff.mpr fun e he => ?_
    have := h e he
    cases e <;> simp_all [Event.outside]

theorem leftIds_leftBy (exit : Exit) (taken : List (UInt64 × HubEntry)) :
    leftIds (leftBy exit taken) = taken.map Prod.fst := by
  simp [leftIds, leftBy, List.filterMap_map]

theorem registeredIds_leftBy (exit : Exit) (taken : List (UInt64 × HubEntry)) :
    registeredIds (leftBy exit taken) = [] := by
  simp [registeredIds, leftBy, List.filterMap_map]

theorem publishedOps_leftBy (exit : Exit) (taken : List (UInt64 × HubEntry)) :
    publishedOps (leftBy exit taken) = [] := by
  simp [publishedOps, leftBy, List.filterMap_map]

theorem completedOps_leftBy (exit : Exit) (taken : List (UInt64 × HubEntry)) :
    completedOps (leftBy exit taken) = [] := by
  simp [completedOps, leftBy, List.filterMap_map]

-- ---------------------------------------------------------------------------
-- The bridge and its moves
-- ---------------------------------------------------------------------------

structure Bridge where
  nextId : UInt64
  ids : List UInt64
  entries : AList fun _ : UInt64 => HubEntry
  ready : List UInt64
  taken : List HubEntry

def LoopPc.taken : LoopPc → List HubEntry
  | .wakeDeliver _ entries => entries
  | _ => []

def Hub.bridge (h : Hub) : Bridge where
  nextId := h.nextId
  ids := h.ops.map Operation.id
  entries := h.state.entries
  ready := h.state.ready
  taken := h.pc.taken

/-- `out` is the entries that `rest` lacks of `entries`, each once and under
its own id. -/
structure Removed (entries : AList fun _ : UInt64 => HubEntry) (out : List (UInt64 × HubEntry))
    (rest : AList fun _ : UInt64 => HubEntry) : Prop where
  filed : ∀ t ∈ out, entries.lookup t.1 = some t.2
  nodup : (out.map Prod.fst).Nodup
  kept : ∀ i e, rest.lookup i = some e → entries.lookup i = some e ∧ i ∉ out.map Prod.fst

namespace Bridge

inductive Move (b : Bridge) : List Event → Bridge → Prop
  | outside : (∀ e ∈ evs, e.outside = true) → Move b evs b
  | register : Move b [.registered b.ids.length b.nextId]
      { b with
        nextId := b.nextId + 1
        ids := b.ids ++ [b.nextId]
        entries := b.entries.insert b.nextId ⟨b.ids.length, b.ids.length⟩ }
  | cancel : Removed b.entries out rest →
      Move b (leftBy .cancel out) { b with entries := rest }
  | publish : b.ids[k]? = some i → Move b [.published k] { b with ready := b.ready ++ [i] }
  | take : b.taken = [] → Removed b.entries out rest → (out.map Prod.fst).Sublist b.ready →
      Move b (leftBy .takeReady out)
        { b with entries := rest, ready := [], taken := out.map Prod.snd }
  | deliver : b.taken = entry :: rest →
      Move b [.completed entry.future found] { b with taken := rest }
  | close (exit : Exit) : Removed b.entries out ∅ →
      Move b (leftBy exit out) { b with entries := ∅, ready := [] }

end Bridge

-- ---------------------------------------------------------------------------
-- What leaves the map
-- ---------------------------------------------------------------------------

theorem lookup_erase_some {entries : AList fun _ : UInt64 => HubEntry}
    (h : (entries.erase i).lookup j = some e) : j ≠ i ∧ entries.lookup j = some e := by
  by_cases hji : j = i
  · rw [hji, AList.lookup_erase] at h
    cases h
  · exact ⟨hji, by rwa [AList.lookup_erase_ne hji] at h⟩

theorem removed_cancelEvents (h : Hub) (i : UInt64) : ∃ out, h.cancelEvents i = leftBy .cancel out ∧
    Removed h.state.entries out (h.state.entries.erase i) := by
  unfold Hub.cancelEvents
  cases hl : h.state.entries.lookup i with
  | none => exact ⟨[], rfl, nofun, List.nodup_nil, fun j e hj => ⟨(lookup_erase_some hj).2, nofun⟩⟩
  | some entry =>
    refine ⟨[(i, entry)], rfl, by simpa using hl, List.nodup_singleton _, fun j e hj => ?_⟩
    exact ⟨(lookup_erase_some hj).2, by simpa using (lookup_erase_some hj).1⟩

theorem removeAll_removed (ids : List UInt64) (entries : AList fun _ : UInt64 => HubEntry) :
    Removed entries
      (CompletionHub.removeAll ids entries).1 (CompletionHub.removeAll ids entries).2 ∧
      ((CompletionHub.removeAll ids entries).1.map Prod.fst).Sublist ids := by
  induction ids generalizing entries with
  | nil => exact ⟨⟨nofun, List.nodup_nil, fun i e h => ⟨h, nofun⟩⟩, List.Sublist.refl _⟩
  | cons i ids ih =>
    simp only [CompletionHub.removeAll]
    cases hl : entries.lookup i with
    | none => exact ⟨(ih entries).1, (ih entries).2.cons i⟩
    | some entry =>
      obtain ⟨⟨hfiled, hnodup, hrest⟩, hsub⟩ := ih (entries.erase i)
      refine ⟨⟨?_, ?_, ?_⟩, hsub.cons_cons i⟩
      · rintro t (_ | ⟨_, ht⟩)
        · exact hl
        · exact (lookup_erase_some (hfiled t ht)).2
      · refine List.nodup_cons.mpr ⟨fun hmem => ?_, hnodup⟩
        obtain ⟨t, ht, rfl⟩ := List.mem_map.mp hmem
        exact (lookup_erase_some (hfiled t ht)).1 rfl
      · intro j e hj
        obtain ⟨hkept, hnot⟩ := hrest j e hj
        obtain ⟨hne, hlook⟩ := lookup_erase_some hkept
        refine ⟨hlook, fun hmem => ?_⟩
        rcases List.mem_cons.mp hmem with rfl | hmem
        · exact hne rfl
        · exact hnot hmem

theorem closeState_removed (hub : CompletionHub) (ho : order.Perm hub.state.entries.keys) :
    Removed hub.state.entries (hub.closeState order).2 ∅ := by
  have hnodup : order.Nodup := ho.nodup_iff.mpr hub.state.entries.keys_nodup
  have hfst : ∀ l : List UInt64,
      ((l.filterMap fun i => (hub.state.entries.lookup i).map (i, ·)).map Prod.fst).Sublist l := by
    intro l
    induction l with
    | nil => exact List.Sublist.refl _
    | cons i l ih =>
      cases hl : hub.state.entries.lookup i with
      | none => simpa [hl] using ih.cons i
      | some e => simpa [hl] using ih.cons_cons i
  refine ⟨?_, hnodup.sublist (hfst order), fun i e h => by simp at h⟩
  intro t ht
  simp only [CompletionHub.closeState, List.mem_filterMap, Option.map_eq_some_iff] at ht
  obtain ⟨i, -, e, hl, rfl⟩ := ht
  exact hl

theorem Removed.leaves {rest : AList fun _ : UInt64 => HubEntry} (hr : Removed entries out rest)
    (hgone : ∀ i ∈ ids, entries.lookup i = none) (hids : ids.Nodup) :
    (ids ++ out.map Prod.fst).Nodup ∧ ∀ i ∈ ids ++ out.map Prod.fst, rest.lookup i = none := by
  have hnone : ∀ i, entries.lookup i = none → rest.lookup i = none := by
    intro i hi
    by_contra hne
    obtain ⟨e, he⟩ := Option.ne_none_iff_exists'.mp hne
    rw [(hr.kept i e he).1] at hi
    cases hi
  refine ⟨List.nodup_append.mpr ⟨hids, hr.nodup, ?_⟩, fun i hi => ?_⟩
  · rintro i hi j hj rfl
    obtain ⟨t, ht, rfl⟩ := List.mem_map.mp hj
    have := hr.filed t ht
    rw [hgone _ hi] at this
    cases this
  · rcases List.mem_append.mp hi with hi | hi
    · exact hnone i (hgone i hi)
    · by_contra hne
      obtain ⟨e, he⟩ := Option.ne_none_iff_exists'.mp hne
      exact (hr.kept i e he).2 hi

-- ---------------------------------------------------------------------------
-- Filing: an id names the operation it was handed out for
-- ---------------------------------------------------------------------------

namespace Bridge

structure Filed (b : Bridge) (log : List Event) : Prop where
  nextId : b.nextId = opId b.ids.length
  ids : ∀ k i, b.ids[k]? = some i → i = opId k
  entries : ∀ i e, b.entries.lookup i = some e →
    e.completion = e.future ∧ e.future < b.ids.length ∧ i = opId e.future
  taken : ∀ e ∈ b.taken, e.completion = e.future ∧ e.future < b.ids.length
  registeredIds : registeredIds log = b.ids
  registered : ∀ k < b.ids.length, .registered k (opId k) ∈ log
  left : ∀ i ∈ leftIds log, ∃ k < b.ids.length, i = opId k
  published : ∀ k ∈ publishedOps log, k < b.ids.length

theorem Filed.init : Hub.new.bridge.Filed [] :=
  ⟨rfl, nofun, fun i e h => by simp [Hub.bridge, Hub.new, CompletionHub.new] at h, nofun, rfl,
    nofun,
    nofun, nofun⟩

theorem opId_succ (k : Nat) : opId k + 1 = opId (k + 1) := by
  simp [opId, UInt64.ofNat_add]

theorem Filed.removed {b : Bridge} (hi : b.Filed log) (hr : Removed b.entries out rest)
    (exit : Exit) (ready : List UInt64) {taken : List HubEntry}
    (ht : ∀ e ∈ taken, e.completion = e.future ∧ e.future < b.ids.length) :
    Filed { b with entries := rest, ready, taken } (log ++ leftBy exit out) where
  nextId := hi.nextId
  ids := hi.ids
  entries i e h := hi.entries i e (hr.kept i e h).1
  taken := ht
  registeredIds := by simp [registeredIds_leftBy, hi.registeredIds]
  registered k hk := List.mem_append_left _ (hi.registered k hk)
  left := by
    rw [leftIds_append, leftIds_leftBy]
    intro i h
    rcases List.mem_append.mp h with h | h
    · exact hi.left i h
    · obtain ⟨t, ht, rfl⟩ := List.mem_map.mp h
      obtain ⟨-, hlt, heq⟩ := hi.entries _ _ (hr.filed t ht)
      exact ⟨_, hlt, heq⟩
  published := by simpa [publishedOps_leftBy] using hi.published

theorem Filed.move {b b' : Bridge} (hi : b.Filed log) (hm : b.Move evs b') :
    b'.Filed (log ++ evs) := by
  cases hm with
  | outside he =>
    obtain ⟨hreg, hleft, hpub, -⟩ := outside_projections he
    exact { hi with
      registeredIds := by simp [hreg, hi.registeredIds]
      registered := fun k hk => List.mem_append_left _ (hi.registered k hk)
      left := by simpa [hleft] using hi.left
      published := by simpa [hpub] using hi.published }
  | register =>
    refine ⟨?_, ?_, ?_, fun e he => ⟨(hi.taken e he).1, ?_⟩, ?_, ?_, ?_, ?_⟩
    · simp [hi.nextId, opId_succ]
    · intro k i hk
      rcases Nat.lt_or_ge k b.ids.length with hlt | hge
      · exact hi.ids k i (by rwa [List.getElem?_append_left hlt] at hk)
      · rw [List.getElem?_append_right hge] at hk
        obtain ⟨hsub, hget⟩ := List.getElem?_eq_some_iff.mp hk
        obtain rfl : k = b.ids.length := by simp at hsub; omega
        rw [← hi.nextId]
        simpa using hget.symm
    · intro i e he
      by_cases hii : i = b.nextId
      · subst hii
        rw [AList.lookup_insert] at he
        cases he
        exact ⟨rfl, by simp, hi.nextId⟩
      · rw [AList.lookup_insert_ne hii] at he
        obtain ⟨hc, hlt, heq⟩ := hi.entries i e he
        exact ⟨hc, by simp; omega, heq⟩
    · have := (hi.taken e he).2
      simp; omega
    · rw [registeredIds_append, hi.registeredIds]
      rfl
    · intro k hk
      rcases Nat.lt_or_ge k b.ids.length with hlt | hge
      · exact List.mem_append_left _ (hi.registered k hlt)
      · obtain rfl : k = b.ids.length := by simp at hk; omega
        simp [hi.nextId]
    · intro i h
      obtain ⟨k, hk, rfl⟩ := hi.left i (by simpa [leftIds] using h)
      exact ⟨k, by simp; omega, rfl⟩
    · intro k h
      have := hi.published k (by simpa [publishedOps] using h)
      simp; omega
  | cancel hr => exact hi.removed hr .cancel b.ready hi.taken
  | publish hk =>
    obtain ⟨hlt, -⟩ := List.getElem?_eq_some_iff.mp hk
    exact { hi with
      registeredIds := by simp [ProcessKit.Runtime.registeredIds, ← hi.registeredIds]
      registered := fun k hk => List.mem_append_left _ (hi.registered k hk)
      left := by simpa [leftIds] using hi.left
      published := by
        intro k h
        rcases List.mem_append.mp (publishedOps_append _ _ ▸ h) with h | h
        · exact hi.published k h
        · obtain rfl : k = _ := by simpa [publishedOps] using h
          exact hlt }
  | take _ hr =>
    refine hi.removed hr .takeReady [] ?_
    intro e he
    obtain ⟨t, ht, rfl⟩ := List.mem_map.mp he
    exact ⟨(hi.entries _ _ (hr.filed t ht)).1, (hi.entries _ _ (hr.filed t ht)).2.1⟩
  | deliver htaken =>
    exact { hi with
      taken := fun e he => hi.taken e (by simp [htaken, he])
      registeredIds := by simp [ProcessKit.Runtime.registeredIds, ← hi.registeredIds]
      registered := fun k hk => List.mem_append_left _ (hi.registered k hk)
      left := by simpa [leftIds] using hi.left
      published := by simpa [publishedOps] using hi.published }
  | close exit hr => exact hi.removed hr exit [] hi.taken

theorem Filed.nodup {b : Bridge} (hi : b.Filed log) (hb : b.ids.length ≤ UInt64.size) :
    b.ids.Nodup := by
  refine List.Nodup.of_map opOf ?_
  have hrange : b.ids.map opOf = List.range b.ids.length := by
    refine List.ext_getElem (by simp) fun k hk _ => ?_
    have hlt : k < b.ids.length := by simpa using hk
    rw [List.getElem_map, hi.ids k _ (List.getElem?_eq_getElem hlt),
      opOf_opId (Nat.lt_of_lt_of_le hlt hb), List.getElem_range]
  exact hrange ▸ List.nodup_range

-- ---------------------------------------------------------------------------
-- At most once, and in order
-- ---------------------------------------------------------------------------

structure Once (b : Bridge) (log : List Event) : Prop where
  gone : ∀ i ∈ leftIds log, b.entries.lookup i = none
  leaves : (leftIds log).Nodup
  order : ∃ drained, publishedOps log = drained ++ b.ready.map opOf ∧
    (completedOps log ++ b.taken.map HubEntry.future).Sublist drained
  taken : ∀ e ∈ b.taken, .left e.future (opId e.future) .takeReady ∈ log

theorem Once.init : Hub.new.bridge.Once [] :=
  ⟨nofun, List.nodup_nil, ⟨[], rfl, List.nil_sublist _⟩, nofun⟩

theorem opId_ne (hj : j < UInt64.size) (hk : k < UInt64.size) (hne : j ≠ k) :
    opId j ≠ opId k := fun h =>
  hne (by rw [← opOf_opId hj, h, opOf_opId hk])

theorem Move.length_le (hm : Move b evs b') : b.ids.length ≤ b'.ids.length := by
  cases hm <;> simp

theorem Once.move {b b' : Bridge} (hi : b.Once log) (hf : b.Filed log) (hm : b.Move evs b')
    (hb : b'.ids.length ≤ UInt64.size) : b'.Once (log ++ evs) := by
  obtain ⟨hgone, hleaves, ⟨drained, hpub, hsub⟩, htaken⟩ := hi
  cases hm with
  | outside he =>
    obtain ⟨-, hleft, hpubs, hcompleted⟩ := outside_projections he
    refine ⟨by simpa [hleft] using hgone, by simpa [hleft] using hleaves,
      ⟨drained, by simpa [hpubs] using hpub, by simpa [hcompleted] using hsub⟩, ?_⟩
    exact fun e h => List.mem_append_left _ (htaken e h)
  | register =>
    have hlt : b.ids.length < UInt64.size := by
      simp only [List.length_append, List.length_singleton] at hb
      omega
    refine ⟨fun i h => ?_, by simpa [leftIds] using hleaves,
      ⟨drained, by simpa [publishedOps] using hpub, by simpa [completedOps] using hsub⟩, ?_⟩
    · have h : i ∈ leftIds log := by simpa [leftIds] using h
      obtain ⟨k, hk, rfl⟩ := hf.left i h
      have hne : opId k ≠ b.nextId := by
        rw [hf.nextId]
        exact opId_ne (by omega) hlt (by omega)
      rw [AList.lookup_insert_ne hne]
      exact hgone _ h
    · exact fun e h => List.mem_append_left _ (htaken e h)
  | cancel hr =>
    obtain ⟨hnodup, hout⟩ := hr.leaves hgone hleaves
    refine ⟨by simpa [leftIds_leftBy] using hout, by simpa [leftIds_leftBy] using hnodup,
      ⟨drained, by simpa [publishedOps_leftBy] using hpub,
        by simpa [completedOps_leftBy] using hsub⟩, ?_⟩
    exact fun e h => List.mem_append_left _ (htaken e h)
  | publish hk =>
    rename_i k i
    obtain ⟨hlt, -⟩ := List.getElem?_eq_some_iff.mp hk
    have hop : opOf i = k := by rw [hf.ids k i hk, opOf_opId (Nat.lt_of_lt_of_le hlt hb)]
    refine ⟨by simpa [leftIds] using hgone, by simpa [leftIds] using hleaves,
      ⟨drained, ?_, by simpa [completedOps] using hsub⟩, ?_⟩
    · rw [publishedOps_append, hpub]
      simp [publishedOps, hop]
    · exact fun e h => List.mem_append_left _ (htaken e h)
  | take hnone hr hready =>
    rename_i out rest
    obtain ⟨hnodup, hout⟩ := hr.leaves hgone hleaves
    have hfut : ∀ t ∈ out, opOf t.1 = t.2.future ∧ t.1 = opId t.2.future := by
      intro t ht
      obtain ⟨-, hlt, heq⟩ := hf.entries _ _ (hr.filed t ht)
      exact ⟨by rw [heq, opOf_opId (Nat.lt_of_lt_of_le hlt hb)], heq⟩
    refine ⟨by simpa [leftIds_leftBy] using hout, by simpa [leftIds_leftBy] using hnodup,
      ⟨drained ++ b.ready.map opOf, by simpa [publishedOps_leftBy] using hpub, ?_⟩, ?_⟩
    · have hdrain : (out.map fun t => t.2.future).Sublist (b.ready.map opOf) := by
        have hout : (out.map Prod.fst).map opOf = out.map fun t => t.2.future := by
          rw [List.map_map]
          exact List.map_congr_left fun t ht => (hfut t ht).1
        exact hout ▸ hready.map opOf
      rw [completedOps_append, completedOps_leftBy, List.append_nil, List.map_map]
      exact (by simpa [hnone] using hsub : (completedOps log).Sublist drained).append hdrain
    · intro e he
      obtain ⟨t, ht, rfl⟩ := List.mem_map.mp he
      refine List.mem_append_right _ (List.mem_map.mpr ⟨t, ht, ?_⟩)
      rw [(hfut t ht).2]
  | deliver hhead =>
    refine ⟨by simpa [leftIds] using hgone, by simpa [leftIds] using hleaves,
      ⟨drained, by simpa [publishedOps] using hpub, ?_⟩, ?_⟩
    · rw [hhead] at hsub
      simpa [completedOps] using hsub
    · exact fun e h => List.mem_append_left _ (htaken e (by simp [hhead, h]))
  | close exit hr =>
    have hnodup := (hr.leaves hgone hleaves).1
    refine ⟨by simp, by simpa [leftIds_leftBy] using hnodup,
      ⟨drained ++ b.ready.map opOf, by simpa [publishedOps_leftBy] using hpub, ?_⟩, ?_⟩
    · rw [completedOps_append, completedOps_leftBy, List.append_nil]
      exact hsub.trans (List.sublist_append_left _ _)
    · exact fun e h => List.mem_append_left _ (htaken e h)

end Bridge

-- ---------------------------------------------------------------------------
-- A step of the hub is a move of its bridge
-- ---------------------------------------------------------------------------

/-- A registration that has passed the lookup finds its hub open. -/
def Registering (h : Hub) : Prop := h.pc = .registering → h.state.closed = false

theorem Registering.step (hi : Registering h) (hs : Step refuses h a h' evs) : Registering h' := by
  cases hs with
  | lookup _ hopen => exact fun _ => hopen
  | recvByte | recvEof | recvFails | joinFailed | store | storeCancelled | poll => exact hi
  | publish | write => simpa [Registering] using hi
  | futureCancel hpc | doneCallback hpc => exact fun h => by simp [hpc] at h
  | cancelIdle | delivered | idleEnter | closeFutureRaises =>
    intro h
    split at h <;> cases h
  | _ => exact nofun

theorem ids_modify {ops : List Operation} (hf : ∀ o, ops[k]? = some o → (f o).id = o.id) :
    (ops.modify k f).map Operation.id = ops.map Operation.id := by
  apply List.ext_getElem?
  intro i
  rw [List.getElem?_map, List.getElem?_map, List.getElem?_modify]
  cases hi : ops[i]? with
  | none => rfl
  | some o =>
    by_cases hki : k = i
    · simpa [hki] using hf o (hki ▸ hi)
    · simp [hki]

theorem Step.move (hr : Registering h) (hs : Step refuses h a h' evs) :
    h.bridge.Move evs h'.bridge := by
  have houtside : ∀ {g : Hub} {evs : List Event}, g.bridge = h.bridge →
      (∀ e ∈ evs, e.outside = true) → h.bridge.Move evs g.bridge := by
    intro g evs hg he
    rw [hg]
    exact .outside he
  cases hs with
  | register hpc hfresh =>
    have hopen := hr hpc
    simp only [CompletionHub.register, hopen] at hfresh
    obtain rfl : h.nextId = _ := by simpa using hfresh
    simpa [Hub.bridge, CompletionHub.register, hopen, hpc, LoopPc.taken, Operation.new] using
      Bridge.Move.register (b := h.bridge)
  | registerClosed hpc hclosed => simp [CompletionHub.register, hr hpc] at hclosed
  | unregister hpc | cancelRemove hpc =>
    rename_i op
    obtain ⟨out, hout, hremoved⟩ := removed_cancelEvents h (h.idOf op)
    rw [hout]
    simpa [Hub.bridge, hpc, LoopPc.taken] using Bridge.Move.cancel (b := h.bridge) hremoved
  | takeReady hpc =>
    obtain ⟨hremoved, hsub⟩ := removeAll_removed h.state.ready h.state.entries
    simpa [Hub.bridge, hpc, LoopPc.taken, CompletionHub.takeReady] using
      Bridge.Move.take (b := h.bridge) (by simp [Hub.bridge, hpc, LoopPc.taken]) hremoved hsub
  | deliver hpc =>
    rename_i entry
    have hids := completeEntry_map refuses h.ops entry Operation.id (fun _ => rfl) fun _ _ => rfl
    simpa [Hub.bridge, hpc, LoopPc.taken, hids] using
      Bridge.Move.deliver (b := h.bridge) (by simp [Hub.bridge, hpc, LoopPc.taken])
  | closeState hpc ho | collect hpc ho =>
    simpa [Hub.bridge, hpc, LoopPc.taken] using
      Bridge.Move.close (b := h.bridge) _ (closeState_removed h.toCompletionHub ho)
  | publish hop hw =>
    rename_i op o
    cases hp : h.publishes o.id with
    | false =>
      rw [h.publish_neg hp]
      exact houtside (by simp [Hub.bridge, ids_modify]) nofun
    | true =>
      have hid : h.bridge.ids[op]? = some o.id := by simp [Hub.bridge, hop]
      simpa [Hub.bridge, h.publish_pos hp, ids_modify] using Bridge.Move.publish hid
  | poll hop hw =>
    rename_i op o work listening
    refine houtside ?_ fun e he => ?_
    · obtain ⟨worker, hpoll⟩ := pollCancellable_worker o listening work
      simp [Hub.bridge, ids_modify, hop, hpoll]
    · split at he
      · obtain rfl := List.mem_singleton.mp he
        rfl
      · cases he
  | store hop hw hj => exact houtside (by simp [Hub.bridge, ids_modify]) (by simp [Event.outside])
  | closeFuture hpc =>
    refine houtside ?_ (by simp [Event.outside])
    simp [Hub.bridge, ids_modify, hpc, LoopPc.taken]
  | closeFutureRaises hpc =>
    refine houtside ?_ (by simp [Event.outside])
    split <;> simp [Hub.bridge, hpc, LoopPc.taken]
  | delivered hpc | idleEnter hpc | cancelIdle hpc =>
    refine houtside ?_ nofun
    split <;> simp [Hub.bridge, hpc, LoopPc.taken]
  | recvByte | recvEof | recvFails => exact houtside rfl nofun
  | joinFailed | storeCancelled | write | futureCancel | doneCallback =>
    exact houtside (by simp [Hub.bridge, ids_modify]) nofun
  | lookup hpc | attachRaises hpc | attach hpc | cancelCallback hpc | cancelSend hpc
  | cancelWake hpc | wakeCallback hpc | idleCallback hpc | wakeRaises hpc | wakeCancelled hpc
  | wakeResult hpc | scheduleRaises hpc | schedule hpc | armRaises hpc | arm hpc
  | closeReaderRaises hpc | closeReader hpc | closeWriter hpc | closeDone hpc | dropWriter hpc =>
    exact houtside (by simp [Hub.bridge, ids_modify, hpc, LoopPc.taken]) nofun

end ProcessKit.Runtime
