import ProcessKit.Running.Iterators

/-!
# What the callers of an iterator get

Over any run of any of the five iterators: the items that the stream made are popped once each and
in order, what a call answers with is what the iterator makes of an item that it popped, in its
place in the stream, and the calls are answered in the order in which they came to the mutex. A
call that is dropped or times out has popped nothing but what the iterator skips. So nothing that
the iterator yields is lost to a call that gave up, and nothing is yielded twice.

An idle timeout is raised after the kill, when nothing is ready and a whole window has gone by in
which the call had the mutex and the stream made nothing but what the iterator skips.
-/

namespace ProcessKit.Running

open FairLock (Fifo Room Seated Visit)
open ProcessKit.Pickle (PkProcessEvent)
open Transition (Justified)

variable {κ ι α β : Type}

-- ---------------------------------------------------------------------------
-- Accounts of a log
-- ---------------------------------------------------------------------------

namespace ReadEvent

def entries (log : List (ReadEvent ι α β)) : List ι :=
  log.filterMap fun | .entered call => some call | _ => none

def answers (log : List (ReadEvent ι α β)) : List ι :=
  log.filterMap fun | .answered call _ _ => some call | _ => none

def dropouts (log : List (ReadEvent ι α β)) : List ι :=
  log.filterMap fun | .dropped call => some call | _ => none

def made (log : List (ReadEvent ι α β)) : List α :=
  log.filterMap fun | .produced item => some item | _ => none

def pops (log : List (ReadEvent ι α β)) : List (ι × α) :=
  log.filterMap fun | .popped call item => some (call, item) | _ => none

/-- The answers with an item. -/
def yields (log : List (ReadEvent ι α β)) : List (ι × β) :=
  log.filterMap fun | .answered call (.item value) _ => some (call, value) | _ => none

variable (log evs : List (ReadEvent ι α β))

@[simp] theorem entries_append : entries (log ++ evs) = entries log ++ entries evs :=
  List.filterMap_append ..

@[simp] theorem answers_append : answers (log ++ evs) = answers log ++ answers evs :=
  List.filterMap_append ..

@[simp] theorem dropouts_append : dropouts (log ++ evs) = dropouts log ++ dropouts evs :=
  List.filterMap_append ..

@[simp] theorem made_append : made (log ++ evs) = made log ++ made evs :=
  List.filterMap_append ..

@[simp] theorem pops_append : pops (log ++ evs) = pops log ++ pops evs :=
  List.filterMap_append ..

@[simp] theorem yields_append : yields (log ++ evs) = yields log ++ yields evs :=
  List.filterMap_append ..

theorem mem_answers_of_yields {log : List (ReadEvent ι α β)} (h : (call, value) ∈ yields log) :
    call ∈ answers log := by
  simp only [yields, answers, List.mem_filterMap] at h ⊢
  obtain ⟨ev, hev, hvalue⟩ := h
  refine ⟨ev, hev, ?_⟩
  split at hvalue <;> cases hvalue
  rfl

end ReadEvent

/-- What the iterator makes of all that is popped after the first `n` items. -/
def Reader.readAll (reader : Reader α β) (n : Nat) : List (ι × α) → List (ι × β)
  | [] => []
  | (call, item) :: rest =>
    ((reader.read (n + 1) item).map (call, ·)).toList ++ reader.readAll (n + 1) rest

theorem Reader.readAll_append (reader : Reader α β) (n : Nat) (xs ys : List (ι × α)) :
    reader.readAll n (xs ++ ys) = reader.readAll n xs ++ reader.readAll (n + xs.length) ys := by
  induction xs generalizing n with
  | nil => rfl
  | cons x xs ih => simp [Reader.readAll, ih, Nat.add_assoc, Nat.add_comm 1]

theorem Reader.mem_readAll (reader : Reader α β) (n : Nat) (hread : ∀ n, reader.read n item ≠ none)
    (h : (call, item) ∈ pops) : ∃ value, (call, value) ∈ reader.readAll n pops := by
  induction pops generalizing n with
  | nil => cases h
  | cons pop pops ih =>
    rcases List.mem_cons.mp h with rfl | h
    · obtain ⟨value, hvalue⟩ := Option.ne_none_iff_exists'.mp (hread (n + 1))
      exact ⟨value, by simp [Reader.readAll, hvalue]⟩
    · obtain ⟨value, hvalue⟩ := ih (n + 1) h
      exact ⟨value, by simp [Reader.readAll, hvalue]⟩

namespace OutputIterator

variable {reader : Reader α β} {window : Option Nat} {e : κ}
  {s s' : OutputIterator κ ι α} {log evs : List (ReadEvent ι α β)}

theorem Move.visit [DecidableEq ι] [DecidableEq κ] (h : Move reader window e s a s' evs) :
    Visit s.room s'.room (ReadEvent.entries evs) (ReadEvent.answers evs)
      (ReadEvent.dropouts evs) := by
  cases h with
  | enter houtside => exact .enters houtside
  | take hp | stop hp | lapse hp => exact .serves hp.holder
  | dropPolled _ hwaiting | drop hwaiting => exact .leaves hwaiting
  | _ => exact .stays

-- ---------------------------------------------------------------------------
-- The items
-- ---------------------------------------------------------------------------

inductive Flow (reader : Reader α β) (s s' : OutputIterator κ ι α)
    (evs : List (ReadEvent ι α β)) : Prop
  | still : s'.items = s.items → s'.lineCount = s.lineCount → ReadEvent.made evs = [] →
      ReadEvent.pops evs = [] → ReadEvent.yields evs = [] → Flow reader s s' evs
  | makes : s'.items = s.items ++ [item] → s'.lineCount = s.lineCount →
      ReadEvent.made evs = [item] → ReadEvent.pops evs = [] → ReadEvent.yields evs = [] →
      Flow reader s s' evs
  | pops : s.items = item :: s'.items → s'.lineCount = s.lineCount + 1 →
      ReadEvent.made evs = [] → ReadEvent.pops evs = [(call, item)] →
      ReadEvent.yields evs = ((reader.read s'.lineCount item).map (call, ·)).toList →
      Flow reader s s' evs

theorem Move.flow [DecidableEq ι] [DecidableEq κ] (h : Move reader window e s a s' evs) : Flow reader s s' evs := by
  cases h with
  | produce => exact .makes rfl rfl rfl rfl rfl
  | take hp htook hitems hread | renew hp htook hitems hread | skip hp htook hitems hread =>
    refine .pops hitems rfl rfl rfl ?_
    simp [ReadEvent.yields, answer, hread]
  | _ => exact .still rfl rfl rfl rfl rfl

/-- Every item is popped or ready, and what was popped was answered with. -/
structure Conserved (reader : Reader α β) (s : OutputIterator κ ι α)
    (log : List (ReadEvent ι α β)) : Prop where
  made : ReadEvent.made log = (ReadEvent.pops log).map Prod.snd ++ s.items
  count : s.lineCount = (ReadEvent.pops log).length
  yields : ReadEvent.yields log = reader.readAll 0 (ReadEvent.pops log)

theorem Conserved.init (source : Source κ) :
    Conserved reader (.new source : OutputIterator κ ι α) [] := ⟨rfl, rfl, rfl⟩

theorem Conserved.step (hi : Conserved reader s log) (h : Flow reader s s' evs) :
    Conserved reader s' (log ++ evs) := by
  cases h with
  | still hitems hcount hmade hpops hyields =>
    exact ⟨by simpa [hitems, hmade, hpops] using hi.made, by simpa [hcount, hpops] using hi.count,
      by simpa [hyields, hpops] using hi.yields⟩
  | makes hitems hcount hmade hpops hyields =>
    exact ⟨by simp [hitems, hmade, hpops, hi.made], by simpa [hcount, hpops] using hi.count,
      by simpa [hyields, hpops] using hi.yields⟩
  | pops hitems hcount hmade hpops hyields =>
    refine ⟨by simp [hmade, hpops, hi.made, hitems], by simp [hcount, hpops, hi.count], ?_⟩
    rw [ReadEvent.yields_append, ReadEvent.pops_append, Reader.readAll_append, hi.yields, hyields,
      hpops, hcount, hi.count]
    simp [Reader.readAll]

-- ---------------------------------------------------------------------------
-- The idle window
-- ---------------------------------------------------------------------------

/-- The iterator skips the item, and does not begin the window anew with it. -/
def Skipped (reader : Reader α β) (item : α) : Prop :=
  reader.renews = false ∧ ∃ n, reader.read n item = none

/-- The event is no activity on the watched channel. -/
def Silent (reader : Reader α β) : ReadEvent ι α β → Prop
  | .armed .. | .answered .. | .finished => False
  | .popped _ item | .produced item => Skipped reader item
  | .entered _ | .killed .. | .dropped _ => True

/-- The window of the call began then, and there has been no activity since. -/
def Idle (reader : Reader α β) (log : List (ReadEvent ι α β)) (call : ι) (since : Nat) : Prop :=
  ∃ before after, log = before ++ .armed call since :: after ∧ ∀ ev ∈ after, Silent reader ev

/-- The stream's own doing, which the call has yet to see. -/
def Unseen : ReadEvent ι α β → Prop
  | .produced _ | .finished => True
  | _ => False

/-- The window of the call began then, and the call has seen no activity since. -/
def Quiet (reader : Reader α β) (log : List (ReadEvent ι α β)) (call : ι) (since : Nat) : Prop :=
  ∃ before after, log = before ++ .armed call since :: after ∧
    (∀ ev ∈ after, Silent reader ev ∨ Unseen ev) ∧
      (ReadEvent.pops before).length ≤ (ReadEvent.made before).length

theorem Quiet.append (h : Quiet reader log call since)
    (hevs : ∀ ev ∈ evs, Silent reader ev ∨ Unseen ev) : Quiet reader (log ++ evs) call since := by
  obtain ⟨before, after, rfl, hafter, hmade⟩ := h
  refine ⟨before, after ++ evs, by simp, fun ev hev => ?_, hmade⟩
  exact (List.mem_append.mp hev).elim (hafter ev) (hevs ev)

theorem Conserved.pops_le (h : Conserved reader s log) :
    (ReadEvent.pops log).length ≤ (ReadEvent.made log).length := by
  simp [h.made]

theorem Idle.append_killed (h : Idle reader log call since) (found : Bool) :
    Idle reader (log ++ [.killed call found]) call since := by
  obtain ⟨before, after, rfl, hafter⟩ := h
  refine ⟨before, after ++ [.killed call found], by simp, fun ev hev => ?_⟩
  rcases List.mem_append.mp hev with hev | hev
  · exact hafter ev hev
  · cases List.mem_singleton.mp hev
    trivial

/-- What is made in a window at whose end nothing is ready has been popped in it. -/
theorem Quiet.idle (h : Quiet reader log call since)
    (hready : ReadEvent.made log = (ReadEvent.pops log).map Prod.snd)
    (hended : .finished ∉ log) : Idle reader log call since := by
  obtain ⟨before, after, rfl, hafter, hmade⟩ := h
  have hpopped : ReadEvent.made after <:+ (ReadEvent.pops after).map Prod.snd := by
    have hsplit : ReadEvent.made before ++ ReadEvent.made after =
        (ReadEvent.pops before).map Prod.snd ++ (ReadEvent.pops after).map Prod.snd := by
      simpa [ReadEvent.made, ReadEvent.pops] using hready
    have hmakes : ReadEvent.made after <:+
        (ReadEvent.pops before).map Prod.snd ++ (ReadEvent.pops after).map Prod.snd :=
      ⟨_, hsplit⟩
    refine List.suffix_of_suffix_length_le hmakes (List.suffix_append _ _) ?_
    have hlength := congrArg List.length hsplit
    simp only [List.length_append, List.length_map] at hlength ⊢
    omega
  refine ⟨before, after, rfl, fun ev hev => (hafter ev hev).elim id fun hunseen => ?_⟩
  cases ev with
  | produced item =>
    have hitem : item ∈ ReadEvent.made after := List.mem_filterMap.mpr ⟨_, hev, rfl⟩
    obtain ⟨⟨popper, item⟩, hpop, rfl⟩ := List.mem_map.mp (hpopped.subset hitem)
    obtain ⟨ev, hev, hpopped⟩ := List.mem_filterMap.mp hpop
    cases ev with
    | popped => cases hpopped; exact (hafter _ hev).elim id False.elim
    | _ => cases hpopped
  | finished => exact (hended (by simp [hev])).elim
  | _ => exact hunseen.elim

/-- Why a call may answer without an item: the stream is at its end and nothing is left of it, or
nothing is ready, the window is over and the kill has been made. -/
def Warranted (reader : Reader α β) (window : Option Nat) (before : List (ReadEvent ι α β)) :
    ReadEvent ι α β → Prop
  | .answered call (.idleTimeout width) now =>
    window = some width ∧ (∃ rest found, before = rest ++ [.killed call found]) ∧
      ReadEvent.made before = (ReadEvent.pops before).map Prod.snd ∧
      ∃ since, Idle reader before call since ∧ since + width ≤ now
  | .answered _ .stopAsyncIteration _ =>
    .finished ∈ before ∧ ReadEvent.made before = (ReadEvent.pops before).map Prod.snd
  | .produced _ | .finished => .finished ∉ before
  | .answered _ (.item _) _ | .entered _ | .armed .. | .popped .. | .killed .. | .dropped _ => True

def Ended (s : OutputIterator κ ι α) (log : List (ReadEvent ι α β)) : Prop :=
  s.ended = true ↔ .finished ∈ log

theorem Ended.step [DecidableEq ι] [DecidableEq κ] (hi : Ended s log)
    (h : Move reader window e s a s' evs) : Ended s' (log ++ evs) := by
  cases h with
  | finish => simp [Ended]
  | _ => simpa [Ended, answer] using hi

theorem Ended.not_finished (hi : Ended s log) (h : s.ended = false) : .finished ∉ log :=
  fun hfinished => by simp [hi.mpr hfinished] at h

/-- The window that is measured is that of the call that has the mutex. -/
def Armed (reader : Reader α β) (s : OutputIterator κ ι α) (log : List (ReadEvent ι α β)) : Prop :=
  ∀ since, s.armed = some since → ∃ call, s.room.holder = some call ∧ Quiet reader log call since

section
variable [DecidableEq ι] [DecidableEq κ]

theorem Armed.step (hi : Armed reader s log) (hc : Conserved reader s log)
    (h : Move reader window e s a s' evs) : Armed reader s' (log ++ evs) := by
  intro since harmed
  cases h with
  | enter hidle =>
    obtain ⟨call, hholder, hquiet⟩ := hi since harmed
    exact ⟨call, Room.holder_enter hholder, hquiet.append (by simp [Silent, Unseen])⟩
  | @begin call hholder _ =>
    cases harmed
    exact ⟨call, hholder, log, [], rfl, List.forall_mem_nil _, hc.pops_le⟩
  | take | stop | lapse | dropPolled => cases harmed
  | @renew call _ _ item _ hp _ hitems =>
    cases harmed
    refine ⟨call, hp.holder, log ++ [.popped call item], [], by simp, List.forall_mem_nil _, ?_⟩
    have hpop : ReadEvent.made [ReadEvent.popped (β := β) call item] = [] := rfl
    simp [hc.made, hitems, hpop, ReadEvent.pops]
  | skip hp _ _ hread hrenews =>
    obtain ⟨call, hholder, hquiet⟩ := hi since harmed
    exact ⟨call, hholder, hquiet.append (by simpa [Silent, Skipped, Unseen, hrenews] using ⟨_, hread⟩)⟩
  | @drop call _ hbehind =>
    obtain ⟨holder, hholder, hquiet⟩ := hi since harmed
    refine ⟨holder, Room.holder_leave hholder ?_, hquiet.append (by simp [Silent, Unseen])⟩
    rintro rfl
    rw [hbehind hholder] at harmed
    cases harmed
  | produce | finish | tick | source =>
    obtain ⟨call, hholder, hquiet⟩ := hi since harmed
    exact ⟨call, hholder, hquiet.append (by simp [Silent, Unseen])⟩

theorem Move.warranted (h : Move reader window e s a s' evs) (hi : Armed reader s log)
    (hc : Conserved reader s log) (he : Ended s log)
    (hj : Justified (Warranted reader window) log) :
    Justified (Warranted reader window) (log ++ evs) := by
  cases h with
  | take => exact hj.pair trivial trivial
  | renew => exact hj.pair trivial trivial
  | stop hp _ hitems hended =>
    exact hj.snoc ⟨he.mp hended, by simpa [hitems] using hc.made⟩
  | @lapse call since width src hp hwindow hwidth hitems hended =>
    obtain ⟨holder, hholder, hquiet⟩ := hi since hp.armed
    obtain rfl : call = holder := Option.some.inj (hp.holder.symm.trans hholder)
    have hready : ReadEvent.made log = (ReadEvent.pops log).map Prod.snd := by
      simpa [hitems] using hc.made
    have hidle := (hquiet.idle hready (he.not_finished hended)).append_killed
      s.source.handle.slot
    have hready' : ReadEvent.made (log ++ [.killed call s.source.handle.slot]) =
        (ReadEvent.pops (log ++ [.killed call s.source.handle.slot])).map Prod.snd := by
      simpa [ReadEvent.made, ReadEvent.pops] using hready
    exact hj.pair trivial ⟨hwindow, ⟨log, _, rfl⟩, hready', since, hidle, hwidth⟩
  | produce hended | finish hended => exact hj.snoc (he.not_finished hended)
  | enter | begin | skip | drop | dropPolled => exact hj.snoc trivial
  | tick | source => simpa using hj

end

end OutputIterator

-- ---------------------------------------------------------------------------
-- The drive below
-- ---------------------------------------------------------------------------

namespace Source

variable [DecidableEq κ] {e : κ} {source source' : Source κ}

def Driven (e : κ) (source : Source κ) : Prop :=
  ∀ d, source = .drive d → ∃ log, (EventsDrive.machine e).Reachable d log

/-- The crate's own stream, or a drive that no call has polled. -/
def Fresh (source : Source κ) : Prop := source = .stream .started ∨ source = .drive .new

theorem Driven.stream (e : κ) (handle : Handle κ) : (Source.stream handle).Driven e := by
  rintro d ⟨⟩

theorem Fresh.driven (h : source.Fresh) (e : κ) : source.Driven e := by
  rcases h with rfl | rfl
  · exact .stream e _
  · rintro d ⟨⟩
    exact ⟨[], .init⟩

theorem Driven.step {d : EventsDrive κ} (h : (Source.drive d).Driven e)
    (hs : (d.step e a).map (fun next => Source.drive next.1) = some source') :
    source'.Driven e := by
  obtain ⟨next, hnext, rfl⟩ := Option.map_eq_some_iff.mp hs
  obtain ⟨log, hreach⟩ := h d rfl
  rintro d' ⟨⟩
  exact ⟨log ++ next.2, hreach.step trivial hnext⟩

theorem Driven.took (h : source.Driven e) (hs : source.took e = some source') :
    source'.Driven e := by
  cases source with
  | stream handle =>
    cases hs
    exact h
  | drive d => exact h.step hs

theorem Driven.dropped (h : source.Driven e) (hs : source.dropped e = some source') :
    source'.Driven e := by
  cases source with
  | stream handle =>
    cases hs
    exact h
  | drive d => exact h.step hs

theorem Driven.advance (h : source.Driven e) (hs : source.advance e polled a = some source') :
    source'.Driven e := by
  cases source with
  | stream handle =>
    cases a with
    | other a =>
      simp only [Source.advance] at hs
      split at hs
      · cases hs
      · obtain ⟨next, -, rfl⟩ := Option.map_eq_some_iff.mp hs
        exact .stream e _
    | _ => cases hs
  | drive d =>
    cases a with
    | other a => exact h.step hs
    | event | drop => cases hs
    | poll | decide | timer | probe | join =>
      simp only [Source.advance] at hs
      split at hs
      · exact h.step hs
      · cases hs

end Source

-- ---------------------------------------------------------------------------
-- Every run of an iterator
-- ---------------------------------------------------------------------------

namespace OutputIterator

variable [DecidableEq ι] [DecidableEq κ] {reader : Reader α β} {window : Option Nat} {e : κ}
  {source : Source κ} {s s' : OutputIterator κ ι α} {log evs : List (ReadEvent ι α β)}

theorem Move.driven (h : Move reader window e s a s' evs) (hd : s.source.Driven e) :
    s'.source.Driven e := by
  cases h with
  | take _ htook | renew _ htook | skip _ htook | stop _ htook => exact hd.took htook
  | lapse _ _ _ _ _ hdropped | dropPolled _ _ hdropped => exact hd.dropped hdropped
  | source hsource => exact hd.advance hsource
  | _ => exact hd

/-- What an iterator promises of its calls, whatever their order. -/
structure Delivers (reader : Reader α β) (window : Option Nat) (e : κ) (s : OutputIterator κ ι α)
    (log : List (ReadEvent ι α β)) : Prop where
  made : ReadEvent.made log = (ReadEvent.pops log).map Prod.snd ++ s.items
  yields : ReadEvent.yields log = reader.readAll 0 (ReadEvent.pops log)
  lost : ∀ call item, (call, item) ∈ ReadEvent.pops log → call ∉ ReadEvent.answers log →
    ∃ n, reader.read n item = none
  once : (ReadEvent.entries log).Nodup
  turn : (ReadEvent.answers log).Sublist (ReadEvent.entries log)
  apart : ∀ call ∈ ReadEvent.dropouts log, call ∉ ReadEvent.answers log
  accounted : ∀ call ∈ ReadEvent.entries log,
    call ∈ s.room.line.calls ∨ call ∈ ReadEvent.answers log ∨ call ∈ ReadEvent.dropouts log
  warranted : Justified (Warranted reader window) log
  watched : ∀ d, s.source = .drive d → d.Watched e

structure Iterating (reader : Reader α β) (window : Option Nat) (e : κ)
    (s : OutputIterator κ ι α) (log : List (ReadEvent ι α β)) : Prop where
  seated : Seated s.room (ReadEvent.entries log) (ReadEvent.answers log) (ReadEvent.dropouts log)
  conserved : Conserved reader s log
  ended : Ended s log
  armed : Armed reader s log
  warranted : Justified (Warranted reader window) log
  driven : s.source.Driven e

theorem Iterating.step (hi : Iterating reader window e s log)
    (h : Move reader window e s a s' evs) : Iterating reader window e s' (log ++ evs) where
  seated := by simpa using hi.seated.step h.visit
  conserved := hi.conserved.step h.flow
  ended := hi.ended.step h
  armed := hi.armed.step hi.conserved h
  warranted := h.warranted hi.armed hi.conserved hi.ended hi.warranted
  driven := h.driven hi.driven

theorem Iterating.of_reachable (hfifo : Fifo grant) (hsource : source.Driven e)
    (hr : (machine (ι := ι) grant reader window e source).Reachable s log) :
    Iterating reader window e s log :=
  hr.invariant ⟨.empty, .init source, by simp [Ended, machine, OutputIterator.new], nofun, .nil, hsource⟩
    fun _ _ _ _ _ hi _ hs => hi.step (.of_step hfifo hs)

omit [DecidableEq ι] in
theorem Iterating.hands_over (hi : Iterating reader window e s log) :
    Delivers reader window e s log where
  made := hi.conserved.made
  yields := hi.conserved.yields
  lost call item hpop hgone := by
    by_contra hread
    obtain ⟨value, hvalue⟩ := reader.mem_readAll 0 (not_exists.mp hread) hpop
    rw [← hi.conserved.yields] at hvalue
    exact hgone (ReadEvent.mem_answers_of_yields hvalue)
  once := hi.seated.once
  turn := hi.seated.turn.order
  apart _ hdrop := hi.seated.not_served hdrop
  accounted _ hentered := hi.seated.accounted hentered
  warranted := hi.warranted
  watched d hd := by
    obtain ⟨log, hreach⟩ := hi.driven d hd
    exact EventsDrive.watched hreach

/-- One call skips a line of stdout and is dropped, the next gets the line of stderr after it, and
the third waits out its window. -/
def overlapping : List (Reading Nat Nat PkProcessEvent) :=
  [.enter 1, .enter 2, .produce (.stdout "a"), .produce (.stderr "b"), .begin, .source .poll,
    .source .decide, .next, .source .poll, .source .decide, .drop 1, .begin, .source .poll,
    .source .decide, .next, .enter 3, .begin, .source .poll, .source .decide, .tick, .lapse]

end OutputIterator

end ProcessKit.Running
