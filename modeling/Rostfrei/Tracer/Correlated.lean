import Rostfrei.Concrete
import Rostfrei.Lib.Numbered
import Rostfrei.Tracer.Correlation

/-!
# Readers of a correlation

A record keeps the last events and its readers keep a cursor. A reader has lost events if the oldest
event that is kept is not the next one after its cursor; that is all it looks at, so it relies on
ids without gaps. `append` takes an id for an event that it then refuses, which makes such a gap
(`refused_append_lags`). Without refused appends the ids have none, and `correlated_sound` holds.

`Correlated` is the record, the events that were appended so far, and the readers.
-/

namespace Rostfrei.Tracer

open Lib

/-- Why `next` has returned `None`. -/
inductive SubscriptionEnd where
  | lagged
  | closed
deriving DecidableEq, Repr

/-- A subscription: the cursor it started at, where it is now, the events that it has yielded, and
why `next` has returned `None`, if it has. -/
structure CorrelationSubscription where
  after : Nat
  cursor : Nat
  yielded : List CorrelationEvent
  ended : Option SubscriptionEnd
deriving DecidableEq

/-- A locked section of `next`. -/
def CorrelationSubscription.next (subscription : CorrelationSubscription)
    (record : CorrelationRecord) : CorrelationSubscription :=
  let (event, isClosed, isLagged) := record.eventAfterOrClosed subscription.cursor
  if isLagged then { subscription with ended := some .lagged }
  else
    match event with
    | some event =>
      { subscription with cursor := event.id, yielded := subscription.yielded ++ [event] }
    | none => if isClosed then { subscription with ended := some .closed } else subscription

structure Correlated where
  record : CorrelationRecord
  appended : List CorrelationEvent
  subscriptions : List CorrelationSubscription

inductive CorrelationStep where
  | append (kind : CorrelationEventKind)
  | subscribe (after : Nat)
  | next (subscription : Nat)
  | close

section

variable [Crates]

namespace Correlated

/-- A locked section of the record or of one of its readers. -/
def apply (s : Correlated) : CorrelationStep → Option Correlated
  | .append kind =>
    let (result, record) := s.record.append kind
    some { s with record := record, appended := s.appended ++ result.toOption.toList }
  | .subscribe after =>
    match s.record.subscribe after with
    | .ok record =>
      some { s with
        record := record
        subscriptions := s.subscriptions ++ [⟨after, after, [], none⟩] }
    | .error _ => some s
  | .next subscription => s.subscriptions[subscription]?.map fun reader =>
      { s with subscriptions := s.subscriptions.set subscription (reader.next s.record) }
  | .close => some { s with record := s.record.close }

/-- The runs of a record that `register_command` has made. -/
def machine (maximumCorrelations : Nat) : Machine Correlated CorrelationStep where
  start s := s.subscriptions = [] ∧ s.appended = s.record.state.events ∧
    ∃ correlationId mode initial, .ok s.record = CorrelationRecord.new correlationId mode
      defaultMaximumEventsPerCorrelation (correlationByteBudget maximumCorrelations) initial
  step s label s' := s.apply label = some s'

/-- The event is not refused for its size, and there is a number for it. -/
def Accepts (s : Correlated) : CorrelationStep → Prop
  | .append kind => s.record.closed = false →
      s.record.state.nextId < counterMax ∧
        ∃ event, boundedEvent ⟨s.record.state.nextId, s.record.correlationId, kind⟩
          s.record.maximumBytes = .ok event
  | _ => True

end Correlated

/-! ## Appending -/

theorem serializedEventLen_le_of_boundedEvent {event event' : CorrelationEvent} {maximumBytes : Nat}
    (h : boundedEvent event maximumBytes = .ok event') :
    event'.id = event.id ∧ serializedEventLen event' ≤ maximumBytes := by
  unfold boundedEvent at h
  split at h
  · next hfits =>
    obtain rfl := Except.ok.inj h
    exact ⟨rfl, hfits⟩
  split at h
  · cases h
  dsimp only at h
  split at h
  · next hfits =>
    obtain rfl := Except.ok.inj h
    exact ⟨rfl, hfits⟩
  · cases h

/-- The size of a list of events. -/
def eventsLen (events : List CorrelationEvent) : Nat := (events.map serializedEventLen).sum

/-- The loop of `append` leaves the last events, within both limits. -/
theorem evictEvents_spec {maximumEvents maximumBytes : Nat} {events : List CorrelationEvent}
    (hmaximum : 0 < maximumEvents) (hfits : ∀ event ∈ events, serializedEventLen event ≤ maximumBytes) :
    let kept := evictEvents maximumEvents maximumBytes events (eventsLen events)
    kept.1 <:+ events ∧ kept.2 = eventsLen kept.1 ∧ kept.1.length ≤ maximumEvents ∧
      kept.2 ≤ maximumBytes ∧ (events ≠ [] → kept.1 ≠ []) := by
  induction events with
  | nil => simp [evictEvents, eventsLen]
  | cons event events ih =>
    obtain ⟨hevent, hrest⟩ := List.forall_mem_cons.mp hfits
    have hlen : eventsLen (event :: events) = serializedEventLen event + eventsLen events := by
      simp [eventsLen]
    simp only [evictEvents]
    split
    · next hfull =>
      rw [hlen, Nat.add_sub_cancel_left] at *
      obtain ⟨hsuffix, hbytes, hcount, hsize, hnonempty⟩ := ih hrest
      refine ⟨hsuffix.trans (List.suffix_cons _ _), hbytes, hcount, hsize, fun _ => hnonempty ?_⟩
      rintro rfl
      simp only [List.length_singleton, eventsLen, List.map_nil, List.sum_nil] at hfull
      omega
    · next hroom =>
      push Not at hroom
      exact ⟨List.suffix_refl _, rfl, hroom.1, hroom.2, fun h => h⟩

omit [Crates] in
theorem saturatingAdd_lt_iff {a b n : Nat} (hn : n ≤ counterMax) :
    saturatingAdd a b < n ↔ a + b < n := by
  rw [saturatingAdd, min_lt_iff, or_iff_left (Nat.not_lt.mpr hn)]

omit [Crates] in
theorem saturatingAdd_eq {a b : Nat} (h : a + b ≤ counterMax) : saturatingAdd a b = a + b :=
  min_eq_left h

/-- The events that were appended, of which the record keeps the last ones. -/
structure Logged (record : CorrelationRecord) (appended : List CorrelationEvent) : Prop where
  limits : 0 < record.maximumEvents ∧ record.maximumBytes ≤ defaultMaximumBytesPerCorrelation
  numbered : Numbered (·.id) 1 appended
  nextId : record.state.nextId = appended.length + 1
  nextId_le : record.state.nextId ≤ counterMax
  kept : record.state.events <:+ appended
  nonempty : record.state.events ≠ []
  count : record.state.events.length ≤ record.maximumEvents
  fits : ∀ event ∈ record.state.events, serializedEventLen event ≤ record.maximumBytes
  bytes : record.state.retainedBytes = eventsLen record.state.events
  size : eventsLen record.state.events ≤ record.maximumBytes

namespace Logged

variable {record : CorrelationRecord} {appended : List CorrelationEvent} {cursor : Nat}

/-- The start of a record that the hub makes. -/
theorem new {correlationId : String} {mode : OperationMode} {maximumCorrelations : Nat}
    {initial : CorrelationEventKind}
    (h : CorrelationRecord.new correlationId mode defaultMaximumEventsPerCorrelation
      (correlationByteBudget maximumCorrelations) initial = .ok record) :
    Logged record record.state.events := by
  simp only [CorrelationRecord.new, bind_eq_ok, pure_eq_ok] at h
  obtain ⟨event, hevent, rfl⟩ := h
  obtain ⟨hid, hfits⟩ := serializedEventLen_le_of_boundedEvent hevent
  have hlen : eventsLen [event] = serializedEventLen event := by simp [eventsLen]
  exact
    { limits := ⟨show 0 < defaultMaximumEventsPerCorrelation by decide, min_le_right _ _⟩
      numbered := by simp [Numbered, hid]
      nextId := rfl
      nextId_le := show 2 ≤ counterMax by decide
      kept := List.suffix_refl _
      nonempty := List.cons_ne_nil _ _
      count := show 1 ≤ defaultMaximumEventsPerCorrelation by decide
      fits := by simpa using hfits
      bytes := hlen.symm
      size := hlen.trans_le hfits }

/-- An append that is not refused. The record drops only events that it kept before. -/
theorem append (h : Logged record appended) (hopen : record.closed = false)
    {kind : CorrelationEventKind} {event : CorrelationEvent}
    (hid : record.state.nextId < counterMax)
    (hevent : boundedEvent ⟨record.state.nextId, record.correlationId, kind⟩ record.maximumBytes =
      .ok event) :
    ∃ state, record.append kind = (.ok event, { record with state := state }) ∧
      Logged { record with state := state } (appended ++ [event]) ∧
      state.events.length ≤ record.state.events.length + 1 := by
  obtain ⟨heq, hfits⟩ := serializedEventLen_le_of_boundedEvent hevent
  have hall : ∀ e ∈ record.state.events ++ [event], serializedEventLen e ≤ record.maximumBytes := by
    simpa [or_imp, forall_and] using ⟨h.fits, hfits⟩
  have hsum : eventsLen (record.state.events ++ [event]) =
      eventsLen record.state.events + serializedEventLen event := by
    simp [eventsLen]
  have hbytes : saturatingAdd record.state.retainedBytes (serializedEventLen event) =
      eventsLen (record.state.events ++ [event]) := by
    rw [hsum, h.bytes]
    have htwo : defaultMaximumBytesPerCorrelation + defaultMaximumBytesPerCorrelation ≤
        counterMax := by decide
    exact saturatingAdd_eq ((Nat.add_le_add (h.size.trans h.limits.2)
      (hfits.trans h.limits.2)).trans htwo)
  have hspec := evictEvents_spec h.limits.1 hall
  dsimp only at hspec
  obtain ⟨⟨events, bytes⟩, hevict⟩ : ∃ kept, evictEvents record.maximumEvents record.maximumBytes
    (record.state.events ++ [event]) (eventsLen (record.state.events ++ [event])) = kept := ⟨_, rfl⟩
  rw [hevict] at hspec
  obtain ⟨hsuffix, hkept, hcount, hsize, hnonempty⟩ := hspec
  refine ⟨⟨record.state.nextId + 1, events, bytes⟩, ?_, ?_, ?_⟩
  · simp only [CorrelationRecord.append, CorrelationState.append, hopen, hevent, hbytes, hevict,
      saturatingAdd_eq (show record.state.nextId + 1 ≤ counterMax from hid), Bool.false_eq_true,
      if_false]
  · exact
      { limits := h.limits
        numbered := h.numbered.snoc (heq.trans (h.nextId.trans (Nat.add_comm _ _)))
        nextId := by simp [h.nextId]
        nextId_le := hid
        kept := by
          obtain ⟨before, hbefore⟩ := h.kept
          exact hsuffix.trans ⟨before, by rw [← List.append_assoc, hbefore]⟩
        nonempty := hnonempty (by simp)
        count := hcount
        fits := fun e he => hall e (hsuffix.subset he)
        bytes := hkept
        size := hkept ▸ hsize }
  · simpa using hsuffix.length_le

/-- The number of the first event that is kept. -/
theorem head? (h : Logged record appended) :
    ∃ oldest, record.state.events.head? = some oldest ∧
      oldest.id + record.state.events.length = appended.length + 1 := by
  obtain ⟨before, rfl⟩ := h.kept
  obtain ⟨oldest, rest, heq⟩ := List.exists_cons_of_ne_nil h.nonempty
  have hwindow := h.numbered.window
  refine ⟨oldest, by rw [heq, List.head?_cons], ?_⟩
  rw [hwindow.head? (by rw [heq, List.head?_cons]), List.length_append]
  omega

/-- An event after a cursor that is before the first event that is kept has been evicted. -/
theorem evicted (h : Logged record appended)
    (hcursor : cursor + record.state.events.length < appended.length) :
    ∃ event ∈ appended, cursor < event.id ∧ event ∉ record.state.events := by
  have hlt : cursor < appended.length := Nat.lt_of_le_of_lt (Nat.le_add_right _ _) hcursor
  refine ⟨appended[cursor], List.getElem_mem hlt, ?_, fun hmem => ?_⟩
  · rw [h.numbered.getElem? (List.getElem?_eq_getElem hlt)]
    omega
  · obtain ⟨before, rfl⟩ := h.kept
    obtain ⟨i, hi⟩ := List.mem_iff_getElem?.mp hmem
    have hnumber := h.numbered.window.getElem? hi
    rw [h.numbered.getElem? (List.getElem?_eq_getElem hlt)] at hnumber
    rw [List.length_append] at hcursor
    omega

theorem lagged_iff (h : Logged record appended) :
    (record.eventAfterOrClosed cursor).2.2 = true ↔
      cursor + record.state.events.length < appended.length := by
  obtain ⟨oldest, hhead, hid⟩ := h.head?
  have hle : oldest.id ≤ counterMax := by
    have := h.nextId_le
    rw [h.nextId, ← hid] at this
    exact (Nat.le_add_right _ _).trans this
  simp only [CorrelationRecord.eventAfterOrClosed, hhead, Option.any_some, decide_eq_true_eq,
    saturatingAdd_lt_iff hle]
  omega

/-- What a reader that does not lag finds. -/
theorem find? (h : Logged record appended)
    (hcursor : appended.length ≤ cursor + record.state.events.length) :
    (record.state.events.find? fun event => event.id > cursor) = appended[cursor]? := by
  obtain ⟨before, rfl⟩ := h.kept
  rw [List.length_append, Nat.add_comm] at hcursor
  have hle : before.length ≤ cursor := Nat.le_of_add_le_add_left (by rwa [Nat.add_comm cursor] at hcursor)
  obtain ⟨i, rfl⟩ := Nat.exists_eq_add_of_le hle
  have := h.numbered.window.find? i
  rw [List.getElem?_append_right (Nat.le_add_right _ _), Nat.add_sub_cancel_left, ← this]

end Logged

/-! ## Readers -/

/-- A reader of a record that has dropped its first `evicted` events. -/
structure CorrelationSubscription.Follows (appended : List CorrelationEvent) (evicted : Nat)
    (subscription : CorrelationSubscription) : Prop where
  after_le : subscription.after ≤ subscription.cursor
  cursor_le : subscription.cursor ≤ appended.length
  yielded : subscription.yielded = (appended.take subscription.cursor).drop subscription.after
  lagged : subscription.ended = some .lagged → subscription.cursor < evicted

/-- What `next` does to a reader. -/
def CorrelationSubscription.Advances (record : CorrelationRecord)
    (appended : List CorrelationEvent) (subscription : CorrelationSubscription) : Prop :=
  (subscription.next record).ended = some .lagged ∨
    subscription.next record =
      match appended[subscription.cursor]? with
      | some event =>
        { subscription with
          cursor := subscription.cursor + 1, yielded := subscription.yielded ++ [event] }
      | none => if record.closed then { subscription with ended := some .closed } else subscription

namespace Logged

variable {record : CorrelationRecord} {appended : List CorrelationEvent}
  {subscription : CorrelationSubscription}

theorem next_of_lagged (h : Logged record appended)
    (hlag : subscription.cursor + record.state.events.length < appended.length) :
    subscription.next record = { subscription with ended := some .lagged } := by
  rw [← h.lagged_iff] at hlag
  simp [CorrelationSubscription.next, hlag]

theorem next_of_not_lagged (h : Logged record appended)
    (hlag : appended.length ≤ subscription.cursor + record.state.events.length) :
    subscription.next record =
      match appended[subscription.cursor]? with
      | some event =>
        { subscription with
          cursor := subscription.cursor + 1, yielded := subscription.yielded ++ [event] }
      | none =>
        if record.closed then { subscription with ended := some .closed } else subscription := by
  have hnot : (record.eventAfterOrClosed subscription.cursor).2.2 = false := by
    rw [← Bool.not_eq_true, h.lagged_iff]
    exact Nat.not_lt.mpr hlag
  have hfind := h.find? hlag
  cases hnext : appended[subscription.cursor]? with
  | none =>
    rw [hnext] at hfind
    have hend : (record.eventAfterOrClosed subscription.cursor).1 = none := hfind
    have hclosed : (record.eventAfterOrClosed subscription.cursor).2.1 = record.closed := by
      simp [CorrelationRecord.eventAfterOrClosed, hfind]
    simp [CorrelationSubscription.next, hnot, hend, hclosed]
  | some event =>
    rw [hnext] at hfind
    have hevent : (record.eventAfterOrClosed subscription.cursor).1 = some event := hfind
    have hid := h.numbered.getElem? hnext
    simp [CorrelationSubscription.next, hnot, hevent, hid, Nat.add_comm]

theorem advances (h : Logged record appended) : subscription.Advances record appended := by
  rcases Nat.lt_or_ge (subscription.cursor + record.state.events.length) appended.length with
    hlag | hlag
  · exact .inl (by rw [h.next_of_lagged hlag])
  · exact .inr (h.next_of_not_lagged hlag)

/-- A reader follows the record through `next`. -/
theorem follows_next (h : Logged record appended)
    (hfollows : subscription.Follows appended (appended.length - record.state.events.length)) :
    (subscription.next record).Follows appended (appended.length - record.state.events.length) := by
  have hlength := h.kept.length_le
  rcases Nat.lt_or_ge (subscription.cursor + record.state.events.length) appended.length with
    hlag | hlag
  · rw [h.next_of_lagged hlag]
    exact { hfollows with lagged := fun _ => Nat.lt_sub_of_add_lt hlag }
  · rw [h.next_of_not_lagged hlag]
    cases hnext : appended[subscription.cursor]? with
    | none =>
      dsimp only
      split
      · exact { hfollows with lagged := fun hend => by cases hend }
      · exact hfollows
    | some event =>
      have hlt := (List.getElem?_eq_some_iff.mp hnext).1
      exact
        { after_le := Nat.le_succ_of_le hfollows.after_le
          cursor_le := hlt
          yielded := by rw [drop_take_succ hfollows.after_le hnext, hfollows.yielded]
          lagged := fun hend => by
            have := hfollows.lagged hend
            omega }

end Logged

omit [Crates] in
/-- A reader follows the record through an append. -/
theorem CorrelationSubscription.Follows.append {appended : List CorrelationEvent}
    {evicted evicted' : Nat} {subscription : CorrelationSubscription}
    (h : subscription.Follows appended evicted) (hle : evicted ≤ evicted')
    (event : CorrelationEvent) : subscription.Follows (appended ++ [event]) evicted' where
  after_le := h.after_le
  cursor_le := by
    rw [List.length_append]
    exact Nat.le_add_right_of_le h.cursor_le
  yielded := by rw [List.take_append_of_le_length h.cursor_le, h.yielded]
  lagged hend := Nat.lt_of_lt_of_le (h.lagged hend) hle

theorem Logged.subscribe_expired {record : CorrelationRecord} {appended : List CorrelationEvent}
    (h : Logged record appended) {after oldest : Nat}
    (hexpired : record.subscribe after = .error (.expiredCursor oldest)) :
    after + record.state.events.length < appended.length := by
  obtain ⟨first, hhead, hid⟩ := h.head?
  have hle : first.id ≤ counterMax := by
    have := h.nextId_le
    rw [h.nextId, ← hid] at this
    exact (Nat.le_add_right _ _).trans this
  by_contra hkept
  have hoccupied : ¬ after + 1 < first.id := by omega
  have hother : ∀ e, record.subscribe after = .error e → e ≠ .expiredCursor oldest := by
    intro e he
    simp only [CorrelationRecord.subscribe, hhead, Option.map_some, Option.getD_some,
      saturatingAdd_lt_iff hle, hoccupied, rejectIf, if_false] at he
    split_ifs at he <;> cases he <;> simp
  exact hother _ hexpired rfl

namespace Correlated

variable {maximumCorrelations : Nat} {s s' : Correlated}

structure Invariant (maximumCorrelations : Nat) (s : Correlated) : Prop where
  logged : Logged s.record s.appended
  maximumEvents : s.record.maximumEvents = defaultMaximumEventsPerCorrelation
  maximumBytes : s.record.maximumBytes = correlationByteBudget maximumCorrelations
  follows : ∀ subscription ∈ s.subscriptions,
    subscription.Follows s.appended (s.appended.length - s.record.state.events.length)

theorem Invariant.append (h : Invariant maximumCorrelations s) {kind : CorrelationEventKind}
    (hstep : s.apply (.append kind) = some s') (haccepts : s.Accepts (.append kind)) :
    Invariant maximumCorrelations s' := by
  cases hclosed : s.record.closed with
  | true =>
    obtain rfl : s = s' := by
      simpa [apply, CorrelationRecord.append, hclosed, Except.toOption] using hstep
    exact h
  | false =>
    obtain ⟨hid, event, hevent⟩ := haccepts hclosed
    obtain ⟨state, happend, hlogged, hlength⟩ := h.logged.append hclosed hid hevent
    obtain rfl : { s with
        record := { s.record with state := state }, appended := s.appended ++ [event] } = s' := by
      simpa [apply, happend, Except.toOption] using hstep
    have hkept := h.logged.kept.length_le
    refine ⟨hlogged, h.maximumEvents, h.maximumBytes, fun subscription hmem => ?_⟩
    refine (h.follows subscription hmem).append ?_ event
    rw [List.length_append, List.length_singleton]
    dsimp only
    omega

theorem Invariant.step (h : Invariant maximumCorrelations s) {label : CorrelationStep}
    (hstep : s.apply label = some s') (haccepts : s.Accepts label) :
    Invariant maximumCorrelations s' := by
  cases label with
  | append kind => exact h.append hstep haccepts
  | subscribe after =>
    rw [apply] at hstep
    split at hstep
    · next record hok =>
      obtain rfl := Option.some.inj hstep
      obtain ⟨hafter, rfl⟩ := CorrelationRecord.subscribe_eq_ok hok
      refine ⟨{ h.logged with }, h.maximumEvents, h.maximumBytes, ?_⟩
      rw [List.forall_mem_append, List.forall_mem_singleton]
      refine ⟨h.follows, le_refl _, ?_, by simp, fun hend => by cases hend⟩
      rwa [h.logged.nextId, Nat.add_sub_cancel] at hafter
    · obtain rfl := Option.some.inj hstep
      exact h
  | next i =>
    simp only [apply, Option.map_eq_some_iff] at hstep
    obtain ⟨subscription, hi, rfl⟩ := hstep
    refine ⟨h.logged, h.maximumEvents, h.maximumBytes, fun other hother => ?_⟩
    rcases List.mem_or_eq_of_mem_set hother with hmem | rfl
    · exact h.follows other hmem
    · exact h.logged.follows_next (h.follows subscription (List.mem_of_getElem? hi))
  | close =>
    obtain rfl := Option.some.inj hstep
    exact ⟨{ h.logged with }, h.maximumEvents, h.maximumBytes, h.follows⟩

theorem invariant (maximumCorrelations : Nat) :
    ((machine maximumCorrelations).restrict Accepts).Invariant
      (Invariant maximumCorrelations) where
  start s h := by
    obtain ⟨hsubscriptions, happended, correlationId, mode, initial, hnew⟩ := h
    have hrecord := hnew.symm
    refine ⟨happended ▸ .new hrecord, ?_, ?_, by simp [hsubscriptions]⟩
    all_goals
      simp only [CorrelationRecord.new, bind_eq_ok, pure_eq_ok] at hrecord
      obtain ⟨event, -, heq⟩ := hrecord
      rw [← heq]
  step _ _ _ h hstep := h.step hstep.1 hstep.2

/-- What a record and its readers promise. `next` is what a reader may do next. -/
structure Sound (maximumCorrelations : Nat) (s : Correlated) : Prop where
  appended : s.appended.map (·.id) = List.range' 1 s.appended.length
  latest : s.record.state.nextId = s.appended.length + 1
  events : s.record.state.events <:+ s.appended
  count : s.record.state.events.length ≤ defaultMaximumEventsPerCorrelation
  bytes : s.record.state.retainedBytes = eventsLen s.record.state.events
  size : s.record.state.retainedBytes ≤ correlationByteBudget maximumCorrelations
  failed : ∀ kind e record, s.Accepts (.append kind) →
    s.record.append kind = (.error e, record) → record = s.record
  expired : ∀ after oldest, s.record.subscribe after = .error (.expiredCursor oldest) →
    ∃ event ∈ s.appended, after < event.id ∧ event ∉ s.record.state.events
  yielded : ∀ subscription ∈ s.subscriptions,
    subscription.yielded = (s.appended.take subscription.cursor).drop subscription.after
  lagged : ∀ subscription ∈ s.subscriptions, subscription.ended = some .lagged →
    ∃ event ∈ s.appended, subscription.cursor < event.id ∧ event ∉ s.record.state.events
  next : ∀ subscription ∈ s.subscriptions, subscription.Advances s.record s.appended

theorem Invariant.sound (h : Invariant maximumCorrelations s) : s.Sound maximumCorrelations where
  appended := h.logged.numbered
  latest := h.logged.nextId
  events := h.logged.kept
  count := h.maximumEvents ▸ h.logged.count
  bytes := h.logged.bytes
  size := by
    rw [h.logged.bytes, ← h.maximumBytes]
    exact h.logged.size
  failed kind e record haccepts happend := by
    cases hclosed : s.record.closed with
    | true =>
      rw [CorrelationRecord.append, if_pos hclosed] at happend
      exact (Prod.mk.inj happend).2.symm
    | false =>
      obtain ⟨hid, event, hevent⟩ := haccepts hclosed
      obtain ⟨state, hok, -⟩ := h.logged.append hclosed hid hevent
      rw [hok] at happend
      cases happend
  expired after oldest hexpired := h.logged.evicted (h.logged.subscribe_expired hexpired)
  yielded subscription hmem := (h.follows subscription hmem).yielded
  lagged subscription hmem hend :=
    h.logged.evicted (Nat.add_lt_of_lt_sub ((h.follows subscription hmem).lagged hend))
  next _ _ := h.logged.advances

end Correlated

/-- If no append is refused for the size of its event, every reader gets every later event, in
order, until one of them is evicted. -/
theorem correlated_sound (maximumCorrelations : Nat) {s : Correlated}
    (h : ((Correlated.machine maximumCorrelations).restrict Correlated.Accepts).Reachable s) :
    s.Sound maximumCorrelations :=
  ((Correlated.invariant maximumCorrelations).reachable h).sound

end

section Orders

attribute [local instance] Crates.concrete

/-- The command of an operation. -/
def placed : CorrelationEvent :=
  ⟨1, "order-1", .command "op-1" none none none "sales" "place" 1⟩

def placedRecord (maximumCorrelations : Nat) : CorrelationRecord :=
  ⟨"order-1", .test, defaultMaximumEventsPerCorrelation,
    correlationByteBudget maximumCorrelations, ⟨2, [placed], 126⟩, .empty, false, 0⟩

theorem start_placedRecord {maximumCorrelations : Nat}
    (h : 126 ≤ correlationByteBudget maximumCorrelations) :
    (Correlated.machine maximumCorrelations).start
      ⟨placedRecord maximumCorrelations, [placed], []⟩ := by
  have hlen : serializedEventLen placed = 126 := by decide +kernel
  refine ⟨rfl, rfl, "order-1", .test, placed.kind, ?_⟩
  rw [CorrelationRecord.new, boundedEvent, show
    (⟨1, "order-1", placed.kind⟩ : CorrelationEvent) = placed from rfl, hlen, if_pos h]
  rfl

/-- The command is accepted. -/
theorem correlated_sound_accepted : ∃ s,
    (⟨placedRecord 1, [placed], []⟩ : Correlated).apply
      (.append (.commandResult "op-1" .accepted none)) = some s ∧ s.Sound 1 := by
  refine ⟨_, rfl, correlated_sound 1 ⟨_, [.append (.commandResult "op-1" .accepted none)],
    start_placedRecord (by decide +kernel), .cons ?_ (.nil _)⟩⟩
  exact ⟨rfl, fun _ => ⟨by decide +kernel, _, if_pos (by decide +kernel)⟩⟩

/-- A command that is too large is refused, and its number is not used again. A reader that has read
the only event before it is told that it lagged, although the event after it is still there. -/
theorem refused_append_lags : ∃ s, (Correlated.machine (2 ^ 19)).Reachable s ∧
    ∃ subscription ∈ s.subscriptions, subscription.ended = some .lagged ∧
      ∀ event ∈ s.appended, subscription.cursor < event.id → event ∈ s.record.state.events := by
  let refused := CorrelationEventKind.command "op-2" none none none "sales"
    (String.ofList (List.replicate 64 'x')) 1
  let steps : List CorrelationStep :=
    [.subscribe 1, .append refused, .append (.commandResult "op-1" .accepted none), .next 0]
  have hrun : ((steps.foldlM Correlated.apply ⟨placedRecord (2 ^ 19), [placed], []⟩).any fun s =>
      decide (∃ subscription ∈ s.subscriptions, subscription.ended = some .lagged ∧
        ∀ event ∈ s.appended, subscription.cursor < event.id →
          event ∈ s.record.state.events)) = true := by
    decide +kernel
  obtain ⟨s, hs, hlagged⟩ := Option.any_eq_true _ _ |>.mp hrun
  exact ⟨s, ⟨_, steps, start_placedRecord (by decide +kernel), .of_foldlM (fun _ _ _ h => h) hs⟩,
    of_decide_eq_true hlagged⟩

end Orders

end Rostfrei.Tracer
