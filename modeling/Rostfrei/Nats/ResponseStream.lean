import Rostfrei.Nats.Publication

/-!
# The stream of responses

`ResponseStream` is the stream as the broker keeps it: a log of messages, where a message whose id is
in the window of duplicates is not stored again, and any other is stored if the last sequence of its
subject is the one it expects. A publication can get no answer; then it was not stored, it was, or it
arrives later, perhaps more than once.

A request that is sent is `Sendable`: it passes `validateStoredPublication` at every sequence to come,
and what it expects as the last message of its subject is nothing, or a technical response. Requests
stay sendable while the log grows (`Sendable.later`), and the stream that stores one keeps
`ResponseStream.Inv` (`accept_keeps`).
-/

namespace Rostfrei.Nats

open Lib Messaging

structure ResponseStream where
  name : String
  created : Int
  log : List Message
  /-- The ids of the messages up to here have left the window of duplicates. -/
  forgotten : Nat
  /-- Requests without an answer that may still arrive. -/
  inFlight : List Message

namespace ResponseStream

/-! ## What the broker does -/

/-- The sequence of a message with the id of the request. -/
def duplicateOf (s : ResponseStream) (request : Message) : Option Nat :=
  (request.headers.getAll natsMsgId).head?.bind fun messageId =>
    ((numbered s.log).find? fun stored =>
      s.forgotten < stored.1 ∧ messageId ∈ stored.2.headers.getAll natsMsgId).map Prod.fst

/-- A request arrives. -/
def accept (s : ResponseStream) (request : Message) :
    Except PublicationError PublishAck × ResponseStream :=
  match s.duplicateOf request with
  | some sequence => (.ok ⟨s.name, sequence, true⟩, s)
  | none =>
    if ¬ ExpectationsHold s.log [request] ∨
        ∃ stream ∈ request.headers.getAll natsExpectedStream, stream ≠ s.name then
      (.error .publishExpectation, s)
    else if s.log.length + 1 < 2 ^ 64 then
      (.ok ⟨s.name, s.log.length + 1, false⟩, { s with log := s.log ++ [request] })
    else (.error .publish, s)

/-- The answers of the broker. Every call can fail; a publication that fails was not accepted, was
accepted, or is still on its way. -/
def Served (s : ResponseStream) : (call : ResponseCall) → call.Answer → ResponseStream → Prop
  | .getStream, r, s' =>
    (r = Except.ok ⟨s.created, s.log.length⟩ ∨ ∃ e, r = Except.error e) ∧ s' = s
  | .latest subject, r, s' =>
    (r = Except.ok (itemsOn Message.subject subject s.log).getLast? ∨ ∃ e, r = Except.error e) ∧
      s' = s
  | .atSequence sequence, r, s' =>
    (r = Except.ok ((numbered s.log).find? (·.1 = sequence)) ∨ ∃ e, r = Except.error e) ∧ s' = s
  | .sendPublish request, r, s' =>
    (r = Except.ok (s.accept request).1 ∧ s' = (s.accept request).2) ∨
      ((∃ e, r = Except.error e ∨ r = Except.ok (.error e)) ∧
        (s' = s ∨ s' = (s.accept request).2 ∨ s' = { s with inFlight := request :: s.inFlight }))

/-- The window of duplicates moves on, or a request arrives late. -/
inductive Changes (s : ResponseStream) : ResponseStream → Prop where
  | forget {sequence : Nat} (h : s.forgotten ≤ sequence) :
      Changes s { s with forgotten := sequence }
  | arrive {request : Message} (h : request ∈ s.inFlight) : Changes s (s.accept request).2

/-- The stream later: the same incarnation, with a longer log. -/
structure Grows (s s' : ResponseStream) : Prop where
  name : s'.name = s.name
  created : s'.created = s.created
  log : s.log <+: s'.log

theorem Grows.refl (s : ResponseStream) : Grows s s := ⟨rfl, rfl, List.prefix_rfl⟩

theorem Grows.trans {s₁ s₂ s₃ : ResponseStream} (h : Grows s₁ s₂) (h' : Grows s₂ s₃) :
    Grows s₁ s₃ :=
  ⟨h'.name.trans h.name, h'.created.trans h.created, h.log.trans h'.log⟩

/-- What was stored on a subject stays there. -/
theorem Grows.mem {s s' : ResponseStream} {subject : String} {stored : StreamMessage}
    (h : Grows s s') (hmem : stored ∈ itemsOn Message.subject subject s.log) :
    stored ∈ itemsOn Message.subject subject s'.log := by
  obtain ⟨more, hmore⟩ := h.log
  rw [← hmore, itemsOn_append]
  exact List.mem_append_left _ hmem

/-- A request that arrives changes nothing, or it is stored: no message with its id is in the window,
and every expectation of it holds. -/
theorem accept_cases (s : ResponseStream) (request : Message) :
    (s.accept request).2 = s ∨
      ((s.accept request).2 = { s with log := s.log ++ [request] } ∧
        ExpectationsHold s.log [request] ∧ s.log.length + 1 < 2 ^ 64) := by
  unfold accept
  split
  · exact .inl rfl
  split
  · exact .inl rfl
  next hexpected =>
  push Not at hexpected
  split
  · next hlength => exact .inr ⟨rfl, hexpected.1, hlength⟩
  · exact .inl rfl

theorem accept_grows (s : ResponseStream) (request : Message) : Grows s (s.accept request).2 := by
  rcases s.accept_cases request with h | ⟨h, -⟩
  · rw [h]
    exact .refl s
  · rw [h]
    exact ⟨rfl, rfl, List.prefix_append _ _⟩

/-! ## Invariant -/

section Inv

variable [Crates] [TokenText] (decodeOutcome : Json → Option CommandResponseOutcome)

omit [TokenText] in
/-- The message holds a response to a failure. -/
def Technical (message : Message) : Prop :=
  ∃ response, CommandResponse.fromSlice? decodeOutcome message.payload = some response ∧
    response.outcome.isTechnical = true

/-- The message passes `validate_stored_publication` at this sequence, and the predecessor of its
token is the message that it expected to be the last one of its subject. -/
def Valid (s : ResponseStream) (sequence : Nat) (message : Message) : Prop :=
  ∃ response transition, CommandResponse.fromSlice? decodeOutcome message.payload = some response ∧
    validateStoredPublication response message.subject message.payload message.headers
      ⟨s.name, s.created, sequence⟩ = .ok transition ∧
    ∀ token ∈ transition, message.expectation = some (message.subject, token.predecessor)

omit [TokenText] in
/-- A response may follow: the sequence is 0, or one of a technical response of the subject. -/
def Replaceable (s : ResponseStream) (subject : String) (sequence : Nat) : Prop :=
  sequence = 0 ∨ ∃ message, (sequence, message) ∈ itemsOn Message.subject subject s.log ∧
    Technical decodeOutcome message

structure Sendable (s : ResponseStream) (request : Message) : Prop where
  valid : ∀ sequence, s.log.length < sequence → Valid decodeOutcome s sequence request
  expects : ∃ sequence, request.expectation = some (request.subject, sequence) ∧
    Replaceable decodeOutcome s request.subject sequence

structure Inv (s : ResponseStream) : Prop where
  created : -2 ^ 127 ≤ s.created ∧ s.created < 2 ^ 127
  length : s.log.length < 2 ^ 64
  valid : ∀ stored ∈ numbered s.log, Valid decodeOutcome s stored.1 stored.2
  /-- A message was stored as the next one after the message that it expected. -/
  expected : ∀ stored ∈ numbered s.log, stored.2.expectation =
    some (stored.2.subject, lastSequence stored.2.subject (s.log.take (stored.1 - 1)))
  superseded : ∀ subject, ∀ earlier ∈ itemsOn Message.subject subject s.log,
    earlier.1 < lastSequence subject s.log → Technical decodeOutcome earlier.2
  inFlight : ∀ request ∈ s.inFlight, Sendable decodeOutcome s request

variable {decodeOutcome} {s s' : ResponseStream} {request : Message}

theorem Valid.later (h : Grows s s') {sequence : Nat} {message : Message}
    (hvalid : Valid decodeOutcome s sequence message) :
    Valid decodeOutcome s' sequence message := by
  rw [Valid, h.name, h.created]
  exact hvalid

theorem Sendable.later (h : Grows s s') (hs : Sendable decodeOutcome s request) :
    Sendable decodeOutcome s' request := by
  obtain ⟨sequence, hexpects, hreplaceable⟩ := hs.expects
  refine ⟨fun n hn => (hs.valid n (h.log.length_le.trans_lt hn)).later h, sequence, hexpects, ?_⟩
  rcases hreplaceable with rfl | ⟨message, hmem, htechnical⟩
  · exact .inl rfl
  · exact .inr ⟨message, h.mem hmem, htechnical⟩

omit [Crates] [TokenText] in
theorem mem_numbered_snoc {log : List Message} {request : Message} {stored : StreamMessage} :
    stored ∈ numbered (log ++ [request]) ↔
      stored ∈ numbered log ∨ stored = (log.length + 1, request) := by
  have hone : numbered [request] = [(1, request)] := rfl
  rw [numbered_append, hone, List.mem_append, List.map_singleton, List.mem_singleton]

/-- A sendable request that is stored is the next one of its subject, after a technical response or
none. -/
theorem store_keeps (hinv : Inv decodeOutcome s) (hs : Sendable decodeOutcome s request)
    (hexpected : ExpectationsHold s.log [request]) (hlength : s.log.length + 1 < 2 ^ 64) :
    Inv decodeOutcome { s with log := s.log ++ [request] } := by
  have hgrows : Grows s { s with log := s.log ++ [request] } :=
    ⟨rfl, rfl, List.prefix_append _ _⟩
  obtain ⟨sequence, hexpects, hreplaceable⟩ := hs.expects
  have hlast : lastSequence request.subject s.log = sequence :=
    hexpected request (by simp) _ (Option.mem_def.mpr hexpects)
  refine ⟨hinv.created, by simpa using hlength, fun stored hstored => ?_, fun stored hstored => ?_,
    fun subject earlier hearlier hlt => ?_, fun r hr => (hinv.inFlight r hr).later hgrows⟩
  · rcases mem_numbered_snoc.mp hstored with hold | rfl
    · exact (hinv.valid stored hold).later hgrows
    · exact (hs.valid _ (Nat.lt_succ_self _)).later hgrows
  · rcases mem_numbered_snoc.mp hstored with hold | rfl
    · obtain ⟨hpos, hat⟩ := mem_numbered.mp hold
      have hle : stored.1 - 1 ≤ s.log.length :=
        (List.getElem?_eq_some_iff.mp hat).1.le
      rw [hinv.expected stored hold, List.take_append_of_le_length hle]
    · rw [hexpects, ← hlast]
      simp
  · have hold : earlier ∈ itemsOn Message.subject subject s.log := by
      obtain ⟨hpos, hat, hkey⟩ := mem_itemsOn.mp hearlier
      have hle := @lastPosition_le _ _ _ Message.subject subject (s.log ++ [request])
      rw [List.length_append, List.length_singleton] at hle
      have hbefore : earlier.1 - 1 < s.log.length := by
        have : earlier.1 < s.log.length + 1 := Nat.lt_of_lt_of_le hlt hle
        omega
      rw [List.getElem?_append_left hbefore] at hat
      exact mem_itemsOn.mpr ⟨hpos, hat, hkey⟩
    by_cases hsubject : request.subject = subject
    · subst hsubject
      rcases Nat.lt_or_ge earlier.1 (lastSequence request.subject s.log) with hbefore | hge
      · exact hinv.superseded _ earlier hold hbefore
      have heq : earlier.1 = sequence := hlast ▸ Nat.le_antisymm (le_lastPosition hold) hge
      rcases hreplaceable with rfl | ⟨message, hmem, htechnical⟩
      · exact absurd heq (position_le hold).1.ne'
      · have hat := (mem_itemsOn.mp hold).2.1
        rw [heq, (mem_itemsOn.mp hmem).2.1, Option.some.injEq] at hat
        exact hat ▸ htechnical
    · have hsame : lastSequence subject (s.log ++ [request]) = lastSequence subject s.log := by
        unfold lastSequence lastPosition
        rw [itemsOn_append_of_ne (by simpa using hsubject)]
      exact hinv.superseded subject earlier hold (hsame ▸ hlt)

theorem accept_keeps (hinv : Inv decodeOutcome s) (hs : Sendable decodeOutcome s request) :
    Inv decodeOutcome (s.accept request).2 := by
  rcases s.accept_cases request with h | ⟨h, hexpected, hlength⟩
  · rwa [h]
  · rw [h]
    exact store_keeps hinv hs hexpected hlength

theorem Changes.keeps (h : Changes s s') (hinv : Inv decodeOutcome s) :
    Inv decodeOutcome s' ∧ Grows s s' := by
  cases h with
  | @forget sequence hle =>
    have hgrows : Grows s { s with forgotten := sequence } := ⟨rfl, rfl, List.prefix_rfl⟩
    exact ⟨⟨hinv.created, hinv.length, hinv.valid, hinv.expected, hinv.superseded,
      fun r hr => (hinv.inFlight r hr).later hgrows⟩, hgrows⟩
  | arrive hmem => exact ⟨accept_keeps hinv (hinv.inFlight _ hmem), accept_grows _ _⟩

/-- A publication of a sendable request keeps the invariant, whatever becomes of it. -/
theorem sendPublish_keeps (hinv : Inv decodeOutcome s) (hs : Sendable decodeOutcome s request)
    {r : (ResponseCall.sendPublish request).Answer} (h : s.Served (.sendPublish request) r s') :
    Inv decodeOutcome s' ∧ Grows s s' := by
  have haccept : s' = (s.accept request).2 → Inv decodeOutcome s' ∧ Grows s s' := by
    rintro rfl
    exact ⟨accept_keeps hinv hs, accept_grows s request⟩
  rcases h with ⟨-, h⟩ | ⟨-, rfl | h | rfl⟩
  · exact haccept h
  · exact ⟨hinv, .refl _⟩
  · exact haccept h
  · have hgrows : Grows s { s with inFlight := request :: s.inFlight } :=
      ⟨rfl, rfl, List.prefix_rfl⟩
    refine ⟨⟨hinv.created, hinv.length, hinv.valid, hinv.expected, hinv.superseded, fun r hr => ?_⟩,
      hgrows⟩
    rcases List.mem_cons.mp hr with rfl | hr
    · exact hs.later hgrows
    · exact (hinv.inFlight r hr).later hgrows

end Inv

end ResponseStream

end Rostfrei.Nats
