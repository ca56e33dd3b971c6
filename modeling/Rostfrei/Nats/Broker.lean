import Rostfrei.Nats.Headers
import Rostfrei.Lib.KeyedLog
import Rostfrei.Lib.Program

/-!
# The broker

The operations of JetStream that the store uses, over two streams: the journal, whose messages
arrive in atomic batches, and the stream of outcome states, which keeps the last message of each
subject. The sequence of a message is its position. A publication is accepted if the subjects it
names have the last sequences it expects, all of them before the publication.

`Broker.serve` is the answer of a broker without faults. With faults (`Broker.Exec`), a call can fail
without an effect, and a publication can be accepted although its answer is lost.
-/

namespace Rostfrei.Nats

open Lib

def conflict (message : String) : EventStoreError := .new .conflict message
def unavailable (message : String) : EventStoreError := .new .unavailable message

/-! ## What is expected of a publication -/

/-- The subject and the last sequence that a message names. -/
def Message.expectation (m : Message) : Option (String × Nat) :=
  (m.headers.getAll natsExpectedLastSubjectSequence).head?.bind fun text =>
    (parseU64 text).map fun sequence =>
      ((m.headers.getAll natsExpectedLastSubjectSequenceSubject).head?.getD m.subject, sequence)

/-- The last sequence of a subject, 0 if it has no message. -/
abbrev lastSequence (subject : String) (log : List Message) : Nat :=
  lastPosition Message.subject subject log

/-- Every expectation of the messages is met. -/
def ExpectationsHold (log messages : List Message) : Prop :=
  ∀ m ∈ messages, ∀ e ∈ m.expectation, lastSequence e.1 log = e.2

instance (log messages : List Message) : Decidable (ExpectationsHold log messages) :=
  inferInstanceAs (Decidable (∀ m ∈ messages, ∀ e ∈ m.expectation, lastSequence e.1 log = e.2))

/-! ## Calls and answers -/

/-- `LastRawMessageErrorKind`, with the text of an error. -/
inductive RawMessageError where
  | noMessageFound
  | other (text : String)
deriving DecidableEq

/-- A message that was found, with its sequence. -/
abbrev RawAnswer := Except RawMessageError (Nat × Message)

structure AtomicPublishAck where
  stream : String
  sequence : Nat
  batch : Option String
  count : Option Nat
deriving DecidableEq

inductive AtomicBatchPublishError where
  | expectation
  | store (error : EventStoreError)
deriving DecidableEq

inductive BrokerCall where
  /-- `Context::get_stream` for the journal. -/
  | getStream
  /-- `Stream::get_last_raw_message_by_subject`. -/
  | lastRawMessage (subject : String)
  /-- `Stream::get_first_raw_message_by_subject`. -/
  | firstRawMessage (subject : String) (sequence : Nat)
  /-- `Stream::get_raw_message`. -/
  | rawMessage (sequence : Nat)
  /-- `HistoryReader::new`. -/
  | openReplay (subject : String)
  /-- `HistoryReader::next` of a replay that has delivered the messages before the sequence. -/
  | nextDelivery (subject : String) (sequence : Nat)
  /-- `HistoryReader::close`. -/
  | closeReplay
  /-- `Client::new_inbox`. -/
  | newInbox
  /-- The requests of an atomic batch, up to the one that commits it. -/
  | publish (batchId : String) (messages : List Message)
  /-- `NatsEventStore::verify_journal`. -/
  | verifyJournal
  /-- `NatsEventStore::verify_authority`. -/
  | verifyAuthority
  /-- `get_last_raw_message_by_subject` on the stream of outcome states. -/
  | lastStateMessage (subject : String)
  /-- `get_raw_message` on the stream of outcome states. -/
  | rawStateMessage (sequence : Nat)
  /-- A request to the stream of outcome states. -/
  | publishState (message : Message)

namespace BrokerCall

/-- The metadata of a stream, or the text of an error. -/
abbrev StreamAnswer := Except String (List (String × String))

def Answer : BrokerCall → Type
  | getStream => StreamAnswer
  | lastRawMessage _ => RawAnswer
  | firstRawMessage _ _ => RawAnswer
  | rawMessage _ => RawAnswer
  | openReplay _ => Except EventStoreError Unit
  | nextDelivery _ _ => Except EventStoreError (Nat × Message)
  | closeReplay => Except EventStoreError Unit
  | newInbox => String
  | publish _ _ => Except AtomicBatchPublishError AtomicPublishAck
  | verifyJournal => Except EventStoreError Unit
  | verifyAuthority => Except EventStoreError Unit
  | lastStateMessage _ => RawAnswer
  | rawStateMessage _ => RawAnswer
  | publishState _ => Except AtomicBatchPublishError AtomicPublishAck

end BrokerCall

/-! ## The broker -/

structure Broker where
  /-- The atomic batches of the journal, in the order of their commits. -/
  batches : List (List Message)
  /-- All accepted messages of the stream of outcome states. -/
  states : List Message
  metadata : List (String × String)
  /-- The inbox names that were given out. -/
  inboxes : List String

namespace Broker

/-- The messages of the journal. -/
def journal (b : Broker) : List Message := b.batches.flatten

/-- The message at a sequence. -/
def find (log : List Message) (sequence : Nat) : RawAnswer :=
  match sequence with
  | 0 => .error .noMessageFound
  | n + 1 => (log[n]?.map ((n + 1, ·))).elim (.error .noMessageFound) .ok

/-- The last message of a subject. -/
def findLast (log : List Message) (subject : String) : RawAnswer :=
  (itemsOn Message.subject subject log).getLast?.elim (.error .noMessageFound) .ok

/-- The first message of a subject from a sequence on. -/
def findFirst (log : List Message) (subject : String) (sequence : Nat) : RawAnswer :=
  (firstFrom Message.subject subject sequence log).elim (.error .noMessageFound) .ok

/-- A message of the stream of outcome states is kept until the next one of its subject. -/
def findState (log : List Message) (sequence : Nat) : RawAnswer := do
  let found ← find log sequence
  if lastSequence found.2.subject log = sequence then return found
  else .error .noMessageFound

/-- A name that is longer than all the others. -/
def freshInbox (inboxes : List String) : String :=
  String.ofList (List.replicate ((inboxes.map (·.length)).sum + 1) 'i')

/-- The answers of a broker without faults. -/
def serve (config : NatsEventStoreConfig) (b : Broker) : (call : BrokerCall) → call.Answer × Broker
  | .getStream => (.ok b.metadata, b)
  | .lastRawMessage subject => (findLast b.journal subject, b)
  | .firstRawMessage subject sequence => (findFirst b.journal subject sequence, b)
  | .rawMessage sequence => (find b.journal sequence, b)
  | .openReplay _ => (.ok (), b)
  | .nextDelivery subject sequence =>
    ((firstFrom Message.subject subject sequence b.journal).elim
      (.error (unavailable "history replay timed out")) .ok, b)
  | .closeReplay => (.ok (), b)
  | .newInbox => (freshInbox b.inboxes, { b with inboxes := freshInbox b.inboxes :: b.inboxes })
  | .publish batchId messages =>
    if ¬ ExpectationsHold b.journal messages then (.error .expectation, b)
    else if b.journal.length + messages.length < 2 ^ 64 then
      (.ok
        { stream := config.streamName
          sequence := b.journal.length + messages.length
          batch := some batchId
          count := some messages.length },
        { b with batches := b.batches ++ [messages] })
    else (.error (.store (unavailable "atomic event publish was rejected")), b)
  | .verifyJournal => (.ok (), b)
  | .verifyAuthority => (.ok (), b)
  | .lastStateMessage subject => (findLast b.states subject, b)
  | .rawStateMessage sequence => (findState b.states sequence, b)
  | .publishState message =>
    if ¬ ExpectationsHold b.states [message] then (.error .expectation, b)
    else if b.states.length + 1 < 2 ^ 64 then
      (.ok
        { stream := config.outcomeStateStreamName
          sequence := b.states.length + 1
          batch := none
          count := none },
        { b with states := b.states ++ [message] })
    else (.error (.store (unavailable "atomic event publish was rejected")), b)

/-- An answer that says that the call failed. -/
def Failed : (call : BrokerCall) → call.Answer → Prop
  | .getStream, r => ∃ text, r = .error text
  | .lastRawMessage _, r => ∃ text, r = .error (.other text)
  | .firstRawMessage _ _, r => ∃ text, r = .error (.other text)
  | .rawMessage _, r => ∃ text, r = .error (.other text)
  | .openReplay _, r => ∃ error, r = .error error
  | .nextDelivery _ _, r => ∃ error, r = .error error
  | .closeReplay, r => ∃ error, r = .error error
  | .newInbox, _ => False
  | .publish _ _, r => ∃ error, r = .error (.store error)
  | .verifyJournal, r => ∃ error, r = .error error
  | .verifyAuthority, r => ∃ error, r = .error error
  | .lastStateMessage _, r => ∃ text, r = .error (.other text)
  | .rawStateMessage _, r => ∃ text, r = .error (.other text)
  | .publishState _, r => ∃ error, r = .error (.store error)

/-- A name that was not given out before. -/
def Named (b : Broker) : (call : BrokerCall) → call.Answer → Broker → Prop
  | .newInbox, name, b' => (name : String) ∉ b.inboxes ∧ b' = { b with inboxes := name :: b.inboxes }
  | _, _, _ => False

/-- What a call can do. Inbox names are new but otherwise arbitrary. With faults, a call can fail;
then it had no effect, or the effect it has without faults. -/
def Exec (config : NatsEventStoreConfig) (faults : Prop) (b : Broker) (call : BrokerCall)
    (r : call.Answer) (b' : Broker) : Prop :=
  (r = (b.serve config call).1 ∧ b' = (b.serve config call).2) ∨ b.Named call r b' ∨
    (faults ∧ Failed call r ∧ (b' = b ∨ b' = (b.serve config call).2))

/-! ## Reads -/

/-- The call does not change the broker. -/
def Reads : BrokerCall → Prop
  | .newInbox => False
  | .publish _ _ => False
  | .publishState _ => False
  | _ => True

theorem Exec.reads {config : NatsEventStoreConfig} {faults : Prop} {b b' : Broker}
    {call : BrokerCall} {r : call.Answer} (h : Exec config faults b call r b') (hreads : Reads call) :
    b' = b ∧ (r = (b.serve config call).1 ∨ faults ∧ Failed call r) := by
  have hserve : (b.serve config call).2 = b := by
    cases call <;> first | rfl | exact hreads.elim
  rcases h with ⟨hr, hb⟩ | hnamed | ⟨hfaults, hfailed, hb | hb⟩
  · exact ⟨hb.trans hserve, .inl hr⟩
  · cases call <;> first | exact hreads.elim | exact hnamed.elim
  · exact ⟨hb, .inr ⟨hfaults, hfailed⟩⟩
  · exact ⟨hb.trans hserve, .inr ⟨hfaults, hfailed⟩⟩

theorem findLast_eq_ok {log : List Message} {subject : String} {found : Nat × Message}
    (h : findLast log subject = .ok found) :
    (itemsOn Message.subject subject log).getLast? = some found := by
  unfold findLast at h
  cases hlast : (itemsOn Message.subject subject log).getLast? with
  | none => simp [hlast] at h
  | some p => simpa [hlast] using h

theorem findLast_ne_other {log : List Message} {subject text : String} :
    findLast log subject ≠ .error (.other text) := by
  unfold findLast
  cases (itemsOn Message.subject subject log).getLast? <;> simp

theorem findLast_eq_none {log : List Message} {subject : String} :
    findLast log subject = .error .noMessageFound ↔ itemsOn Message.subject subject log = [] := by
  unfold findLast
  cases hlast : (itemsOn Message.subject subject log).getLast? with
  | none => simpa using hlast
  | some p =>
    have hne : itemsOn Message.subject subject log ≠ [] := by
      intro hnil
      rw [hnil] at hlast
      cases hlast
    simp [hne]

theorem findFirst_eq_ok {log : List Message} {subject : String} {sequence : Nat}
    {found : Nat × Message} :
    findFirst log subject sequence = .ok found ↔
      firstFrom Message.subject subject sequence log = some found := by
  unfold findFirst
  cases firstFrom Message.subject subject sequence log <;> simp

theorem findFirst_eq_none {log : List Message} {subject : String} {sequence : Nat} :
    findFirst log subject sequence = .error .noMessageFound ↔
      firstFrom Message.subject subject sequence log = none := by
  unfold findFirst
  cases firstFrom Message.subject subject sequence log <;> simp

theorem findFirst_ne_other {log : List Message} {subject text : String} {sequence : Nat} :
    findFirst log subject sequence ≠ .error (.other text) := by
  unfold findFirst
  cases firstFrom Message.subject subject sequence log <;> simp

theorem find_eq_ok {log : List Message} {sequence : Nat} {found : Nat × Message} :
    find log sequence = .ok found ↔
      found.1 = sequence ∧ 0 < sequence ∧ log[sequence - 1]? = some found.2 := by
  obtain ⟨n, m⟩ := found
  unfold find
  cases sequence with
  | zero => simp
  | succ k =>
    cases hat : log[k]? with
    | none => simp [hat]
    | some a => simp [hat, eq_comm]

end Broker

/-! ## Protocols over a broker -/

/-- A protocol whose shared state is a broker: the journal only grows, and sequences are `u64`. -/
structure Hosts (P : Protocol BrokerCall BrokerCall.Answer Broker) (config : NatsEventStoreConfig)
    (faults : Prop) : Prop where
  exec : ∀ {b call r b'}, P.exec b call r b' → Broker.Exec config faults b call r b'
  grows : ∀ {b b'}, P.rely b b' → b.journal <+: b'.journal
  small : ∀ {b}, P.inv b → b.journal.length < 2 ^ 64

/-- The broker between any clients. -/
def Broker.growing (config : NatsEventStoreConfig) (faults : Prop) :
    Protocol BrokerCall BrokerCall.Answer Broker where
  exec := Exec config faults
  inv b := b.journal.length < 2 ^ 64
  rely b b' := b.journal <+: b'.journal
  rely_refl b := List.prefix_rfl
  rely_trans := List.IsPrefix.trans

theorem Broker.hosts_growing (config : NatsEventStoreConfig) (faults : Prop) :
    Hosts (Broker.growing config faults) config faults :=
  ⟨id, id, id⟩

/-- Code of the store: calls of the broker that can end in an error of the store. -/
abbrev BrokerCode := ExceptT EventStoreError (Program BrokerCall BrokerCall.Answer)

/-- A call whose answer the code looks at. -/
def ask (call : BrokerCall) : BrokerCode call.Answer := ExceptT.lift (Program.perform call)

open Program

section Hosts

variable {P : Protocol BrokerCall BrokerCall.Answer Broker} {config : NatsEventStoreConfig}
  {faults : Prop} {b : Broker} {α : Type} {Q : α → Broker → Prop} {E : EventStoreError → Broker → Prop}

/-- A read answers from the state it finds, or fails, and the code goes on. -/
theorem Hosts.read (host : Hosts P config faults) {call : BrokerCall}
    {f : call.Answer → BrokerCode α} (hreads : Broker.Reads call)
    (h : ∀ b₁, P.rely b b₁ → P.inv b₁ → ∀ r,
      (r = (b₁.serve config call).1 ∨ faults ∧ Broker.Failed call r) → Ends P Q E (f r) b₁) :
    Ends P Q E (ask call >>= f) b := by
  intro b₁ hrely hinv r b₂ hexec
  obtain ⟨rfl, hr⟩ := (host.exec hexec).reads hreads
  exact ⟨hinv, P.rely_refl _, h b₂ hrely hinv r hr⟩

end Hosts

end Rostfrei.Nats
