import Rostfrei.Concrete
import Rostfrei.Nats.Published

/-!
# Publishers of responses

Callers prepare responses, keep what they have prepared, and publish it, any number of times and in
any order. In every state that they reach, a business response is the last message of its subject, a
message follows the one that it was prepared for, every message passes `validateStoredPublication`,
and an answer of `publish` names a message with the prepared payload.
-/

namespace Rostfrei.Nats

open Lib Lib.Program Messaging ResponseStream

section Publishers

variable [Crates] [TokenText] (decodeOutcome : Json → Option CommandResponseOutcome)

inductive PublisherCall where
  | stream (streamCall : ResponseCall)
  /-- A caller keeps a prepared response. -/
  | retain (prepared : PreparedCommandResponse)

def PublisherCall.Answer : PublisherCall → Type
  | stream streamCall => streamCall.Answer
  | retain _ => Unit

/-- The stream, and the prepared responses that callers have kept. -/
structure Publishers where
  stream : ResponseStream
  retained : List PreparedCommandResponse

namespace Publishers

def Served (s : Publishers) : (call : PublisherCall) → call.Answer → Publishers → Prop
  | .stream streamCall, r, s' => s.stream.Served streamCall r s'.stream ∧ s'.retained = s.retained
  | .retain prepared, _, s' => s' = { s with retained := s.retained ++ [prepared] }

def protocol : Protocol PublisherCall PublisherCall.Answer Publishers where
  exec := Served
  inv s := Inv decodeOutcome s.stream ∧ ∀ prepared ∈ s.retained, prepared.Held decodeOutcome s.stream
  rely s s' := Grows s.stream s'.stream
  rely_refl _ := .refl _
  rely_trans := Grows.trans

/-- Calls of the stream, as calls of a publisher. -/
abbrev lift {α : Type} (p : ResponseCode α) :
    ExceptT PublicationError (Program PublisherCall PublisherCall.Answer) α :=
  embedE PublisherCall.stream (fun _ r => r) p

theorem embeds : Embeds (responseProtocol decodeOutcome) (protocol decodeOutcome) stream
    PublisherCall.stream fun _ r => r where
  inv _ h := h.1
  rely _ _ h := h
  exec _ _ _ _ h := h.1
  keeps s _ _ s' hinv he hI hR := by
    refine ⟨⟨hI, fun prepared hprepared => ?_⟩, hR⟩
    rw [he.2] at hprepared
    exact (hinv.2 prepared hprepared).later hR

inductive Task where
  | prepare (publisher : NatsPublisher) (message : OutboundResponse) (operationTimeout : Nat)
  | publish (publisher : NatsPublisher) (prepared : PreparedCommandResponse) (operationTimeout : Nat)

/-- A task, with the acknowledgement of a publication. -/
def Task.code : Task →
    ExceptT PublicationError (Program PublisherCall PublisherCall.Answer) (Option NatsPublishAck)
  | prepare publisher message operationTimeout => do
    let prepared ← lift (prepareCommandResponse decodeOutcome publisher message operationTimeout)
    let _ ← ExceptT.lift (Program.perform (PublisherCall.retain prepared))
    return none
  | publish publisher prepared operationTimeout => do
    let ack ← lift (publishPreparedCommandResponse decodeOutcome publisher prepared operationTimeout)
    return some ack

/-- A publisher of this stream prepares; what was prepared may be published. -/
def Task.Starts (s : Publishers) : Task → Prop
  | prepare publisher _ _ => publisher.commandResponseStream = s.stream.name
  | publish _ prepared _ => prepared ∈ s.retained

/-- What an answer of `publish` says of the stream. -/
def Task.Answers (s : Publishers) : Task → Option NatsPublishAck → Prop
  | publish _ prepared _, some ack => prepared.Stored s.stream ack
  | _, _ => True

variable {decodeOutcome} {s : Publishers}

theorem Task.ends [TokenText.Lawful] (hinv : (protocol decodeOutcome).inv s) {task : Task}
    (h : task.Starts s) :
    Ends (protocol decodeOutcome) (fun ack s' => task.Answers s' ack) (fun _ _ => True)
      (task.code decodeOutcome) s := by
  cases task with
  | prepare publisher message operationTimeout =>
    have hprepare := Ends.embed (embeds decodeOutcome)
      (@prepareCommandResponse_ends _ _ decodeOutcome _ _ _ h message operationTimeout)
    refine SafeE.bind (SafeE.mono hprepare (fun _ prepared s₁ _ hr => ?_) fun _ _ _ _ _ => trivial)
    intro s₂ hR₂ hI₂ r s₃ he
    obtain rfl := he
    refine ⟨⟨hI₂.1, fun p hp => ?_⟩, .refl _, fun _ _ _ => trivial⟩
    rcases List.mem_append.mp hp with hp | hp
    · exact hI₂.2 p hp
    · obtain rfl := List.mem_singleton.mp hp
      exact (hr s₂ hR₂ hI₂).1
  | publish publisher prepared operationTimeout =>
    have hpublish := Ends.embed (embeds decodeOutcome)
      (publishPreparedCommandResponse_ends (hinv.2 prepared h) publisher operationTimeout)
    exact Ends.bind hpublish (fun ack s₁ _ _ hstored => Ends.pure fun _ hR _ => hstored.later hR)
      fun _ _ _ _ _ => trivial

variable (decodeOutcome) in
def rules [TokenText.Lawful] :
    Pool.Rules (protocol decodeOutcome) (Except PublicationError (Option NatsPublishAck)) Task where
  start s task p := p = (task.code decodeOutcome).run ∧ task.Starts s
  env s s' := s.stream.Changes s'.stream ∧ s'.retained = s.retained
  post task _ r s :=
    match r with
    | .ok ack => task.Answers s ack
    | .error _ => True
  start_safe := by
    rintro s task _ hinv ⟨rfl, h⟩
    exact Safe.mono (Task.ends hinv h) fun _ r _ hI hr => match r with
      | .ok _ => hr.here hI
      | .error _ => trivial
  env_keeps := by
    rintro s s' hinv ⟨h, hretained⟩
    obtain ⟨hI, hR⟩ := h.keeps hinv.1
    refine ⟨⟨hI, fun prepared hprepared => ?_⟩, hR⟩
    rw [hretained] at hprepared
    exact (hinv.2 prepared hprepared).later hR

/-- A stream without messages. -/
def start (name : String) (created : Int) : Publishers := ⟨⟨name, created, [], 0, []⟩, []⟩

theorem inv_start {name : String} {created : Int}
    (hcreated : -2 ^ 127 ≤ created ∧ created < 2 ^ 127) :
    (protocol decodeOutcome).inv (start name created) := by
  have hempty : ∀ stored : StreamMessage, stored ∉ numbered ([] : List Message) :=
    fun _ => List.not_mem_nil
  have hinv : Inv decodeOutcome (start name created).stream :=
    { created := hcreated
      length := Nat.two_pow_pos 64
      valid := fun stored h => absurd h (hempty stored)
      expected := fun stored h => absurd h (hempty stored)
      superseded := fun _ _ h => absurd h List.not_mem_nil
      inFlight := fun _ h => absurd h List.not_mem_nil }
  exact ⟨hinv, fun _ h => absurd h List.not_mem_nil⟩

/-- The last message of a subject before a message. -/
def predecessorOf (log : List Message) (stored : StreamMessage) : Nat :=
  lastSequence stored.2.subject (log.take (stored.1 - 1))

/-- Whatever publishers do: a business response stays the last message of its subject; a message
follows the one it expected, which its transition names; it passes the check of its readers; and an
acknowledged publication is stored as it was prepared. -/
theorem publications_sound [TokenText.Lawful] {name : String} {created : Int}
    (hcreated : -2 ^ 127 ≤ created ∧ created < 2 ^ 127)
    {pool : Pool PublisherCall PublisherCall.Answer
      (Except PublicationError (Option NatsPublishAck)) Publishers Task}
    (h : Pool.Reachable (rules decodeOutcome) (start name created) pool) :
    let log := pool.shared.stream.log
    (∀ subject, ∀ earlier ∈ itemsOn Message.subject subject log,
      ∀ later ∈ itemsOn Message.subject subject log, earlier.1 < later.1 →
        ∃ response, CommandResponse.fromSlice? decodeOutcome earlier.2.payload = some response ∧
          response.outcome.isTechnical = true) ∧
    (∀ stored ∈ numbered log, ∃ response transition,
      stored.2.expectation = some (stored.2.subject, predecessorOf log stored) ∧
      CommandResponse.fromSlice? decodeOutcome stored.2.payload = some response ∧
      validateStoredPublication response stored.2.subject stored.2.payload stored.2.headers
        ⟨name, created, stored.1⟩ = .ok transition ∧
      ∀ token ∈ transition, token.predecessor = predecessorOf log stored) ∧
    ∀ publisher prepared operationTimeout calls ack,
      ⟨.publish publisher prepared operationTimeout, calls, .done (.ok (some ack))⟩ ∈
        pool.processes →
      prepared.Stored pool.shared.stream ack := by
  have hpools := Pool.Sound.run ⟨inv_start hcreated, by simp⟩ h
  obtain ⟨hsound, hgrows⟩ := hpools
  obtain ⟨hinv, -⟩ := hsound.inv
  refine ⟨fun subject earlier hearlier later hlater hlt => ?_, fun stored hstored => ?_,
    fun publisher prepared operationTimeout calls ack hmem => ?_⟩
  · exact hinv.superseded subject earlier hearlier (hlt.trans_le (le_lastPosition hlater))
  · obtain ⟨response, transition, hdecoded, hvalid, htoken⟩ := hinv.valid stored hstored
    have hexpected := hinv.expected stored hstored
    rw [hgrows.name, hgrows.created] at hvalid
    refine ⟨response, transition, hexpected, hdecoded, hvalid, fun token ht => ?_⟩
    have hsame := (htoken token ht).symm.trans hexpected
    exact congrArg Prod.snd (Option.some.inj hsame)
  · exact hsound.result hmem

/-- The answers of a broker without faults. -/
def serve (s : Publishers) : (call : PublisherCall) → call.Answer × Publishers
  | .stream .getStream => (.ok ⟨s.stream.created, s.stream.log.length⟩, s)
  | .stream (.latest subject) => (.ok (itemsOn Message.subject subject s.stream.log).getLast?, s)
  | .stream (.atSequence sequence) =>
    (.ok ((numbered s.stream.log).find? (·.1 = sequence)), s)
  | .stream (.sendPublish request) =>
    (.ok (s.stream.accept request).1, { s with stream := (s.stream.accept request).2 })
  | .retain prepared => ((), { s with retained := s.retained ++ [prepared] })

omit [Crates] [TokenText] in
theorem served_serve (s : Publishers) (call : PublisherCall) :
    s.Served call (s.serve call).1 (s.serve call).2 := by
  match call with
  | .stream .getStream => exact ⟨⟨.inl rfl, rfl⟩, rfl⟩
  | .stream (.latest _) => exact ⟨⟨.inl rfl, rfl⟩, rfl⟩
  | .stream (.atSequence _) => exact ⟨⟨.inl rfl, rfl⟩, rfl⟩
  | .stream (.sendPublish _) => exact ⟨.inl ⟨rfl, rfl⟩, rfl⟩
  | .retain _ => rfl

end Publishers

end Publishers

namespace Sample

open Publishers

attribute [local instance] Crates.concrete TokenText.concrete

local instance : TokenText.Lawful := TokenText.concrete_lawful

/-- The reader of an accepted outcome. -/
def readAccepted (j : Json) : Option CommandResponseOutcome :=
  if j = CommandResponseOutcome.accepted.toJson then some .accepted else none

def placeOrder : CommandAddress :=
  ⟨"acme.command.orders.place-order", "acme", .normal, "orders", "place-order", by decide +kernel⟩

def acceptedResponse : CommandResponse where
  messageId := ⟨"response-1", by decide +kernel⟩
  commandMessageId := ⟨"command-1", by decide +kernel⟩
  commandAddress := placeOrder
  operationId := ⟨"operation-1", by decide +kernel⟩
  schemaVersion := ⟨1, SchemaVersion.one_ne_zero⟩
  correlationId := ⟨"correlation-1", by decide +kernel⟩
  outcome := .accepted

def responseAddress : CommandResponseAddress :=
  (deriveCommandResponseAddress placeOrder acceptedResponse.operationId
    acceptedResponse.commandMessageId).toOption.get (by decide +kernel)

def acceptedMessage : OutboundResponse where
  address := responseAddress
  messageId := acceptedResponse.messageId
  payload := toVec acceptedResponse.toJson
  metadata := []
  metadata_valid := by simp
  correlationId := none
  traceContext := none

def ordersPublisher : NatsPublisher := ⟨"acme", .normal, "responses"⟩

/-- The calls of a task on a broker without faults, what is left of it, and the state after it. -/
def performed (task : Task) (calls : Nat) (s : Publishers) :=
  Pool.advance serve calls (task.code readAccepted).run s

def preparation : Task := .prepare ordersPublisher acceptedMessage 1
def afterPreparation := performed preparation 3 (start "responses" 1)
def kept : PreparedCommandResponse :=
  afterPreparation.2.2.retained.head?.get (by decide +kernel)
def publication : Task := .publish ordersPublisher kept 1
def afterPublication := performed publication 4 afterPreparation.2.2

def publishedPool : Pool PublisherCall PublisherCall.Answer
    (Except PublicationError (Option NatsPublishAck)) Publishers Task :=
  ⟨afterPublication.2.2,
    [⟨preparation, afterPreparation.1, afterPreparation.2.1⟩,
      ⟨publication, afterPublication.1, afterPublication.2.1⟩]⟩

theorem publishedPool_reachable :
    Pool.Reachable (rules readAccepted) (start "responses" 1) publishedPool := by
  have hperformed : ∀ task calls others s out, Task.Starts s task → out = performed task calls s →
      Relation.ReflTransGen (Pool.Step (rules readAccepted)) ⟨s, others⟩
        ⟨out.2.2, others ++ [⟨task, out.1, out.2.1⟩]⟩ := by
    rintro task calls others s _ h rfl
    exact .head (.start ⟨rfl, h⟩) (Pool.run_advance served_serve task others [] calls _ _)
  have hkept : Task.Starts afterPreparation.2.2 publication :=
    List.mem_of_head? (Option.some_get _).symm
  exact .trans (hperformed preparation 3 [] _ afterPreparation rfl rfl)
    (hperformed publication 4 _ _ afterPublication hkept rfl)

/-- The result of a program that is done. -/
def result? {α : Type} : Program PublisherCall PublisherCall.Answer α → Option α
  | .done a => some a
  | .call _ _ => none

theorem afterPublication_result :
    result? afterPublication.2.1 = some (.ok (some ⟨"responses", 1, false⟩)) := by
  decide +kernel

/-- A response that was prepared and published is stored at the sequence of its acknowledgement. -/
theorem publications_sound_published :
    kept.Stored publishedPool.shared.stream ⟨"responses", 1, false⟩ := by
  have hdone : afterPublication.2.1 = .done (.ok (some ⟨"responses", 1, false⟩)) := by
    have hresult := afterPublication_result
    cases hrest : afterPublication.2.1 with
    | done r =>
      rw [hrest] at hresult
      rw [Option.some.inj hresult]
    | call op next =>
      rw [hrest] at hresult
      cases hresult
  have hsound := publications_sound (by decide) publishedPool_reachable
  refine hsound.2.2 ordersPublisher kept 1 afterPublication.1 _ ?_
  rw [← hdone]
  exact List.mem_cons_of_mem _ (List.mem_singleton.mpr rfl)

end Sample

end Rostfrei.Nats
