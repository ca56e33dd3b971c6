import Rostfrei.Concrete
import Rostfrei.Nats.Consumer

/-!
# What becomes of a delivered message

`SourceMessage` is a message of the source stream with its deliveries: each runs `process_message`,
they may overlap, and their attempt numbers increase. An acknowledgement may be lost, or only its
reply.

`Permitted` says what a delivery may do after what it has done. Every call of `process_message` is
permitted (`processMessage_monitored`), so in every run the message is settled only by a delivery
whose handler said so or whose quarantine record was confirmed.
-/

namespace Rostfrei.Nats

open Lib Messaging Program

/-! ## What a delivery may do -/

section Permitted

variable [Crates] {A : Type} [DecidableEq A] [ConsumableAddress A] (settings : ConsumerSettings A)
  (message : JetStreamMessage)

/-- What a delivery has done. -/
abbrev ConsumerTrace (A : Type) := Trace (ConsumerCall A) ConsumerCall.Answer

/-- A call with its answer. -/
abbrev ConsumerEvent (A : Type) := (call : ConsumerCall A) × call.Answer

omit [Crates] [DecidableEq A] [ConsumableAddress A] in
/-- The handler has answered so. -/
def Answered (trace : ConsumerTrace A) (disposition : DeliveryDisposition) : Prop :=
  (⟨.handled, some disposition⟩ : ConsumerEvent A) ∈ trace

/-- The record is about this message. -/
structure Records (raw : RawInfo) (record : QuarantineRecord) : Prop where
  stream : record.sourceStream = settings.sourceStream
  consumer : record.sourceConsumer = settings.durableName
  sequence : record.sourceSequence = raw.streamSequence

/-- A record of the message was confirmed by the quarantine stream. -/
def Quarantined (trace : ConsumerTrace A) : Prop :=
  ∃ raw record publication answer, message.info = some raw ∧ Records settings raw record ∧
    quarantinePublication settings record = .ok publication ∧
    (⟨.publishQuarantine publication, answer⟩ : ConsumerEvent A) ∈ trace ∧
    Confirmed settings answer

/-- What a delivery may do, after what it has done: the handler is called up to the maximum of
attempts, it or a confirmed record settles the message, and there is a retry below the maximum, or
of a message that is not of this consumer. -/
def Permitted (trace : ConsumerTrace A) : ConsumerCall A → Prop
  | .progress | .handled | .publishQuarantine _ => True
  | .invoke delivery => ∃ raw, message.info = some raw ∧ raw.delivered = delivery.info.attempt ∧
      delivery.info.attempt ≤ settings.maximumDeliveryAttempts
  | .acknowledge .ack => Answered trace .acknowledge
  | .acknowledge .term => Answered trace .terminate ∨ Quarantined settings message trace
  | .acknowledge (.nak _) => ∃ raw, message.info = some raw ∧
      (Misrouted settings message raw ∨ raw.delivered < settings.maximumDeliveryAttempts)

variable {settings message} {trace : ConsumerTrace A} {raw : RawInfo}

omit [Crates] [DecidableEq A] [ConsumableAddress A] in
theorem Answered.append {disposition : DeliveryDisposition} (h : Answered trace disposition)
    (more : ConsumerTrace A) : Answered (trace ++ more) disposition :=
  List.mem_append_left _ h

omit [DecidableEq A] [ConsumableAddress A] in
theorem Quarantined.append (h : Quarantined settings message trace) (more : ConsumerTrace A) :
    Quarantined settings message (trace ++ more) := by
  obtain ⟨raw, record, publication, answer, hraw, hrecord, hpublication, hmem, hconfirmed⟩ := h
  exact ⟨raw, record, publication, answer, hraw, hrecord, hpublication,
    List.mem_append_left _ hmem, hconfirmed⟩

theorem sendProgress_monitored {Q : ConsumerTrace A → Prop}
    (hQ : ∀ sent : Bool, Q (trace ++ [⟨.progress, sent⟩])) :
    MonitoredE (Permitted settings message) (fun t _ => Q t) sendProgress trace := by
  refine .bind (.perform trivial fun sent => ?_)
  cases sent with
  | true => exact .pure (hQ true)
  | false => exact .throw

theorem sendProgresses_monitored {intervals : Nat} :
    MonitoredE (Permitted settings message) (fun _ _ => True) (sendProgresses intervals) trace := by
  induction intervals generalizing trace with
  | zero => exact .pure trivial
  | succ intervals ih =>
    exact .bind (sendProgress_monitored
      (Q := fun t => MonitoredE _ (fun _ _ => True) (sendProgresses intervals) t) fun _ => ih)

theorem handleWithProgress_monitored {delivery : MessageDelivery A}
    (hinvoke : ∀ trace : ConsumerTrace A, Permitted settings message trace (.invoke delivery)) :
    MonitoredE (Permitted settings message)
      (fun t disposition => ∀ d, disposition = some d → Answered t d)
      (handleWithProgress delivery) trace := by
  refine .bind (sendProgress_monitored (Q := fun t => MonitoredE _ _ _ t) fun _ => ?_)
  refine .bind (.perform (hinvoke _) fun intervals => ?_)
  refine .bind (Monitored.mono sendProgresses_monitored fun t _ _ _ _ => ?_)
  refine .bind (.perform trivial fun disposition => ?_)
  refine .bind (sendProgress_monitored (Q := fun t => MonitoredE _ _ _ t) fun sent => ?_)
  refine .pure fun d hd => ?_
  subst hd
  exact List.mem_append_left _ (List.mem_append_right _ (List.mem_singleton.mpr rfl))

theorem applyAck_monitored {kind : AckKind}
    (hkind : Permitted settings message trace (.acknowledge kind)) :
    MonitoredE (Permitted settings message) (fun _ _ => True) (applyAck kind) trace := by
  refine .bind (.perform hkind fun confirmed => ?_)
  cases confirmed with
  | true => exact .pure trivial
  | false => exact .throw

theorem quarantineOrNak_monitored {record : QuarantineRecord} {attempt : Nat}
    (hraw : message.info = some raw) (hrecord : Records settings raw record)
    (hattempt : raw.delivered = attempt) :
    MonitoredE (Permitted settings message) (fun _ _ => True)
      (quarantineOrNak settings record attempt) trace := by
  have hfail : ∀ t : ConsumerTrace A, MonitoredE (Permitted settings message) (fun _ _ => True)
      (if quarantineRetryAvailable attempt settings.maximumDeliveryAttempts then
        applyAck (.nak (some defaultQuarantineRetryDelay))
      else throw ConsumeErrorKind.quarantine : ConsumerCode A Unit) t := by
    intro t
    split
    · next hless =>
      refine applyAck_monitored ⟨raw, hraw, .inr ?_⟩
      have : attempt < settings.maximumDeliveryAttempts := by
        simpa [quarantineRetryAvailable] using hless
      rw [hattempt]
      exact_mod_cast this
    · exact .throw
  unfold quarantineOrNak publishQuarantine
  rcases hpublication : quarantinePublication settings record with e | publication
  · exact .bind (.pure (hfail trace))
  refine .bind (.bind (.perform trivial fun (answer : Except NatsError PublishAck) => .pure ?_))
  by_cases hconfirmed : Confirmed settings answer
  · rw [decide_eq_true hconfirmed]
    refine applyAck_monitored (.inr ⟨raw, record, publication, answer, hraw, hrecord, hpublication,
      ?_, hconfirmed⟩)
    exact List.mem_append_right _ (List.mem_singleton.mpr rfl)
  · rw [decide_eq_false hconfirmed]
    exact hfail _

theorem applyDisposition_monitored {delivery : MessageDelivery A}
    {disposition : Option DeliveryDisposition} (hraw : message.info = some raw)
    (hsequence : delivery.info.sourceSequence = raw.streamSequence)
    (hattempt : raw.delivered = delivery.info.attempt)
    (hanswer : ∀ d, disposition = some d → Answered trace d) :
    MonitoredE (Permitted settings message) (fun _ _ => True)
      (applyDisposition settings delivery disposition) trace := by
  have hrecord : ∀ reason kind, Records settings raw (quarantineRecord delivery settings reason kind) :=
    fun _ _ => ⟨rfl, rfl, hsequence⟩
  have hretry : ∀ delay, delivery.info.attempt < settings.maximumDeliveryAttempts →
      MonitoredE (Permitted settings message) (fun _ _ => True) (applyAck (.nak delay)) trace := by
    intro delay hless
    refine applyAck_monitored ⟨raw, hraw, .inr ?_⟩
    rw [hattempt]
    exact_mod_cast hless
  cases disposition with
  | none =>
    rw [applyDisposition]
    split
    · next hless => exact hretry _ hless
    · exact quarantineOrNak_monitored hraw (hrecord _ _) hattempt
  | some disposition =>
    cases disposition with
    | acknowledge => exact applyAck_monitored (hanswer _ rfl)
    | terminate => exact applyAck_monitored (.inl (hanswer _ rfl))
    | quarantine reason => exact quarantineOrNak_monitored hraw (hrecord _ _) hattempt
    | retryAfter delay =>
      rw [applyDisposition]
      split
      · next hless => exact hretry _ hless
      · exact quarantineOrNak_monitored hraw (hrecord _ _) hattempt

omit [Crates] in
/-- A decoded delivery has the information it was decoded with. -/
theorem info_of_decodeDelivery {info : DeliveryInfo} {expected : A} {delivery : MessageDelivery A}
    (h : decodeDelivery message info expected = .ok delivery) : delivery.info = info := by
  simp only [decodeDelivery, bind_eq_ok, mapError_eq_ok, MessageDelivery.new, pure_eq_ok] at h
  obtain ⟨_, -, _, -, _, -, _, -, _, -, _, -, _, -, _, -, _, -, _, -, _, -, _, -, _, -, rfl⟩ := h
  rfl

omit [Crates] [DecidableEq A] [ConsumableAddress A] in
theorem deliveryInfo_eq_ok {info : DeliveryInfo} (h : deliveryInfo raw = .ok info) :
    raw.delivered = info.attempt ∧ info.sourceSequence = raw.streamSequence := by
  simp only [deliveryInfo, attemptOf, bind_eq_ok, okOr_eq_ok, mapError_eq_ok, DeliveryInfo.new,
    pure_eq_ok] at h
  obtain ⟨attempt, hattempt, _, -, _, -, rfl⟩ := h
  split at hattempt
  · next hpos =>
    obtain rfl := Option.some.inj hattempt
    exact ⟨(Int.toNat_of_nonneg hpos.1.le).symm, rfl⟩
  · cases hattempt

theorem processMessage_of_misrouted (hraw : message.info = some raw)
    (hmisrouted : Misrouted settings message raw) :
    processMessage settings message = applyAck (.nak (some defaultQuarantineRetryDelay)) := by
  rw [processMessage]
  simp only [hraw, if_pos hmisrouted]

theorem processMessage_of_decoded {info : DeliveryInfo} {delivery : MessageDelivery A}
    (hraw : message.info = some raw) (hrouted : ¬ Misrouted settings message raw)
    (hinfo : deliveryInfo raw = .ok info)
    (hdelivery : decodeDelivery message info settings.address = .ok delivery)
    (hle : info.attempt ≤ settings.maximumDeliveryAttempts) :
    processMessage settings message =
      (handleWithProgress delivery >>= applyDisposition settings delivery) := by
  rw [processMessage]
  simp only [hraw, if_neg hrouted, hinfo]
  rw [processDelivery, hdelivery]
  exact if_neg (not_lt.mpr hle)

/-- Every call of `process_message` is permitted. -/
theorem processMessage_monitored :
    MonitoredE (Permitted settings message) (fun _ _ => True) (processMessage settings message)
      trace := by
  unfold processMessage
  split
  · exact .throw
  next raw hraw =>
  split
  · next hmisrouted => exact applyAck_monitored ⟨raw, hraw, .inl hmisrouted⟩
  split
  · exact .throw
  next info hinfo =>
  obtain ⟨hattempt, hsequence⟩ := deliveryInfo_eq_ok hinfo
  unfold processDelivery
  split
  · exact quarantineOrNak_monitored hraw ⟨rfl, rfl, hsequence⟩ hattempt
  next delivery hdelivery =>
  obtain rfl := info_of_decodeDelivery hdelivery
  split
  · exact quarantineOrNak_monitored hraw ⟨rfl, rfl, hsequence⟩ hattempt
  next hle =>
  refine .bind (Monitored.mono (handleWithProgress_monitored fun _ => ?_) fun t r hr d hd => ?_)
  · exact ⟨raw, hraw, hattempt, not_lt.mp hle⟩
  · exact applyDisposition_monitored hraw hsequence hattempt (hr d hd)

end Permitted

/-! ## The deliveries of a message -/

/-- What the source stream holds. -/
structure SourceContent where
  subject : String
  headers : Option HeaderMap
  payload : Bytes
  sequence : Nat

def SourceContent.delivered (content : SourceContent) (info : Option RawInfo) : JetStreamMessage :=
  ⟨content.subject, content.headers, content.payload, info⟩

inductive SourceStatus where
  | pending
  | acknowledged
  | terminated
deriving DecidableEq, Repr

/-- A delivery: what it has done, and what is left of `process_message`. -/
structure DeliveryRun (A : Type) where
  message : JetStreamMessage
  trace : ConsumerTrace A
  rest : Program (ConsumerCall A) ConsumerCall.Answer (Except ConsumeErrorKind Unit)

structure SourceMessage (A : Type) where
  status : SourceStatus
  /-- The number of the last delivery. -/
  attempts : Int
  runs : List (DeliveryRun A)

/-- The status after a call of a delivery, if it arrives at the server. -/
def SourceStatus.after {A : Type} (status : SourceStatus) (call : ConsumerCall A) (arrives : Bool) :
    SourceStatus :=
  match status, call, arrives with
  | .pending, .acknowledge .ack, true => .acknowledged
  | .pending, .acknowledge .term, true => .terminated
  | status, _, _ => status

/-- The reply says that the call has arrived. -/
def ConsumerCall.Arrived {A : Type} : (call : ConsumerCall A) → call.Answer → Prop
  | acknowledge _, confirmed => confirmed = true
  | _, _ => True

inductive SourceStep (A : Type) where
  | deliver (info : Option RawInfo)
  | call (run : Nat) (event : ConsumerEvent A) (arrives : Bool)

section Deliveries

variable [Crates] {A : Type} [DecidableEq A] [ConsumableAddress A] (settings : ConsumerSettings A)
  (content : SourceContent)

/-- A pending message is delivered, with the next number; or a delivery makes its next call. -/
inductive SourceMessage.Takes : SourceMessage A → SourceStep A → SourceMessage A → Prop where
  | deliver {s : SourceMessage A} {info : Option RawInfo} (hpending : s.status = .pending)
      (hinfo : ∀ raw, info = some raw →
        s.attempts < raw.delivered ∧ raw.streamSequence = content.sequence) :
      Takes s (.deliver info)
        { s with
          attempts := info.elim s.attempts (·.delivered)
          runs := s.runs ++ [⟨content.delivered info, [],
            (processMessage settings (content.delivered info)).run⟩] }
  | call {s : SourceMessage A} {i : Nat} {run : DeliveryRun A} {op : ConsumerCall A}
      {next : op.Answer → Program (ConsumerCall A) ConsumerCall.Answer (Except ConsumeErrorKind Unit)}
      {answer : op.Answer} {arrives : Bool} (hrun : s.runs[i]? = some run)
      (hrest : run.rest = .call op next) (harrives : op.Arrived answer → arrives = true) :
      Takes s (.call i ⟨op, answer⟩ arrives)
        { s with
          status := s.status.after op arrives
          runs := s.runs.set i
            { run with trace := run.trace ++ [⟨op, answer⟩], rest := next answer } }

/-- The deliveries of a message, in any order. -/
def deliveryMachine : Machine (SourceMessage A) (SourceStep A) where
  start s := s = ⟨.pending, 0, []⟩
  step := SourceMessage.Takes settings content

variable {settings content} {s s' : SourceMessage A}

/-- What holds of the deliveries of a message. -/
structure SourceMessage.Kept (settings : ConsumerSettings A) (s : SourceMessage A) : Prop where
  obeys : ∀ run ∈ s.runs, Obeys (Permitted settings run.message) run.trace
  monitored : ∀ run ∈ s.runs,
    Monitored (Permitted settings run.message) (fun _ _ => True) run.rest run.trace
  acknowledged : s.status = .acknowledged → ∃ run ∈ s.runs, ∃ answer,
    (⟨.acknowledge .ack, answer⟩ : ConsumerEvent A) ∈ run.trace
  terminated : s.status = .terminated → ∃ run ∈ s.runs, ∃ answer,
    (⟨.acknowledge .term, answer⟩ : ConsumerEvent A) ∈ run.trace

omit [DecidableEq A] [ConsumableAddress A] [Crates] in
/-- The status after a call is the one before, or the call has settled the message. -/
theorem SourceStatus.after_eq (status : SourceStatus) (call : ConsumerCall A) (arrives : Bool) :
    status.after call arrives = status ∨
      (status.after call arrives = .acknowledged ∧ call = .acknowledge .ack) ∨
      status.after call arrives = .terminated ∧ call = .acknowledge .term := by
  unfold SourceStatus.after
  split
  · exact .inr (.inl ⟨rfl, rfl⟩)
  · exact .inr (.inr ⟨rfl, rfl⟩)
  · exact .inl rfl

theorem deliveryMachine_kept :
    (deliveryMachine settings content).Invariant (SourceMessage.Kept settings) where
  start := by
    rintro s rfl
    exact ⟨by simp, by simp, nofun, nofun⟩
  step := by
    intro s label s' h hstep
    cases hstep with
    | deliver hpending hinfo =>
      refine ⟨fun run hrun => ?_, fun run hrun => ?_, fun hstatus => ?_, fun hstatus => ?_⟩
      · rcases List.mem_append.mp hrun with hold | hnew
        · exact h.obeys run hold
        · rw [List.mem_singleton.mp hnew]
          exact obeys_nil
      · rcases List.mem_append.mp hrun with hold | hnew
        · exact h.monitored run hold
        · rw [List.mem_singleton.mp hnew]
          exact Monitored.mono processMessage_monitored fun _ _ _ => trivial
      · rw [hpending] at hstatus
        cases hstatus
      · rw [hpending] at hstatus
        cases hstatus
    | @call i run op next answer arrives hrun hrest _ =>
      have hmem := List.mem_of_getElem? hrun
      obtain ⟨hlt, -⟩ := List.getElem?_eq_some_iff.mp hrun
      have hmonitored := h.monitored run hmem
      rw [hrest] at hmonitored
      let run' : DeliveryRun A :=
        { run with trace := run.trace ++ [⟨op, answer⟩], rest := next answer }
      have hnew : run' ∈ s.runs.set i run' := List.mem_set hlt _
      -- what another delivery, or this one before, has done is still there
      have hkeep : ∀ event : ConsumerEvent A, (∃ r ∈ s.runs, event ∈ r.trace) →
          ∃ r ∈ s.runs.set i run', event ∈ r.trace := by
        rintro event ⟨r, hr, hevent⟩
        obtain ⟨k, hk⟩ := List.mem_iff_getElem?.mp hr
        by_cases hki : i = k
        · subst hki
          rw [hrun, Option.some.injEq] at hk
          exact ⟨run', hnew, List.mem_append_left _ (hk ▸ hevent)⟩
        · refine ⟨r, List.mem_iff_getElem?.mpr ⟨k, ?_⟩, hevent⟩
          rwa [List.getElem?_set_ne hki]
      have hlast : ∀ event : ConsumerEvent A, event = ⟨op, answer⟩ →
          ∃ r ∈ s.runs.set i run', event ∈ r.trace := by
        rintro event rfl
        exact ⟨run', hnew, List.mem_append_right _ (List.mem_singleton.mpr rfl)⟩
      refine ⟨fun r hr => ?_, fun r hr => ?_, fun hstatus => ?_, fun hstatus => ?_⟩
      · rcases List.mem_or_eq_of_mem_set hr with hold | rfl
        · exact h.obeys r hold
        · exact (h.obeys run hmem).snoc hmonitored.1 answer
      · rcases List.mem_or_eq_of_mem_set hr with hold | rfl
        · exact h.monitored r hold
        · exact hmonitored.2 answer
      · rcases SourceStatus.after_eq s.status op arrives with
          hsame | ⟨-, rfl⟩ | ⟨hterm, rfl⟩
        · obtain ⟨r, hr, a, ha⟩ := h.acknowledged (hsame.symm.trans hstatus)
          obtain ⟨r', hr', ha'⟩ := hkeep _ ⟨r, hr, ha⟩
          exact ⟨r', hr', a, ha'⟩
        · obtain ⟨r', hr', ha'⟩ := hlast _ rfl
          exact ⟨r', hr', answer, ha'⟩
        · cases hterm.symm.trans hstatus
      · rcases SourceStatus.after_eq s.status op arrives with
          hsame | ⟨hack, rfl⟩ | ⟨-, rfl⟩
        · obtain ⟨r, hr, a, ha⟩ := h.terminated (hsame.symm.trans hstatus)
          obtain ⟨r', hr', ha'⟩ := hkeep _ ⟨r, hr, ha⟩
          exact ⟨r', hr', a, ha'⟩
        · cases hack.symm.trans hstatus
        · obtain ⟨r', hr', ha'⟩ := hlast _ rfl
          exact ⟨r', hr', answer, ha'⟩

/-- The message was settled by this delivery: its handler said so, or its record was confirmed. -/
def Settled (settings : ConsumerSettings A) (run : DeliveryRun A) : Prop :=
  Answered run.trace .acknowledge ∨ Answered run.trace .terminate ∨
    Quarantined settings run.message run.trace

/-- The message is one of this consumer, and the delivery is at the maximum of attempts or above. -/
def Exhausted (settings : ConsumerSettings A) (message : JetStreamMessage) : Prop :=
  ∃ raw, message.info = some raw ∧ ¬ Misrouted settings message raw ∧
    (settings.maximumDeliveryAttempts : Int) ≤ raw.delivered

theorem SourceMessage.Kept.settled (h : s.Kept settings) (hstatus : s.status ≠ .pending) :
    ∃ run ∈ s.runs, Settled settings run := by
  cases hs : s.status with
  | pending => exact absurd hs hstatus
  | acknowledged =>
    obtain ⟨run, hrun, answer, hmem⟩ := h.acknowledged hs
    obtain ⟨before, after, htrace, hbefore⟩ := (h.obeys run hrun).of_mem hmem
    refine ⟨run, hrun, .inl ?_⟩
    rw [htrace]
    exact Answered.append hbefore _
  | terminated =>
    obtain ⟨run, hrun, answer, hmem⟩ := h.terminated hs
    obtain ⟨before, after, htrace, hbefore⟩ := (h.obeys run hrun).of_mem hmem
    refine ⟨run, hrun, ?_⟩
    unfold Settled
    rw [htrace]
    rcases hbefore with hanswered | hquarantined
    · exact .inr (.inl (hanswered.append _))
    · exact .inr (.inr (hquarantined.append _))

theorem SourceMessage.Kept.silent (h : s.Kept settings) {run : DeliveryRun A} (hrun : run ∈ s.runs)
    (hexhausted : Exhausted settings run.message) (hsettled : ¬ Settled settings run)
    (kind : AckKind) (answer : Bool) :
    (⟨.acknowledge kind, answer⟩ : ConsumerEvent A) ∉ run.trace := by
  intro hmem
  obtain ⟨before, after, htrace, hbefore⟩ := (h.obeys run hrun).of_mem hmem
  unfold Settled at hsettled
  rw [htrace] at hsettled
  cases kind with
  | ack => exact hsettled (.inl (Answered.append hbefore _))
  | term =>
    rcases hbefore with hanswered | hquarantined
    · exact hsettled (.inr (.inl (hanswered.append _)))
    · exact hsettled (.inr (.inr (hquarantined.append _)))
  | nak delay =>
    obtain ⟨raw, hraw, hreason⟩ := hbefore
    obtain ⟨raw', hraw', hrouted, hmaximum⟩ := hexhausted
    obtain rfl := Option.some.inj (hraw.symm.trans hraw')
    rcases hreason with hmisrouted | hless
    · exact hrouted hmisrouted
    · omega

/-- In every run of deliveries: what a delivery does was permitted by what it had done; a delivery
of this consumer at the maximum of attempts or above that does not settle the message sends nothing
for it; and the message leaves its pending state only by a delivery that settles it. -/
theorem deliveries_settled (h : (deliveryMachine settings content).Reachable s) :
    (∀ run ∈ s.runs, Obeys (Permitted settings run.message) run.trace) ∧
      (∀ run ∈ s.runs, Exhausted settings run.message → ¬ Settled settings run →
        ∀ kind answer, (⟨.acknowledge kind, answer⟩ : ConsumerEvent A) ∉ run.trace) ∧
      (s.status ≠ .pending → ∃ run ∈ s.runs, Settled settings run) := by
  have hkept := deliveryMachine_kept.reachable h
  exact ⟨hkept.obeys, fun run hrun hexhausted hsettled => hkept.silent hrun hexhausted hsettled,
    hkept.settled⟩

end Deliveries

/-! ## A consumer of orders -/

section Orders

attribute [local instance] Crates.concrete

def placeOrder : CommandAddress :=
  ⟨"shop.command.orders.place-order", "shop", .normal, "orders", "place-order", by decide +kernel⟩

def orderSettings : ConsumerSettings CommandAddress :=
  ⟨"commands", "quarantine", 1000000000, "worker", placeOrder, 3⟩

/-- A message on a subject, under the identity that decoding asks for. -/
def orderContent (subject : String) : SourceContent :=
  ⟨subject, some [("Content-Type", "application/json"), ("Nats-Msg-Id", "message-1")], [], 1⟩

def firstDelivery : RawInfo := ⟨"commands", "worker", 1, 1, 1, 0⟩
def lastDelivery : RawInfo := ⟨"commands", "worker", 1, 3, 3, 0⟩

theorem order_decodes : ∃ delivery, decodeDelivery
    ((orderContent "shop.command.orders.place-order").delivered (some firstDelivery)) ⟨1, 0, 1, 1⟩
    placeOrder = .ok delivery := by
  have hok : (decodeDelivery
      ((orderContent "shop.command.orders.place-order").delivered (some firstDelivery))
      ⟨1, 0, 1, 1⟩ placeOrder).isOk = true := by decide +kernel
  cases hdecode : decodeDelivery
      ((orderContent "shop.command.orders.place-order").delivered (some firstDelivery))
      ⟨1, 0, 1, 1⟩ placeOrder with
  | ok delivery => exact ⟨delivery, rfl⟩
  | error e =>
    rw [hdecode] at hok
    cases hok

/-- The handler acknowledges the first delivery of an order. -/
theorem deliveries_settled_acknowledged :
    ∃ s, (deliveryMachine orderSettings
        (orderContent "shop.command.orders.place-order")).Reachable s ∧
      s.status = .acknowledged ∧ ∃ run ∈ s.runs, Settled orderSettings run := by
  obtain ⟨delivery, hdelivery⟩ := order_decodes
  have hprocess : processMessage orderSettings
      ((orderContent "shop.command.orders.place-order").delivered (some firstDelivery)) =
      (handleWithProgress delivery >>= applyDisposition orderSettings delivery) :=
    processMessage_of_decoded rfl (by decide) rfl hdelivery (by decide)
  have hreach : (deliveryMachine orderSettings
      (orderContent "shop.command.orders.place-order")).Reachable
      ⟨.acknowledged, 1, [⟨(orderContent "shop.command.orders.place-order").delivered
        (some firstDelivery), [⟨.progress, true⟩, ⟨.invoke delivery, (0 : Nat)⟩,
          ⟨.handled, some DeliveryDisposition.acknowledge⟩, ⟨.progress, true⟩,
          ⟨.acknowledge .ack, true⟩], .done (.ok ())⟩]⟩ := by
    refine ⟨⟨.pending, 0, []⟩, [.deliver (some firstDelivery), .call 0 ⟨.progress, true⟩ true,
      .call 0 ⟨.invoke delivery, (0 : Nat)⟩ true,
      .call 0 ⟨.handled, some DeliveryDisposition.acknowledge⟩ true, .call 0 ⟨.progress, true⟩ true,
      .call 0 ⟨.acknowledge .ack, true⟩ true], rfl, ?_⟩
    refine .cons (.deliver rfl ?_) ?_
    · rintro raw ⟨⟩
      exact ⟨by decide, rfl⟩
    rw [hprocess]
    refine .cons (.call rfl rfl fun _ => rfl) (.cons (.call rfl rfl fun _ => rfl)
      (.cons (.call rfl rfl fun _ => rfl) (.cons (.call rfl rfl fun _ => rfl)
        (.cons (.call rfl rfl fun _ => rfl) (.nil _)))))
  exact ⟨_, hreach, rfl, (deliveries_settled hreach).2.2 nofun⟩

/-- A message on another subject is sent back at the last attempt, with a retry. -/
theorem misrouted_retried :
    ∃ s, (deliveryMachine orderSettings
        (orderContent "shop.command.orders.cancel-order")).Reachable s ∧
      ∃ run ∈ s.runs, run.message.info = some lastDelivery ∧
        (orderSettings.maximumDeliveryAttempts : Int) ≤ lastDelivery.delivered ∧
        ¬ Settled orderSettings run ∧
        (⟨.acknowledge (.nak (some 1000000000)), true⟩ : ConsumerEvent CommandAddress) ∈
          run.trace := by
  let message := (orderContent "shop.command.orders.cancel-order").delivered (some lastDelivery)
  let run : DeliveryRun CommandAddress :=
    ⟨message, [⟨.acknowledge (.nak (some 1000000000)), true⟩], .done (.ok ())⟩
  have hprocess : processMessage orderSettings message =
      applyAck (.nak (some defaultQuarantineRetryDelay)) :=
    processMessage_of_misrouted rfl (by decide)
  refine ⟨⟨.pending, 3, [run]⟩, ⟨⟨.pending, 0, []⟩, [.deliver (some lastDelivery),
    .call 0 ⟨.acknowledge (.nak (some 1000000000)), true⟩ true], rfl, ?_⟩, run, by simp, rfl,
    by decide, ?_, by simp [run]⟩
  · refine .cons (.deliver rfl ?_) ?_
    · rintro raw ⟨⟩
      exact ⟨by decide, rfl⟩
    rw [show (orderContent "shop.command.orders.cancel-order").delivered (some lastDelivery) =
      message from rfl, hprocess]
    exact .cons (.call rfl rfl fun _ => rfl) (.nil _)
  · rintro (hanswered | hanswered | ⟨_, _, _, _, -, -, -, hmem, -⟩)
    · cases List.mem_singleton.mp hanswered
    · cases List.mem_singleton.mp hanswered
    · cases List.mem_singleton.mp hmem

end Orders

end Rostfrei.Nats
