import Rostfrei.Nats.Broker
import Rostfrei.Nats.Wire

/-!
# Reading the history of a stream

`loadRawHistoryThrough` replays the messages of a stream from the broker, up to the last one that
was there when it started or up to a cutoff. Each message is decoded and pushed, so the result is a
function of the messages (`rawHistoryThrough`); `extendHistory` goes on from a history that was
loaded before.

The reads of one replay are separate calls, and the journal grows between them. What is read up to
the position that was last when the replay started is the same in every longer journal, so the
replay answers as if all of it had been read at once (`loadRawHistoryThrough_safe`).
-/

namespace Rostfrei.Nats

open Lib Lib.Program

/-- `Context::get_stream` with the text of its error. -/
def getStream (message : String) : BrokerCode (List (String × String)) := do
  let answer : BrokerCall.StreamAnswer ← ask .getStream
  liftM (answer.mapError fun error => unavailable (message ++ ": " ++ error))

section Reader

variable [Crates]

/-! ## Programs -/

/-- What the loop of `read_history_through` keeps; the next sequence is one after the last seen. -/
structure HistoryRead where
  history : HistoryBuilder := {}
  lastCommitStreamSequence : Nat := 0
  lastSeenSequence : Nat := 0

/-- A delivered message is decoded and pushed. -/
def HistoryRead.deliver (config : NatsEventStoreConfig) (streamId : StreamId) (read : HistoryRead)
    (sequence : Nat) (message : Message) : Except EventStoreError HistoryRead := do
  let stored ← decodeEvent config (config.aggregateSubject streamId) streamId
    (some read.lastCommitStreamSequence) sequence message.headers message.payload
  let nextEventOrdinal ← okOr (corrupt "stored event has invalid commit coordinates")
    (checkedAdd stored.decoded.eventOrdinal 1)
  let history ← read.history.push stored
  return {
    history
    lastCommitStreamSequence :=
      if nextEventOrdinal = stored.decoded.eventCount then sequence
      else read.lastCommitStreamSequence
    lastSeenSequence := sequence }

/-- The loop of `read_history_through`; every round moves past at least one sequence. -/
def readDeliveries (config : NatsEventStoreConfig) (streamId : StreamId) (lastSequence : Nat)
    (truncatedAtSnapshot : Bool) : Nat → HistoryRead → BrokerCode HistoryRead
  | 0, read => return read
  | rounds + 1, read =>
    if read.lastSeenSequence + 1 ≤ lastSequence then do
      let delivery : Except EventStoreError (Nat × Message) ←
        ask (.nextDelivery (config.aggregateSubject streamId) (read.lastSeenSequence + 1))
      let (sequence, message) ← liftM delivery
      if sequence > lastSequence ∧ truncatedAtSnapshot then return read
      else do
        liftM (rejectIf (message.subject ≠ config.aggregateSubject streamId)
          (corrupt "aggregate history contains the wrong subject"))
        liftM (rejectIf (sequence < read.lastSeenSequence + 1 ∨ sequence > lastSequence)
          (corrupt "aggregate history returned an invalid stream sequence"))
        let read ← liftM (read.deliver config streamId sequence message)
        if sequence = lastSequence then return read
        else do
          let _ ← liftM (okOr (corrupt "JetStream sequence space overflowed")
            (checkedAdd sequence 1))
          readDeliveries config streamId lastSequence truncatedAtSnapshot rounds read
    else return read

/-- `read_history_through`. -/
def readHistoryThrough (config : NatsEventStoreConfig) (streamId : StreamId) (lastSequence : Nat)
    (truncatedAtSnapshot : Bool) : BrokerCode History := do
  let read ← readDeliveries config streamId lastSequence truncatedAtSnapshot lastSequence {}
  liftM (rejectIf (¬ truncatedAtSnapshot ∧ read.lastSeenSequence ≠ lastSequence)
    (corrupt "aggregate history ended before its last message"))
  if read.lastSeenSequence = 0 ∧ truncatedAtSnapshot then return {}
  else liftM (read.history.finish read.lastSeenSequence)

/-- `load_raw_history_through`; the replay is closed whether or not it succeeds. -/
def loadRawHistoryThrough (config : NatsEventStoreConfig) (streamId : StreamId)
    (maximumStreamSequence : Option Nat) : BrokerCode History := do
  let _ ← getStream "failed to get event-store stream"
  let found : RawAnswer ← ask (.lastRawMessage (config.aggregateSubject streamId))
  match found with
  | .error .noMessageFound => return {}
  | .error (.other text) =>
    throwThe EventStoreError (unavailable ("failed to locate aggregate history: " ++ text))
  | .ok (lastSubjectSequence, message) =>
    liftM (rejectIf (message.subject ≠ config.aggregateSubject streamId)
      (corrupt "aggregate lookup returned the wrong subject"))
    let lastSequence := maximumStreamSequence.elim lastSubjectSequence (min · lastSubjectSequence)
    if lastSequence = 0 then return {}
    else do
      let reader : Except EventStoreError Unit ←
        ask (.openReplay (config.aggregateSubject streamId))
      liftM reader
      let result ← ExceptT.lift (readHistoryThrough config streamId lastSequence
        (lastSequence < lastSubjectSequence)).run
      let cleanup : Except EventStoreError Unit ← ask .closeReplay
      let history ← liftM result
      liftM cleanup
      return history

/-- `load_raw_history`. -/
def loadRawHistory (config : NatsEventStoreConfig) (streamId : StreamId) : BrokerCode History :=
  loadRawHistoryThrough config streamId none

/-- The loop of `extend_history`, from a sequence on. -/
def extendDeliveries (config : NatsEventStoreConfig) (streamId : StreamId)
    (previousSequence lastSequence : Nat) (batchId : String) (eventCount : Nat) :
    Nat → HistoryBuilder → Nat → BrokerCode (HistoryBuilder × Nat)
  | 0, builder, sequence => return (builder, sequence)
  | rounds + 1, builder, sequence => do
    let nextSequence ← liftM (okOr (corrupt "JetStream sequence space overflowed")
      (checkedAdd sequence 1))
    let found : RawAnswer ←
      ask (.firstRawMessage (config.aggregateSubject streamId) nextSequence)
    match found with
    | .error .noMessageFound =>
      throwThe EventStoreError (corrupt "published history disappeared while verifying")
    | .error (.other text) =>
      throwThe EventStoreError (unavailable ("failed to verify published event: " ++ text))
    | .ok (sequence, message) =>
      liftM (rejectIf
        (message.subject ≠ config.aggregateSubject streamId ∨ sequence < nextSequence ∨
          sequence > lastSequence)
        (corrupt "published history returned an invalid subject or sequence"))
      let stored ← liftM (decodeEvent config (config.aggregateSubject streamId) streamId
        (some previousSequence) sequence message.headers message.payload)
      liftM (rejectIf (stored.decoded.batchId ≠ batchId ∨ stored.decoded.eventCount ≠ eventCount)
        (corrupt "published event contains different batch metadata"))
      let builder ← liftM (builder.push stored)
      extendDeliveries config streamId previousSequence lastSequence batchId eventCount rounds
        builder sequence

/-- `extend_history`. -/
def extendHistory (config : NatsEventStoreConfig) (streamId : StreamId) (previous : History)
    (lastSequence : Nat) (batchId : String) (eventCount : Nat) : BrokerCode History := do
  let _ ← getStream "failed to verify published history"
  let (builder, sequence) ← extendDeliveries config streamId previous.lastSubjectStreamSequence
    lastSequence batchId eventCount eventCount (HistoryBuilder.fromHistory previous)
    previous.lastSubjectStreamSequence
  liftM (rejectIf (eventCount = 0 ∨ sequence ≠ lastSequence)
    (corrupt "PubAck sequence did not identify the published commit"))
  liftM (builder.finish lastSequence)

/-! ## What is read -/

/-- The deliveries of messages, one after the other. -/
def readAll (config : NatsEventStoreConfig) (streamId : StreamId) (read : HistoryRead)
    (items : List (Nat × Message)) : Except EventStoreError HistoryRead :=
  items.foldlM (fun read item => read.deliver config streamId item.1 item.2) read

/-- The messages of a stream. -/
abbrev streamItems (config : NatsEventStoreConfig) (streamId : StreamId) (log : List Message) :
    List (Nat × Message) :=
  itemsOn Message.subject (config.aggregateSubject streamId) log

/-- The last sequence that is read. -/
def cutoff (config : NatsEventStoreConfig) (streamId : StreamId) (limit : Option Nat)
    (log : List Message) : Nat :=
  let last := lastSequence (config.aggregateSubject streamId) log
  limit.elim last (min · last)

/-- The history of a stream in a journal, up to a cutoff. -/
def rawHistoryThrough (config : NatsEventStoreConfig) (streamId : StreamId) (limit : Option Nat)
    (log : List Message) : Except EventStoreError History :=
  let items := through (cutoff config streamId limit log) (streamItems config streamId log)
  if items = [] then .ok {}
  else do
    let read ← readAll config streamId {} items
    read.history.finish read.lastSeenSequence

/-- The history of a stream in a journal. -/
def rawHistory (config : NatsEventStoreConfig) (streamId : StreamId) (log : List Message) :
    Except EventStoreError History :=
  rawHistoryThrough config streamId none log

variable {config : NatsEventStoreConfig} {streamId : StreamId}

@[simp] theorem readAll_nil {read : HistoryRead} : readAll config streamId read [] = .ok read := rfl

theorem readAll_cons {read : HistoryRead} {item : Nat × Message} {items : List (Nat × Message)} :
    readAll config streamId read (item :: items) =
      read.deliver config streamId item.1 item.2 >>= (readAll config streamId · items) := by
  simp [readAll]

theorem readAll_append {read : HistoryRead} {items more : List (Nat × Message)} :
    readAll config streamId read (items ++ more) =
      readAll config streamId read items >>= (readAll config streamId · more) := by
  simp only [readAll, List.foldlM_append]

theorem decodeEvent_coordinates {subject : String} {expected : Option Nat} {sequence : Nat}
    {headers : HeaderMap} {payload : Bytes} {stored : DecodedStoredEvent}
    (h : decodeEvent config subject streamId expected sequence headers payload = .ok stored) :
    stored.decoded.eventOrdinal < stored.decoded.eventCount ∧
      stored.decoded.eventCount ≤ maxEventsPerBatch := by
  simp only [decodeEvent, decodeEventInner, bind_eq_ok, rejectIf_eq_ok, pure_eq_ok] at h
  obtain ⟨_, ⟨-, -, wire, -, -, -, -, -, _, -, -, hcoordinates, _, -, -, -, _, -, _, -, rfl⟩, rfl⟩ := h
  show wire.event.commitEventOrdinal < wire.event.commitEventCount ∧
    wire.event.commitEventCount ≤ maxEventsPerBatch
  omega

theorem deliver_eq_ok {read read' : HistoryRead} {sequence : Nat} {message : Message} :
    read.deliver config streamId sequence message = .ok read' ↔
      ∃ stored, decodeEvent config (config.aggregateSubject streamId) streamId
          (some read.lastCommitStreamSequence) sequence message.headers message.payload =
            .ok stored ∧
        ∃ history, read.history.push stored = .ok history ∧
          read' =
            { history
              lastCommitStreamSequence :=
                if stored.decoded.eventOrdinal + 1 = stored.decoded.eventCount then sequence
                else read.lastCommitStreamSequence
              lastSeenSequence := sequence } := by
  simp only [HistoryRead.deliver, bind_eq_ok, okOr_eq_ok, checkedAdd_eq_some, pure_eq_ok]
  constructor
  · rintro ⟨stored, hdecode, _, ⟨-, rfl⟩, history, hpush, rfl⟩
    exact ⟨stored, hdecode, history, hpush, rfl⟩
  · rintro ⟨stored, hdecode, history, hpush, rfl⟩
    have hmax : maxEventsPerBatch = 100 := rfl
    have := decodeEvent_coordinates hdecode
    exact ⟨stored, hdecode, _, ⟨by omega, rfl⟩, history, hpush, rfl⟩

theorem lastSeen_of_deliver {read read' : HistoryRead} {sequence : Nat} {message : Message}
    (h : read.deliver config streamId sequence message = .ok read') :
    read'.lastSeenSequence = sequence := by
  obtain ⟨_, -, _, -, rfl⟩ := deliver_eq_ok.mp h
  rfl

/-- The last message that was delivered is the last one seen. -/
theorem lastSeen_of_readAll {read read' : HistoryRead} {items : List (Nat × Message)}
    (h : readAll config streamId read items = .ok read') :
    read'.lastSeenSequence = items.getLast?.elim read.lastSeenSequence Prod.fst := by
  induction items generalizing read with
  | nil =>
    cases h
    rfl
  | cons item items ih =>
    rw [readAll_cons, bind_eq_ok] at h
    obtain ⟨read₁, hdeliver, hrest⟩ := h
    rw [ih hrest, lastSeen_of_deliver hdeliver, List.getLast?_cons]
    cases items.getLast? <;> rfl

/-- A history is empty, or the finished one of a reader of the items. -/
theorem rawHistoryThrough_eq_ok {limit : Option Nat} {log : List Message} {history : History} :
    rawHistoryThrough config streamId limit log = .ok history ↔
      (through (cutoff config streamId limit log) (streamItems config streamId log) = [] ∧
          history = {}) ∨
        (through (cutoff config streamId limit log) (streamItems config streamId log) ≠ [] ∧
          ∃ read, readAll config streamId {}
              (through (cutoff config streamId limit log) (streamItems config streamId log)) =
                .ok read ∧
            read.history.finish read.lastSeenSequence = .ok history) := by
  simp only [rawHistoryThrough]
  split
  · next hnil => simp [hnil, eq_comm]
  · next hne => simp only [hne, bind_eq_ok, false_and, false_or, ne_eq, not_false_eq_true, true_and]

/-! ## Replays -/

section Safety

variable {P : Protocol BrokerCall BrokerCall.Answer Broker} {faults : Prop} {b : Broker}
  (host : Hosts P config faults)

include host

omit [Crates] in
theorem getStream_safe {message : String} :
    Ends P (fun _ _ => True) (fun _ _ => faults) (getStream message) b := by
  refine host.read trivial fun b₁ _ _ r hr => Ends.lift (fun _ _ _ _ _ => trivial) fun e he => ?_
  rcases hr with rfl | ⟨hfaults, -⟩
  · cases he
  · exact fun _ _ _ => hfaults

/-- What a replay still has to deliver up to the last sequence, if the journal was `log` when it
started. The round ends the loop or leaves it at the next message. -/
theorem readDeliveries_safe {log : List Message} {last rounds : Nat} {truncated : Bool}
    {read : HistoryRead} (hlog : log <+: b.journal) (hlength : last ≤ log.length)
    (hmore : ∃ item ∈ streamItems config streamId log, last ≤ item.1)
    (hend : truncated = false → lastSequence (config.aggregateSubject streamId) log = last)
    (hrounds : last ≤ read.lastSeenSequence + rounds) :
    Ends P
      (fun read' _ => readAll config streamId read
        ((through last (streamItems config streamId log)).filter
          (read.lastSeenSequence + 1 ≤ ·.1)) = .ok read')
      (fun error _ => faults ∨ readAll config streamId read
        ((through last (streamItems config streamId log)).filter
          (read.lastSeenSequence + 1 ≤ ·.1)) = .error error)
      (readDeliveries config streamId last truncated rounds read) b := by
  -- Past the last sequence there is nothing left to deliver.
  have hdone : ∀ read : HistoryRead, last ≤ read.lastSeenSequence →
      (through last (streamItems config streamId log)).filter
        (read.lastSeenSequence + 1 ≤ ·.1) = [] := fun read hread => by
    refine List.filter_eq_nil_iff.mpr fun item hitem => ?_
    have hle := (List.mem_filter.mp hitem).2
    simp only [decide_eq_true_eq] at hle ⊢
    omega
  induction rounds generalizing read b with
  | zero =>
    refine Ends.pure fun _ _ _ => ?_
    rw [hdone read (by omega)]
    rfl
  | succ rounds ih =>
    unfold readDeliveries
    split
    case isFalse hpast =>
      refine Ends.pure fun _ _ _ => ?_
      rw [hdone read (by omega)]
      rfl
    case isTrue hnext =>
      obtain ⟨item, hitem, hle⟩ := hmore
      obtain ⟨found, hfound⟩ : ∃ found, firstFrom Message.subject
          (config.aggregateSubject streamId) (read.lastSeenSequence + 1) log = some found := by
        rw [← Option.ne_none_iff_exists']
        intro hnone
        rw [firstFrom_eq_none, List.filter_eq_nil_iff] at hnone
        have := hnone item hitem
        simp only [decide_eq_true_eq] at this
        omega
      obtain ⟨hmem, hfrom, hsplit⟩ := firstFrom_eq_some hfound
      refine host.read trivial fun b₁ hrely₁ hinv₁ r hr => ?_
      obtain ⟨more, hjournal⟩ := hlog.trans (host.grows hrely₁)
      have hserve : (b₁.serve config (.nextDelivery (config.aggregateSubject streamId)
          (read.lastSeenSequence + 1))).1 = .ok found := by
        simp only [Broker.serve, ← hjournal, firstFrom_append hfound]
        rfl
      have hlog₁ : log <+: b₁.journal := ⟨more, hjournal⟩
      have hrest : (through last (streamItems config streamId log)).filter
          (read.lastSeenSequence + 1 ≤ ·.1) =
          if found.1 ≤ last then found ::
            (through last (streamItems config streamId log)).filter (found.1 + 1 ≤ ·.1)
          else [] := by
        have hswap : ∀ n, (through last (streamItems config streamId log)).filter (n ≤ ·.1) =
            through last ((streamItems config streamId log).filter (n ≤ ·.1)) := fun n => by
          simp only [through, List.filter_filter, Bool.and_comm]
        rw [hswap, hswap, hsplit]
        split
        · next hin => simp [through, hin]
        · next hout =>
          refine List.filter_eq_nil_iff.mpr fun p hp => ?_
          simp only [decide_eq_true_eq]
          rcases List.mem_cons.mp hp with rfl | hp
          · omega
          · have := (List.mem_filter.mp hp).2
            simp only [decide_eq_true_eq] at this
            omega
      rcases hr with rfl | ⟨hfaults, error, rfl⟩
      · rw [hserve]
        refine Ends.liftBind (fun a ha => ?_) fun _ h => by cases h
        cases ha
        show Ends P _ _ (if found.1 > last ∧ truncated = true then _ else _) b₁
        split
        · next hstop =>
          refine Ends.pure fun _ _ _ => ?_
          rw [hrest, if_neg (by omega)]
          rfl
        · next hgo =>
          have hin : found.1 ≤ last := by
            cases htruncated : truncated with
            | true =>
              rw [htruncated] at hgo
              simpa using hgo
            | false =>
              rw [← hend htruncated]
              exact le_lastPosition hmem
          have hsubject : found.2.subject = config.aggregateSubject streamId :=
            (mem_itemsOn.mp hmem).2.2
          rw [hrest, if_pos hin, readAll_cons]
          refine Ends.liftBind (fun _ _ => ?_) fun e he => ?_
          · refine Ends.liftBind (fun _ _ => ?_) fun e he => ?_
            · refine Ends.liftBind (fun read₁ hread₁ => ?_)
                fun e he _ _ _ => .inr (by rw [he]; rfl)
              have hseen := lastSeen_of_deliver hread₁
              rw [hread₁, ok_bind, ← hseen]
              split
              · next hlast =>
                refine Ends.pure fun _ _ _ => ?_
                rw [hdone read₁ (by omega)]
                rfl
              · next hlast =>
                have hsmall := host.small hinv₁
                have := hlog₁.length_le
                refine Ends.liftBind (fun _ _ => ?_) fun e he => ?_
                · exact ih hlog₁ (by omega)
                · have hsome : checkedAdd read₁.lastSeenSequence 1 =
                      some (read₁.lastSeenSequence + 1) :=
                    checkedAdd_eq_some.mpr ⟨by omega, rfl⟩
                  rw [hsome] at he
                  cases he
            · simp only [rejectIf_eq_error] at he
              omega
          · exact absurd (rejectIf_eq_error.mp he).1 (not_not.mpr hsubject)
      · exact fun _ _ _ => .inl hfaults

/-- The replay ends with the history of the items, or with their error. -/
theorem readHistoryThrough_safe {log : List Message} {last : Nat} {truncated : Bool}
    (hlog : log <+: b.journal) (hlength : last ≤ log.length)
    (hmore : ∃ item ∈ streamItems config streamId log, last ≤ item.1)
    (hend : truncated = false → lastSequence (config.aggregateSubject streamId) log = last) :
    let items := through last (streamItems config streamId log)
    let history := if items = [] then .ok {}
      else readAll config streamId {} items >>= fun read => read.history.finish read.lastSeenSequence
    Ends P (fun h _ => history = .ok h) (fun error _ => faults ∨ history = .error error)
      (readHistoryThrough config streamId last truncated) b := by
  intro items history
  have hall : items.filter (({} : HistoryRead).lastSeenSequence + 1 ≤ ·.1) = items := by
    refine List.filter_eq_self.mpr fun item hitem => ?_
    have := (position_le (List.mem_filter.mp hitem).1).1
    simp only [decide_eq_true_eq]
    omega
  have hloop := readDeliveries_safe host hlog hlength hmore hend
    (show last ≤ ({} : HistoryRead).lastSeenSequence + last by omega)
  rw [show (through last (streamItems config streamId log)) = items from rfl, hall] at hloop
  refine Ends.bind hloop (fun read b₁ _ hinv hread => ?_) fun error b₁ _ hinv herror => ?_
  · have hseen := lastSeen_of_readAll hread
    by_cases hnone : items = []
    · -- Nothing up to the cutoff: it is before the last message.
      have htruncated : truncated = true := by
        by_contra hfalse
        obtain ⟨item, hitem, hle⟩ := hmore
        have hlast := le_lastPosition hitem
        rw [show lastPosition _ _ _ = last from hend (by simpa using hfalse)] at hlast
        have : item ∈ items := List.mem_filter.mpr ⟨hitem, by simpa using hlast⟩
        simp [hnone] at this
      have hzero : read.lastSeenSequence = 0 := by simpa [hnone] using hseen
      refine Ends.liftBind (fun _ _ => ?_) fun e he => ?_
      · rw [if_pos ⟨hzero, htruncated⟩]
        exact Ends.pure fun _ _ _ => if_pos hnone
      · rw [rejectIf_eq_error, htruncated] at he
        simp at he
    · have hfinish : history = read.history.finish read.lastSeenSequence := by
        show (if items = [] then _ else _) = _
        rw [if_neg hnone, hread, ok_bind]
      obtain ⟨init, item, heq⟩ := (List.eq_nil_or_concat' items).resolve_left hnone
      have hitem : item ∈ items := by simp [heq]
      have hpos := (position_le (List.mem_filter.mp hitem).1).1
      have hlast : read.lastSeenSequence = item.1 := by simpa [heq] using hseen
      refine Ends.liftBind (fun _ _ => ?_) fun e he => ?_
      · rw [if_neg (by omega)]
        refine Ends.lift (fun h hh _ _ _ => ?_) fun e he _ _ _ => .inr ?_
        · rw [hfinish, hh]
        · rw [hfinish, he]
      · rw [rejectIf_eq_error] at he
        obtain ⟨⟨htruncated, hne⟩, -⟩ := he
        have hend := hend (by simpa using htruncated)
        -- Without a cutoff, the last item is the last message of the subject.
        have hwhole : items = streamItems config streamId log := through_of_le hend.le
        refine absurd ?_ hne
        have hget : (streamItems config streamId log).getLast? = some item := by
          rw [← hwhole, heq]
          simp
        exact hlast.trans ((getLast?_itemsOn hget).symm.trans hend)
  · rcases herror with hfaults | herror
    · exact .inl hfaults
    · by_cases hnone : items = []
      · rw [hnone] at herror
        cases herror
      · refine .inr ?_
        show (if items = [] then _ else _) = _
        rw [if_neg hnone, herror]
        rfl

/-- The answer is the history in a journal that was there during the call. -/
theorem loadRawHistoryThrough_safe (limit : Option Nat) :
    Ends P
      (fun h b' => ∃ log, b.journal <+: log ∧ log <+: b'.journal ∧
        rawHistoryThrough config streamId limit log = .ok h)
      (fun error b' => faults ∨ ∃ log, b.journal <+: log ∧ log <+: b'.journal ∧
        rawHistoryThrough config streamId limit log = .error error)
      (loadRawHistoryThrough config streamId limit) b := by
  unfold loadRawHistoryThrough
  refine Ends.bind (getStream_safe host) (fun _ b₁ hrely₁ hinv₁ _ => ?_) fun _ _ _ _ hfaults => ?_
  · refine host.read trivial fun b₂ hrely₂ hinv₂ r₂ hr₂ => ?_
    have hgrown := (host.grows hrely₁).trans (host.grows hrely₂)
    have hfound : r₂ = Broker.findLast b₂.journal (config.aggregateSubject streamId) ∨
        faults ∧ ∃ text, r₂ = .error (.other text) := hr₂
    cases hr : (r₂ : RawAnswer) with
    | error missing =>
      cases missing with
      | noMessageFound =>
        refine Ends.pure fun b₃ hrely₃ _ => ⟨b₂.journal, hgrown, host.grows hrely₃, ?_⟩
        have hnil : streamItems config streamId b₂.journal = [] := by
          rw [← Broker.findLast_eq_none]
          rcases hfound with hfound | ⟨-, text, htext⟩
          · rw [← hfound, hr]
          · rw [htext] at hr
            cases hr
        simp [rawHistoryThrough, hnil, through]
      | other text =>
        refine Ends.throw fun b₃ hrely₃ _ => .inl ?_
        rcases hfound with hfound | ⟨hfaults, -⟩
        · exact absurd (hfound.symm.trans hr) Broker.findLast_ne_other
        · exact hfaults
    | ok found =>
      obtain ⟨position, message⟩ := found
      have hlast : Broker.findLast b₂.journal (config.aggregateSubject streamId) =
          .ok (position, message) := by
        rcases hfound with hfound | ⟨-, text, htext⟩
        · rw [← hfound, hr]
        · rw [htext] at hr
          cases hr
      have hget := Broker.findLast_eq_ok hlast
      have hmem : (position, message) ∈ streamItems config streamId b₂.journal :=
        List.mem_of_getLast? hget
      have hposition : lastSequence (config.aggregateSubject streamId) b₂.journal = position :=
        getLast?_itemsOn hget
      have hcutoff : limit.elim position (min · position) = cutoff config streamId limit b₂.journal := by
        rw [cutoff, hposition]
      have hle : cutoff config streamId limit b₂.journal ≤ position := by
        rw [← hcutoff]
        cases limit with
        | none => exact le_rfl
        | some n => exact Nat.min_le_right n position
      refine Ends.liftBind (fun _ _ => ?_) fun e he => ?_
      · show Ends P _ _ (if limit.elim position (min · position) = 0 then _ else _) b₂
        rw [hcutoff]
        split
        · next hzero =>
          refine Ends.pure fun b₃ hrely₃ _ => ⟨b₂.journal, hgrown, host.grows hrely₃, ?_⟩
          have hnil : through 0 (streamItems config streamId b₂.journal) = [] := by
            refine List.filter_eq_nil_iff.mpr fun item hitem => ?_
            have := (position_le hitem).1
            simp only [decide_eq_true_eq]
            omega
          simp [rawHistoryThrough, hzero, hnil]
        · refine host.read trivial fun b₃ hrely₃ hinv₃ r₃ hr₃ => ?_
          refine Ends.liftBind (fun _ _ => ?_) fun e he _ _ _ => .inl ?_
          · refine Ends.runBind (readHistoryThrough_safe host (host.grows hrely₃)
              (hle.trans (position_le hmem).2) ⟨_, hmem, hle⟩ fun hwhole => ?_) ?_ ?_
            · rw [hposition]
              by_contra hne
              simp only [decide_eq_false_iff_not, not_lt] at hwhole
              omega
            · intro h b₄ hrely₄ hinv₄ hh
              refine host.read trivial fun b₅ hrely₅ hinv₅ r₅ hr₅ => ?_
              refine Ends.liftBind (fun h' hh' => ?_) fun _ h => by cases h
              cases hh'
              refine Ends.liftBind (fun _ _ => Ends.pure fun b₆ hrely₆ _ => ?_)
                fun e he _ _ _ => .inl ?_
              · exact ⟨b₂.journal, hgrown, (host.grows hrely₃).trans ((host.grows hrely₄).trans
                  ((host.grows hrely₅).trans (host.grows hrely₆))), hh⟩
              · rcases hr₅ with hr₅ | ⟨hfaults, -⟩
                · cases hr₅.symm.trans he
                · exact hfaults
            · intro e b₄ hrely₄ hinv₄ he
              refine host.read trivial fun b₅ hrely₅ hinv₅ r₅ hr₅ => ?_
              refine Ends.liftBind (fun _ h => by cases h) fun e' he' b₆ hrely₆ _ => ?_
              cases he'
              refine he.imp_right fun he => ?_
              exact ⟨b₂.journal, hgrown, (host.grows hrely₃).trans ((host.grows hrely₄).trans
                ((host.grows hrely₅).trans (host.grows hrely₆))), he⟩
          · rcases hr₃ with hr₃ | ⟨hfaults, -⟩
            · cases hr₃.symm.trans he
            · exact hfaults
      · exact absurd (rejectIf_eq_error.mp he).1 (not_not.mpr (mem_itemsOn.mp hmem).2.2)
  · exact .inl hfaults

end Safety

end Reader

end Rostfrei.Nats
