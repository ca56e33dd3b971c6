import Rostfrei.Nats.Accepted
import Rostfrei.Nats.Reader

/-!
# Extending a history that was read before

`extendHistory` reads the messages of one published commit and pushes them on a history that was
loaded earlier. A reader between commits has nothing that its history does not say: the builder is
restored from the history, and the sequence that the next commit expects is the last one that was
seen (`HistoryRead.Settled`). So the extension is what a reload up to the commit gives
(`extendHistory_safe`).
-/

namespace Rostfrei.Nats

open Lib Lib.Program

/-! ## When a commit is complete -/

namespace PendingCommit

/-- How far a commit is. -/
structure Holds (pending : Option PendingCommit) (held eventCount : Nat) : Prop where
  none : pending = none → held = 0
  some : ∀ p, pending = some p → p.events.length = held ∧ p.eventCount = eventCount

end PendingCommit

namespace HistoryBuilder

variable {b b' : HistoryBuilder} {stored : DecodedStoredEvent}

/-- After a push, the commit holds the events up to the pushed one, and is gone if they are all. -/
theorem push_pending (h : b.push stored = .ok b') :
    (stored.decoded.eventOrdinal + 1 = stored.decoded.eventCount ∧ b'.pending = none) ∨
      (stored.decoded.eventOrdinal + 1 ≠ stored.decoded.eventCount ∧
        ∃ p, b'.pending = some p ∧ p.events.length = stored.decoded.eventOrdinal + 1 ∧
          p.eventCount = stored.decoded.eventCount) := by
  obtain ⟨-, pending, hplace, hrest⟩ := push_eq_ok.mp h
  have hheld : pending.events.length = stored.decoded.eventOrdinal + 1 ∧
      pending.eventCount = stored.decoded.eventCount := by
    rcases place_eq_ok.mp hplace with ⟨hopens, -, -, -, hnew⟩ | ⟨-, before, -, hpush⟩
    · obtain ⟨transaction, -, rfl⟩ := PendingCommit.new_eq_ok.mp hnew
      exact ⟨by simp [hopens], rfl⟩
    · obtain ⟨first, -, hcontinues, rfl⟩ := PendingCommit.push_eq_ok.mp hpush
      exact ⟨by simp [hcontinues.ordinal], hcontinues.count.symm⟩
  rcases hrest with ⟨hcomplete, commit, -, rfl⟩ | ⟨hcomplete, rfl⟩
  · refine .inl ⟨?_, rfl⟩
    have : pending.events.length = pending.eventCount := by
      simpa [PendingCommit.isComplete] using hcomplete
    omega
  · refine .inr ⟨?_, pending, rfl, hheld⟩
    have : pending.events.length ≠ pending.eventCount := by
      simpa [PendingCommit.isComplete] using hcomplete
    omega

/-- A push continues the commit at the events it holds. -/
theorem push_ordinal {held eventCount : Nat} (hheld : PendingCommit.Holds b.pending held eventCount)
    (h : b.push stored = .ok b') : stored.decoded.eventOrdinal = held := by
  obtain ⟨-, pending, hplace, -⟩ := push_eq_ok.mp h
  rcases place_eq_ok.mp hplace with ⟨hopens, hnone, -⟩ | ⟨-, before, hbefore, hpush⟩
  · rw [hopens, hheld.none hnone]
  · obtain ⟨first, -, hcontinues, -⟩ := PendingCommit.push_eq_ok.mp hpush
    rw [hcontinues.ordinal, (hheld.some before hbefore).1]

end HistoryBuilder

section Extend

variable [Crates] {config : NatsEventStoreConfig} {streamId : StreamId}

/-! ## Readers between commits -/

/-- Between commits, the last sequence that was seen is that of the last commit. -/
def HistoryRead.Settled (read : HistoryRead) : Prop :=
  read.history.pending = none → read.lastCommitStreamSequence = read.lastSeenSequence

theorem HistoryRead.Settled.deliver {read read' : HistoryRead} {sequence : Nat} {message : Message}
    (h : read.deliver config streamId sequence message = .ok read') : read'.Settled := by
  obtain ⟨stored, -, history, hpush, rfl⟩ := deliver_eq_ok.mp h
  intro hnone
  rcases HistoryBuilder.push_pending hpush with ⟨hlast, -⟩ | ⟨-, p, hp, -⟩
  · exact if_pos hlast
  · cases hnone.symm.trans hp

theorem HistoryRead.Settled.readAll {read read' : HistoryRead} {items : List (Nat × Message)}
    (hread : read.Settled) (h : readAll config streamId read items = .ok read') :
    read'.Settled := by
  induction items generalizing read with
  | nil =>
    cases h
    exact hread
  | cons item items ih =>
    rw [readAll_cons, bind_eq_ok] at h
    obtain ⟨read₁, hdeliver, hrest⟩ := h
    exact ih (.deliver hdeliver) hrest

theorem HistoryBuilder.Restored.deliver {read read' : HistoryRead} {sequence : Nat}
    {message : Message} (hread : read.history.Restored)
    (h : read.deliver config streamId sequence message = .ok read') : read'.history.Restored := by
  obtain ⟨stored, -, history, hpush, rfl⟩ := deliver_eq_ok.mp h
  exact hread.push hpush

theorem HistoryBuilder.Restored.readAll {read read' : HistoryRead} {items : List (Nat × Message)}
    (hread : read.history.Restored) (h : Nats.readAll config streamId read items = .ok read') :
    read'.history.Restored := by
  induction items generalizing read with
  | nil =>
    cases h
    exact hread
  | cons item items ih =>
    rw [readAll_cons, bind_eq_ok] at h
    obtain ⟨read₁, hdeliver, hrest⟩ := h
    exact ih (hread.deliver hdeliver) hrest

/-- The reader that has read a history, and what it is restored to. -/
structure HistoryRead.Left (read : HistoryRead) (history : History) : Prop where
  builder : HistoryBuilder.fromHistory history =
    read.history.withLast history.lastSubjectStreamSequence
  pending : read.history.pending = none
  lastCommit : read.lastCommitStreamSequence = history.lastSubjectStreamSequence
  lastSeen : read.lastSeenSequence = history.lastSubjectStreamSequence

/-- A history is read to its last message. -/
theorem left_of_rawHistory {log : List Message} {history : History}
    (h : rawHistory config streamId log = .ok history) :
    history.lastSubjectStreamSequence = lastSequence (config.aggregateSubject streamId) log ∧
      ∃ read, readAll config streamId {} (streamItems config streamId log) = .ok read ∧
        read.Left history := by
  have hall : through (cutoff config streamId none log) (streamItems config streamId log) =
      streamItems config streamId log := through_of_le le_rfl
  have hcases := rawHistoryThrough_eq_ok.mp h
  rw [hall] at hcases
  rcases hcases with ⟨hnil, rfl⟩ | ⟨-, read, hread, hfinish⟩
  · exact ⟨(lastPosition_eq_zero.mpr hnil).symm, {}, by rw [hnil]; rfl, rfl, rfl, rfl, rfl⟩
  · obtain ⟨hpending, -, heq⟩ := HistoryBuilder.finish_eq_ok.mp hfinish
    have hlast : history.lastSubjectStreamSequence = read.lastSeenSequence := by rw [heq]
    have hrestored := HistoryBuilder.restored_default.readAll hread
    have hsettled : read.Settled := HistoryRead.Settled.readAll (fun _ => rfl) hread
    refine ⟨?_, read, hread, ?_, hpending, (hsettled hpending).trans hlast.symm, hlast.symm⟩
    · rw [hlast, lastSeen_of_readAll hread]
      rfl
    · rw [HistoryBuilder.fromHistory_finish hrestored hfinish, hlast]

/-! ## The messages of one commit -/

/-- The loop of `extend_history` over messages that were found. -/
def extendAll (config : NatsEventStoreConfig) (streamId : StreamId) (previousSequence : Nat)
    (batchId : String) (eventCount : Nat) (builder : HistoryBuilder) (items : List (Nat × Message)) :
    Except EventStoreError HistoryBuilder :=
  items.foldlM (fun builder item => do
    let stored ← decodeEvent config (config.aggregateSubject streamId) streamId
      (some previousSequence) item.1 item.2.headers item.2.payload
    rejectIf (stored.decoded.batchId ≠ batchId ∨ stored.decoded.eventCount ≠ eventCount)
      (corrupt "published event contains different batch metadata")
    builder.push stored) builder

/-- A message of the batch, as it is decoded after the previous commit. -/
def InBatch (config : NatsEventStoreConfig) (streamId : StreamId) (previousSequence : Nat)
    (batchId : String) (eventCount : Nat) (item : Nat × Message) : Prop :=
  ∃ stored, decodeEvent config (config.aggregateSubject streamId) streamId
      (some previousSequence) item.1 item.2.headers item.2.payload = .ok stored ∧
    stored.decoded.batchId = batchId ∧ stored.decoded.eventCount = eventCount

section Loop

variable {previousSequence eventCount : Nat} {batchId : String}

theorem extendAll_cons {builder : HistoryBuilder} {item : Nat × Message}
    {items : List (Nat × Message)} {builder' : HistoryBuilder} :
    extendAll config streamId previousSequence batchId eventCount builder (item :: items) =
        .ok builder' ↔
      ∃ stored, decodeEvent config (config.aggregateSubject streamId) streamId
          (some previousSequence) item.1 item.2.headers item.2.payload = .ok stored ∧
        (stored.decoded.batchId = batchId ∧ stored.decoded.eventCount = eventCount) ∧
        ∃ builder₁, builder.push stored = .ok builder₁ ∧
          extendAll config streamId previousSequence batchId eventCount builder₁ items =
            .ok builder' := by
  simp only [extendAll, List.foldlM_cons, bind_assoc, bind_eq_ok, rejectIf_eq_ok, not_or, not_not]
  constructor
  · rintro ⟨stored, hdecode, -, hbatch, builder₁, hpush, hrest⟩
    exact ⟨stored, hdecode, hbatch, builder₁, hpush, hrest⟩
  · rintro ⟨stored, hdecode, hbatch, builder₁, hpush, hrest⟩
    exact ⟨stored, hdecode, (), hbatch, builder₁, hpush, hrest⟩

/-- The reader is inside the commit after the previous sequence and holds so many of its events. -/
structure HistoryRead.Within (read : HistoryRead) (previousSequence held eventCount : Nat) :
    Prop where
  lastCommit : read.lastCommitStreamSequence = previousSequence
  holds : PendingCommit.Holds read.history.pending held eventCount

omit [Crates] in
/-- An event that is not the last one leaves the reader in its commit. -/
theorem HistoryRead.Within.push {read : HistoryRead} {held : Nat} {stored : DecodedStoredEvent}
    {history : HistoryBuilder} (h : read.Within previousSequence held eventCount)
    (hpush : read.history.push stored = .ok history)
    (hcount : stored.decoded.eventCount = eventCount) (hlt : held + 1 < eventCount)
    (sequence : Nat) :
    HistoryRead.Within
      { history
        lastCommitStreamSequence :=
          if stored.decoded.eventOrdinal + 1 = stored.decoded.eventCount then sequence
          else read.lastCommitStreamSequence
        lastSeenSequence := sequence } previousSequence (held + 1) eventCount := by
  have hordinal := HistoryBuilder.push_ordinal h.holds hpush
  rcases HistoryBuilder.push_pending hpush with ⟨hlast, -⟩ | ⟨hmore, p, hp, hlength, hp'⟩
  · omega
  · refine ⟨(if_neg hmore).trans h.lastCommit, fun hnone => ?_, fun q hq => ?_⟩
    · cases hnone.symm.trans hp
    · cases hp.symm.trans hq
      exact ⟨hlength.trans (by rw [hordinal]), hp'.trans hcount⟩

/-- The messages of one commit are decoded alike by a reader and by the extension: the reader expects
the sequence of the previous commit until the last event. -/
theorem extendAll_eq_ok {read : HistoryRead} {items : List (Nat × Message)} {last held : Nat}
    {builder : HistoryBuilder}
    (hread : items ≠ [] → read.Within previousSequence held eventCount)
    (hlength : held + items.length ≤ eventCount) :
    extendAll config streamId previousSequence batchId eventCount (read.history.withLast last)
        items = .ok builder ↔
      (∀ item ∈ items, InBatch config streamId previousSequence batchId eventCount item) ∧
        ∃ read', readAll config streamId read items = .ok read' ∧
          builder = read'.history.withLast last := by
  induction items generalizing read held with
  | nil =>
    simp only [extendAll, List.foldlM_nil, pure_eq_ok, List.not_mem_nil, false_imp_iff, implies_true,
      true_and, readAll_nil, Except.ok.injEq, exists_eq_left']
    exact eq_comm
  | cons item items ih =>
    have hwithin := hread (List.cons_ne_nil _ _)
    rw [List.length_cons] at hlength
    have hrest : ∀ stored history, read.history.push stored = .ok history →
        stored.decoded.eventCount = eventCount → items ≠ [] → _ := fun stored history hpush hcount hne =>
      hwithin.push hpush hcount
        (by have := List.length_pos_iff.mpr hne; omega) item.1
    rw [extendAll_cons, readAll_cons]
    constructor
    · rintro ⟨stored, hdecode, hbatch, builder₁, hpush, hall⟩
      rw [HistoryBuilder.push_withLast, map_eq_ok] at hpush
      obtain ⟨history, hpush, rfl⟩ := hpush
      have hdeliver := deliver_eq_ok.mpr
        ⟨stored, by rw [hwithin.lastCommit]; exact hdecode, history, hpush, rfl⟩
      obtain ⟨hitems, read', hread', heq⟩ :=
        (ih (hrest stored history hpush hbatch.2) (by omega)).mp hall
      refine ⟨List.forall_mem_cons.mpr ⟨⟨stored, hdecode, hbatch⟩, hitems⟩, read', ?_, heq⟩
      rw [hdeliver]
      exact hread'
    · rintro ⟨hitems, read', hread', heq⟩
      obtain ⟨⟨stored, hdecode, hbatch⟩, hitems⟩ := List.forall_mem_cons.mp hitems
      obtain ⟨read₁, hdeliver, hread'⟩ := bind_eq_ok.mp hread'
      obtain ⟨stored', hdecode', history, hpush, rfl⟩ := deliver_eq_ok.mp hdeliver
      rw [hwithin.lastCommit, hdecode] at hdecode'
      cases hdecode'
      refine ⟨stored, hdecode, hbatch, history.withLast last, ?_, ?_⟩
      · rw [HistoryBuilder.push_withLast, hpush]
        rfl
      · exact (ih (hrest stored history hpush hbatch.2) (by omega)).mpr
          ⟨hitems, read', hread', heq⟩

/-! ## Extensions -/

/-- The messages of a stream after a sequence. -/
def itemsAfter (config : NatsEventStoreConfig) (streamId : StreamId) (sequence : Nat)
    (log : List Message) : List (Nat × Message) :=
  (streamItems config streamId log).filter (sequence + 1 ≤ ·.1)

/-- What is after a sequence grows at the end. -/
theorem itemsAfter_isPrefix {sequence : Nat} {log log' : List Message} (h : log <+: log') :
    itemsAfter config streamId sequence log <+: itemsAfter config streamId sequence log' := by
  obtain ⟨more, rfl⟩ := h
  simp only [itemsAfter, itemsOn_append, List.filter_append]
  exact List.prefix_append _ _

theorem itemsAfter_of_first {sequence : Nat} {log : List Message} {found : Nat × Message}
    (h : Broker.findFirst log (config.aggregateSubject streamId) (sequence + 1) = .ok found) :
    itemsAfter config streamId sequence log =
      found :: itemsAfter config streamId found.1 log :=
  (firstFrom_eq_some (Broker.findFirst_eq_ok.mp h)).2.2

variable {P : Protocol BrokerCall BrokerCall.Answer Broker} {faults : Prop} {b : Broker}
  (host : Hosts P config faults)

include host in
/-- The loop takes the next messages, as many as there are rounds; it fails only if they are not there
or not accepted. -/
theorem extendDeliveries_safe {last rounds sequence : Nat} {builder : HistoryBuilder} :
    Ends P
      (fun r b' => ∃ items, items <+: itemsAfter config streamId sequence b'.journal ∧
        items.length = rounds ∧ (∀ item ∈ items, item.1 ≤ last) ∧
        extendAll config streamId previousSequence batchId eventCount builder items = .ok r.1 ∧
        r.2 = items.getLast?.elim sequence Prod.fst)
      (fun _ _ => faults ∨ ∀ items, items <+: itemsAfter config streamId sequence b.journal →
        items.length = rounds → (∀ item ∈ items, item.1 ≤ last) → ∀ builder',
        extendAll config streamId previousSequence batchId eventCount builder items ≠ .ok builder')
      (extendDeliveries config streamId previousSequence last batchId eventCount rounds builder
        sequence) b := by
  induction rounds generalizing b builder sequence with
  | zero => exact Ends.pure fun _ _ _ => ⟨[], List.nil_prefix, rfl, by simp, rfl, rfl⟩
  | succ rounds ih =>
    unfold extendDeliveries
    -- Every list of messages that would be taken starts with the one that is found.
    refine Ends.liftBind (fun next hnext => ?_) fun e he b₁ hrely hinv => .inr ?_
    · obtain ⟨-, rfl⟩ := checkedAdd_eq_some.mp (okOr_eq_ok.mp hnext)
      refine host.read trivial fun b₁ hrely hinv r hr => ?_
      have hfound : r = Broker.findFirst b₁.journal (config.aggregateSubject streamId)
          (sequence + 1) ∨ faults ∧ ∃ text, r = .error (.other text) := hr
      have hinitial := @itemsAfter_isPrefix _ config streamId sequence _ _ (host.grows hrely)
      cases hr : (r : RawAnswer) with
      | error missing =>
        cases missing with
        | noMessageFound =>
          refine Ends.throw fun _ _ _ => .inr fun items hitems hlength => ?_
          have hnone : firstFrom Message.subject (config.aggregateSubject streamId) (sequence + 1)
              b₁.journal = none := by
            rcases hfound with hfound | ⟨-, text, htext⟩
            · exact Broker.findFirst_eq_none.mp (hfound.symm.trans hr)
            · cases htext.symm.trans hr
          have hnil := hitems.trans hinitial
          rw [itemsAfter, firstFrom_eq_none.mp hnone, List.prefix_nil] at hnil
          rw [hnil] at hlength
          cases hlength
        | other text =>
          refine Ends.throw fun _ _ _ => .inl ?_
          rcases hfound with hfound | ⟨hfaults, -⟩
          · exact absurd (hfound.symm.trans hr) Broker.findFirst_ne_other
          · exact hfaults
      | ok found =>
        have hfirst : Broker.findFirst b₁.journal (config.aggregateSubject streamId)
            (sequence + 1) = .ok found := by
          rcases hfound with hfound | ⟨-, text, htext⟩
          · exact hfound.symm.trans hr
          · cases htext.symm.trans hr
        obtain ⟨hmem, hle, -⟩ := firstFrom_eq_some (Broker.findFirst_eq_ok.mp hfirst)
        have hafter := itemsAfter_of_first hfirst
        have hhead : ∀ items, items <+: itemsAfter config streamId sequence b.journal →
            items.length = rounds + 1 →
            ∃ items', items = found :: items' ∧
              items' <+: itemsAfter config streamId found.1 b₁.journal := by
          intro items hitems hlength
          have hnext := hitems.trans hinitial
          rw [hafter] at hnext
          obtain ⟨item, items', rfl⟩ := List.exists_cons_of_length_eq_add_one hlength
          obtain ⟨rfl, hnext⟩ := List.cons_prefix_cons.mp hnext
          exact ⟨items', rfl, hnext⟩
        have hrefused : (∀ items' builder', extendAll config streamId previousSequence batchId
            eventCount builder (found :: items') ≠ .ok builder') →
            ∀ items, items <+: itemsAfter config streamId sequence b.journal →
              items.length = rounds + 1 → (∀ item ∈ items, item.1 ≤ last) → ∀ builder',
              extendAll config streamId previousSequence batchId eventCount builder items ≠
                .ok builder' := by
          intro hnot items hitems hlength _ builder'
          obtain ⟨items', rfl, -⟩ := hhead items hitems hlength
          exact hnot items' builder'
        refine Ends.liftBind (fun _ hplace => ?_) fun e he _ _ _ => .inr ?_
        · refine Ends.liftBind (fun stored hdecode => ?_) fun e he _ _ _ => .inr (hrefused ?_)
          · refine Ends.liftBind (fun _ hbatch => ?_) fun e he _ _ _ => .inr (hrefused ?_)
            · refine Ends.liftBind (fun builder₁ hpush => ?_) fun e he _ _ _ => .inr (hrefused ?_)
              · rw [rejectIf_eq_ok] at hplace hbatch
                simp only [not_or, not_not, not_lt] at hplace hbatch
                refine (@ih b₁ found.1 builder₁).imp (fun r b₂ hrely₂ _ hr => ?_) fun e b₂ _ _ he => ?_
                · obtain ⟨items', hitems', hlength, hin, hall, hseq⟩ := hr
                  obtain ⟨more, hmore⟩ := host.grows hrely₂
                  have hfirst₂ := Broker.findFirst_eq_ok.mpr
                    (@firstFrom_append _ _ _ _ _ _ more _ _ (Broker.findFirst_eq_ok.mp hfirst))
                  rw [hmore] at hfirst₂
                  refine ⟨found :: items', ?_, by simp [hlength],
                    List.forall_mem_cons.mpr ⟨hplace.2.2, hin⟩,
                    extendAll_cons.mpr ⟨stored, hdecode, hbatch, builder₁, hpush, hall⟩, ?_⟩
                  · rw [itemsAfter_of_first hfirst₂]
                    exact List.cons_prefix_cons.mpr ⟨rfl, hitems'⟩
                  · rw [hseq, List.getLast?_cons]
                    cases items'.getLast? <;> rfl
                · refine he.imp_right fun he items hitems hlength hin builder' hall => ?_
                  obtain ⟨items', rfl, hitems'⟩ := hhead items hitems hlength
                  obtain ⟨_, hdecode', -, _, hpush', hrest⟩ := extendAll_cons.mp hall
                  cases hdecode.symm.trans hdecode'
                  cases hpush.symm.trans hpush'
                  exact he items' hitems' (by simpa using hlength)
                    (fun item hitem => hin item (List.mem_cons_of_mem _ hitem)) builder' hrest
              · intro items' builder' hall
                obtain ⟨_, hdecode', -, _, hpush, -⟩ := extendAll_cons.mp hall
                cases hdecode.symm.trans hdecode'
                cases he.symm.trans hpush
            · intro items' builder' hall
              obtain ⟨_, hdecode', hbatch, -⟩ := extendAll_cons.mp hall
              cases hdecode.symm.trans hdecode'
              exact (rejectIf_eq_error.mp he).1.elim (· hbatch.1) (· hbatch.2)
          · intro items' builder' hall
            obtain ⟨_, hdecode, -⟩ := extendAll_cons.mp hall
            cases he.symm.trans hdecode
        · intro items hitems hlength hin
          obtain ⟨items', rfl, -⟩ := hhead items hitems hlength
          have hsubject := (mem_itemsOn.mp hmem).2.2
          have hlast := hin found (by simp)
          rcases (rejectIf_eq_error.mp he).1 with h | h | h
          · exact absurd hsubject h
          · exact absurd hle (by omega)
          · exact absurd hlast (by omega)
    · -- No message is after a sequence that has no successor.
      intro items hitems hlength
      have hover : ¬ sequence + 1 < 2 ^ 64 := by
        intro hlt
        rw [checkedAdd_eq_some.mpr ⟨hlt, rfl⟩] at he
        cases he
      obtain ⟨item, items', rfl⟩ := List.exists_cons_of_length_eq_add_one hlength
      obtain ⟨hmem, hafter⟩ := List.mem_filter.mp (hitems.subset (List.mem_cons_self (a := item)))
      have hposition := (position_le hmem).2
      have hlength := (host.grows hrely).length_le
      have hsmall := host.small hinv
      simp only [decide_eq_true_eq] at hafter
      omega

end Loop

/-- The messages of the stream after a history, up to a sequence, are those of one batch. -/
structure Published (config : NatsEventStoreConfig) (streamId : StreamId) (previous : History)
    (last : Nat) (batchId : String) (eventCount : Nat) (log : List Message) : Prop where
  count_ne : eventCount ≠ 0
  length : (through last
    (itemsAfter config streamId previous.lastSubjectStreamSequence log)).length = eventCount
  ends : (through last (itemsAfter config streamId previous.lastSubjectStreamSequence
    log)).getLast?.elim 0 Prod.fst = last
  batch : ∀ item ∈ through last
      (itemsAfter config streamId previous.lastSubjectStreamSequence log),
    InBatch config streamId previous.lastSubjectStreamSequence batchId eventCount item

variable {previous : History} {log₀ log : List Message} {last eventCount : Nat} {batchId : String}
  {P : Protocol BrokerCall BrokerCall.Answer Broker} {faults : Prop} {b : Broker}
  (host : Hosts P config faults)

/-- A reload up to a message reads what was there, and then the messages up to it. -/
theorem reload_iff {history : History} {read : HistoryRead} {items : List (Nat × Message)}
    (hlog : log₀ <+: log)
    (hprevious : previous.lastSubjectStreamSequence =
      lastSequence (config.aggregateSubject streamId) log₀)
    (hread : readAll config streamId {} (streamItems config streamId log₀) = .ok read)
    (hitems : items <+: itemsAfter config streamId previous.lastSubjectStreamSequence log)
    (hne : items ≠ []) (hlast : items.getLast?.elim 0 Prod.fst = last) :
    through last (itemsAfter config streamId previous.lastSubjectStreamSequence log) = items ∧
      (rawHistoryThrough config streamId (some last) log = .ok history ↔
        ∃ read', readAll config streamId read items = .ok read' ∧
          read'.history.finish last = .ok history) := by
  obtain ⟨more, rfl⟩ := hlog
  obtain ⟨item, hitem⟩ := Option.ne_none_iff_exists'.mp (mt List.getLast?_eq_none_iff.mp hne)
  rw [hitem] at hlast
  obtain rfl : item.1 = last := hlast
  have hsorted : (itemsAfter config streamId previous.lastSubjectStreamSequence
      (log₀ ++ more)).Pairwise (·.1 < ·.1) := itemsOn_pairwise.filter _
  have hfresh := through_of_isPrefix hsorted hitems hitem
  obtain ⟨hmem, hafter⟩ := List.mem_filter.mp (hitems.subset (List.mem_of_getLast? hitem))
  have hcutoff : cutoff config streamId (some item.1) (log₀ ++ more) = item.1 :=
    Nat.min_eq_left (le_lastPosition hmem)
  have hall : through item.1 (streamItems config streamId (log₀ ++ more)) =
      streamItems config streamId log₀ ++ items := by
    have hsplit : streamItems config streamId (log₀ ++ more) = streamItems config streamId log₀ ++
        itemsAfter config streamId previous.lastSubjectStreamSequence (log₀ ++ more) := by
      rw [hprevious]
      exact itemsOn_eq_append
    have hold : through item.1 (streamItems config streamId log₀) =
        streamItems config streamId log₀ := through_of_le (by
      simp only [decide_eq_true_eq] at hafter
      show lastSequence _ _ ≤ _
      omega)
    rw [hsplit, through, List.filter_append]
    exact congrArg₂ _ hold hfresh
  refine ⟨hfresh, ?_⟩
  rw [rawHistoryThrough_eq_ok, hcutoff, hall, readAll_append, hread, ok_bind]
  have hnonempty : streamItems config streamId log₀ ++ items ≠ [] :=
    List.append_ne_nil_of_right_ne_nil _ hne
  simp only [hnonempty, false_and, false_or, ne_eq, not_false_eq_true, true_and]
  refine exists_congr fun read' => and_congr_right fun hread' => ?_
  rw [lastSeen_of_readAll hread', hitem]
  rfl

/-- What the extension takes, pushes and finishes is what a reload up to its last message reads. -/
theorem extension_iff {history : History} (hlog : log₀ <+: log)
    (hprevious : rawHistory config streamId log₀ = .ok previous) :
    (eventCount ≠ 0 ∧ ∃ items builder,
        items <+: itemsAfter config streamId previous.lastSubjectStreamSequence log ∧
        items.length = eventCount ∧ (∀ item ∈ items, item.1 ≤ last) ∧
        items.getLast?.elim previous.lastSubjectStreamSequence Prod.fst = last ∧
        extendAll config streamId previous.lastSubjectStreamSequence batchId eventCount
          (HistoryBuilder.fromHistory previous) items = .ok builder ∧
        builder.finish last = .ok history) ↔
      Published config streamId previous last batchId eventCount log ∧
        rawHistoryThrough config streamId (some last) log = .ok history := by
  obtain ⟨hseen, read, hread, hleft⟩ := left_of_rawHistory hprevious
  have hwithin : read.Within previous.lastSubjectStreamSequence 0 eventCount :=
    ⟨hleft.lastCommit, fun _ => rfl, fun p hp => by cases hleft.pending.symm.trans hp⟩
  constructor
  · rintro ⟨hcount, items, builder, hitems, hlength, -, hlast, hall, hfinish⟩
    have hne : items ≠ [] := fun hnil => hcount (by rw [← hlength, hnil]; rfl)
    have hlast' : items.getLast?.elim 0 Prod.fst = last := by
      cases hget : items.getLast? with
      | none => exact absurd (List.getLast?_eq_none_iff.mp hget) hne
      | some item =>
        rw [hget] at hlast
        exact hlast
    rw [hleft.builder, extendAll_eq_ok (fun _ => hwithin) (by omega)] at hall
    obtain ⟨hbatch, read', hread', rfl⟩ := hall
    obtain ⟨hfresh, hreload⟩ := @reload_iff _ _ _ _ _ _ _ history _ _ hlog hseen hread hitems hne hlast'
    refine ⟨⟨hcount, by rw [hfresh, hlength], by rw [hfresh, hlast'], by rwa [hfresh]⟩, ?_⟩
    exact hreload.mpr ⟨read', hread', hfinish⟩
  · rintro ⟨⟨hcount, hlength, hends, hbatch⟩, hhistory⟩
    have hitems : through last (itemsAfter config streamId previous.lastSubjectStreamSequence log) <+:
        itemsAfter config streamId previous.lastSubjectStreamSequence log :=
      through_isPrefix (itemsOn_pairwise.filter _)
    have hle : ∀ item ∈ through last (itemsAfter config streamId
        previous.lastSubjectStreamSequence log), item.1 ≤ last := fun item hitem => by
      simpa using (List.mem_filter.mp hitem).2
    generalize through last (itemsAfter config streamId previous.lastSubjectStreamSequence log) =
      items at hlength hends hbatch hitems hle
    have hne : items ≠ [] := fun hnil => hcount (by rw [← hlength, hnil]; rfl)
    obtain ⟨-, hreload⟩ := @reload_iff _ _ _ _ _ _ _ history _ _ hlog hseen hread hitems hne hends
    obtain ⟨read', hread', hfinish⟩ := hreload.mp hhistory
    refine ⟨hcount, items, read'.history.withLast previous.lastSubjectStreamSequence, hitems, hlength,
      hle, ?_, ?_, hfinish⟩
    · cases hget : items.getLast? with
      | none => exact absurd (List.getLast?_eq_none_iff.mp hget) hne
      | some item =>
        rw [hget] at hends
        exact hends
    · rw [hleft.builder, extendAll_eq_ok (fun _ => hwithin) (by omega)]
      exact ⟨hbatch, read', hread', rfl⟩

include host in
/-- An extension answers what a reload up to the sequence reads. Without faults it fails only if the
messages after the history are not one batch that ends there, or a reload fails too. -/
theorem extendHistory_safe (hlog : log₀ <+: b.journal)
    (hprevious : rawHistory config streamId log₀ = .ok previous) :
    Ends P
      (fun history b' => Published config streamId previous last batchId eventCount b'.journal ∧
        rawHistoryThrough config streamId (some last) b'.journal = .ok history)
      (fun _ _ => faults ∨ ¬ (Published config streamId previous last batchId eventCount b.journal ∧
        ∃ history, rawHistoryThrough config streamId (some last) b.journal = .ok history))
      (extendHistory config streamId previous last batchId eventCount) b := by
  unfold extendHistory
  refine Ends.bind (getStream_safe host) (fun _ b₁ hrely₁ hinv₁ _ => ?_)
    fun _ _ _ _ hfaults => .inl hfaults
  refine Ends.bind (extendDeliveries_safe host) (fun r b₂ hrely₂ hinv₂ hr => ?_)
    fun e b₂ hrely₂ hinv₂ he => ?_
  · obtain ⟨items, hitems, hlength, hle, hall, hsequence⟩ := hr
    -- What can be reloaded is what was taken.
    have htaken : (Published config streamId previous last batchId eventCount b.journal ∧
        ∃ history, rawHistoryThrough config streamId (some last) b.journal = .ok history) →
        eventCount ≠ 0 ∧ r.2 = last ∧ ∃ history, r.1.finish last = .ok history := by
      rintro ⟨hpublished, history, hhistory⟩
      obtain ⟨hcount, items', builder', hitems', hlength', -, hlast, hall', hfinish⟩ :=
        (extension_iff hlog hprevious).mpr ⟨hpublished, hhistory⟩
      have hgrown := @itemsAfter_isPrefix _ config streamId previous.lastSubjectStreamSequence _ _
        ((host.grows hrely₁).trans (host.grows hrely₂))
      obtain rfl : items = items' := by
        refine (List.prefix_of_prefix_length_le hitems (hitems'.trans hgrown) ?_).eq_of_length ?_
        all_goals omega
      cases hall.symm.trans hall'
      exact ⟨hcount, hsequence.trans hlast, history, hfinish⟩
    refine Ends.liftBind (fun _ hlast => Ends.lift (fun history hfinish b₃ hrely₃ _ => ?_)
      fun e he _ _ _ => .inr fun h => ?_) fun e he _ _ _ => .inr fun h => ?_
    · rw [rejectIf_eq_ok, not_or, not_not] at hlast
      exact (extension_iff (hlog.trans ((host.grows hrely₁).trans ((host.grows hrely₂).trans
        (host.grows hrely₃)))) hprevious).mp ⟨hlast.1, items, r.1,
          hitems.trans (itemsAfter_isPrefix (host.grows hrely₃)), hlength, hle,
          hsequence.symm.trans hlast.2, hall, hfinish⟩
    · obtain ⟨-, -, history, hfinish⟩ := htaken h
      cases he.symm.trans hfinish
    · obtain ⟨hcount, hlast, -⟩ := htaken h
      exact (rejectIf_eq_error.mp he).1.elim hcount (· hlast)
  · refine he.imp_right fun he => ?_
    rintro ⟨hpublished, history, hhistory⟩
    obtain ⟨-, items, builder, hitems, hlength, hle, -, hall, -⟩ :=
      (extension_iff hlog hprevious).mpr ⟨hpublished, hhistory⟩
    exact he items (hitems.trans (itemsAfter_isPrefix (host.grows hrely₁))) hlength hle builder hall

/-- A cutoff that has been reached is the same in every longer journal. -/
theorem rawHistoryThrough_of_isPrefix {log' : List Message} {limit : Nat} (hlog : log <+: log')
    (hlimit : limit ≤ lastSequence (config.aggregateSubject streamId) log) :
    rawHistoryThrough config streamId (some limit) log' =
      rawHistoryThrough config streamId (some limit) log := by
  obtain ⟨more, rfl⟩ := hlog
  have hgrown : lastSequence (config.aggregateSubject streamId) log ≤
      lastSequence (config.aggregateSubject streamId) (log ++ more) := lastPosition_append_le
  have hcutoff : cutoff config streamId (some limit) (log ++ more) =
      cutoff config streamId (some limit) log := by
    show min limit _ = min limit _
    omega
  have hle : cutoff config streamId (some limit) log ≤ log.length :=
    (Nat.min_le_right _ _).trans lastPosition_le
  simp only [rawHistoryThrough, hcutoff, through_append hle]

/-- The batch is in the journal up to its last message. -/
theorem Published.last_le (h : Published config streamId previous last batchId eventCount log) :
    last ≤ lastSequence (config.aggregateSubject streamId) log := by
  cases hget : (through last (itemsAfter config streamId previous.lastSubjectStreamSequence
      log)).getLast? with
  | none =>
    have hnil := List.getLast?_eq_none_iff.mp hget
    refine absurd ?_ h.count_ne
    rw [← h.length, hnil]
    rfl
  | some item =>
    have hends := h.ends
    rw [hget] at hends
    obtain rfl : item.1 = last := hends
    have hmem := (List.mem_filter.mp (List.mem_of_getLast? hget)).1
    exact le_lastPosition (List.mem_filter.mp hmem).1

/-- Pushing on from a finished history accepts what pushing everything accepts, with the same result
and the same memory of what was seen. So the extension of a history by a published batch is what a
reload up to the batch answers, and it succeeds whenever the batch is there and a reload does. -/
theorem extended_as_reloaded :
    (∀ (first : List DecodedStoredEvent) (lastSequence : Nat) (history : History),
      HistoryBuilder.pushAll {} first >>= (·.finish lastSequence) = .ok history →
      ∀ more : List DecodedStoredEvent,
        ((∃ b, (HistoryBuilder.fromHistory history).pushAll more = .ok b) ↔
          ∃ b, HistoryBuilder.pushAll {} (first ++ more) = .ok b) ∧
        (∀ b b', (HistoryBuilder.fromHistory history).pushAll more = .ok b →
          HistoryBuilder.pushAll {} (first ++ more) = .ok b' →
          b.operationIds = b'.operationIds ∧ b.commitIds = b'.commitIds ∧
            b.eventIds = b'.eventIds ∧ b.currentVersion = b'.currentVersion ∧
            b.pending = b'.pending) ∧
        ∀ last, (HistoryBuilder.fromHistory history).pushAll more >>= (·.finish last) =
          HistoryBuilder.pushAll {} (first ++ more) >>= (·.finish last)) ∧
    ∀ (config : NatsEventStoreConfig) (streamId : StreamId)
      (P : Protocol BrokerCall BrokerCall.Answer Broker) (faults : Prop) (b : Broker)
      (log₀ : List Message) (previous : History) (last : Nat) (batchId : String) (eventCount : Nat),
      Hosts P config faults → log₀ <+: b.journal →
      rawHistory config streamId log₀ = .ok previous →
      Ends P
        (fun history b' => rawHistoryThrough config streamId (some last) b'.journal = .ok history ∧
          Ends P (fun reloaded _ => reloaded = history) (fun _ _ => faults)
            (loadRawHistoryThrough config streamId (some last)) b')
        (fun _ _ => faults ∨
          ¬ (Published config streamId previous last batchId eventCount b.journal ∧
            ∃ history, rawHistoryThrough config streamId (some last) b.journal = .ok history))
        (extendHistory config streamId previous last batchId eventCount) b := by
  constructor
  · intro first lastSequence history hfirst more
    have hmore := HistoryBuilder.pushAll_fromHistory hfirst more
    rw [hmore]
    refine ⟨?_, fun b b' hb hb' => ?_, fun last => ?_⟩
    · simp only [map_eq_ok]
      exact ⟨fun ⟨_, b, hb, _⟩ => ⟨b, hb⟩, fun ⟨b, hb⟩ => ⟨_, b, hb, rfl⟩⟩
    · rw [hb', map_ok] at hb
      cases hb
      exact ⟨rfl, rfl, rfl, rfl, rfl⟩
    · rw [bind_map_left]
      rfl
  · intro config streamId P faults b log₀ previous last batchId eventCount host hlog hprevious
    refine (extendHistory_safe host hlog hprevious).imp (fun history b₁ _ _ h => ⟨h.2, ?_⟩)
      fun _ _ _ _ he => he
    obtain ⟨hpublished, hhistory⟩ := h
    have hsame : ∀ log, b₁.journal <+: log →
        rawHistoryThrough config streamId (some last) log = .ok history := fun log hlog => by
      rw [rawHistoryThrough_of_isPrefix hlog hpublished.last_le, hhistory]
    refine (loadRawHistoryThrough_safe host (some last)).imp (fun reloaded _ _ _ h => ?_)
      fun e _ _ _ he => ?_
    · obtain ⟨log, hlog, -, hreloaded⟩ := h
      cases (hsame log hlog).symm.trans hreloaded
      rfl
    · rcases he with hfaults | ⟨log, hlog, -, herror⟩
      · exact hfaults
      · cases (hsame log hlog).symm.trans herror

end Extend

namespace Sample

attribute [local instance] Crates.concrete

open Rostfrei.Sample (stream event)

/-- One append that was read before and one that is read now, and an extension of nothing. -/
theorem extended_as_reloaded_next :
    (∃ history, HistoryBuilder.pushAll {} [decodedAt 5 event] >>= (·.finish 5) = .ok history ∧
      (HistoryBuilder.fromHistory history).pushAll [decodedAt 9 nextEvent] >>= (·.finish 9) =
        HistoryBuilder.pushAll {} [decodedAt 5 event, decodedAt 9 nextEvent] >>= (·.finish 9)) ∧
    ∀ message, Ends (Broker.growing config False)
      (fun history b' => rawHistoryThrough config stream (some 1) b'.journal = .ok history ∧
        Ends (Broker.growing config False) (fun reloaded _ => reloaded = history)
          (fun _ _ => False) (loadRawHistoryThrough config stream (some 1)) b')
      (fun _ _ => False ∨ ¬ (Published config stream {} 1 "inbox" 1 [message] ∧
        ∃ history, rawHistoryThrough config stream (some 1) [message] = .ok history))
      (extendHistory config stream {} 1 "inbox" 1) ⟨[[message]], [], [], []⟩ := by
  constructor
  · have hsome : (HistoryBuilder.pushAll {} [decodedAt 5 event] >>= (·.finish 5)).toOption.isSome := by
      decide +kernel
    cases h : HistoryBuilder.pushAll {} [decodedAt 5 event] >>= (·.finish 5) with
    | error error =>
      rw [h] at hsome
      cases hsome
    | ok history => exact ⟨history, rfl, (extended_as_reloaded.1 _ _ _ h _).2.2 9⟩
  · intro message
    exact extended_as_reloaded.2 config stream _ False ⟨[[message]], [], [], []⟩ [] {} 1 "inbox" 1
      (Broker.hosts_growing config False) List.nil_prefix rfl

end Sample

end Rostfrei.Nats
