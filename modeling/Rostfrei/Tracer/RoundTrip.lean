import Rostfrei.Tracer.Serialized

/-!
# Reading a series back

`tryFromSerializedParts` accepts the lists of a numbered series and no others
(`tryFromSerializedParts_eq_ok`), so the document of a series that insertions have built is read back,
and a document that is read is the document of such a series, up to what a derived decoder leaves
open (`Json.Spells`).
-/

namespace Rostfrei.Tracer

open Lib Messaging

/-! ## The checks of the two lists -/

theorem ordersIncrease_iff (orders : List Nat) :
    ordersIncrease orders = true ↔ orders.Pairwise (· < ·) := by
  suffices h : ∀ (b : Bool) (previous : Option Nat),
      (orders.foldl (fun (state : Bool × Option Nat) order =>
        (state.1 && !state.2.any (· ≥ order), some order)) (b, previous)).1 = true ↔
      b = true ∧ (∀ p ∈ previous, ∀ order ∈ orders, p < order) ∧ orders.Pairwise (· < ·) by
    simpa [ordersIncrease] using h true none
  induction orders with
  | nil => simp
  | cons order orders ih =>
    intro b previous
    rw [List.foldl_cons, ih, List.pairwise_cons]
    cases previous with
    | none => simp
    | some p =>
      simp only [Bool.and_eq_true, Option.any_some, Bool.not_eq_true', decide_eq_false_iff_not,
        ge_iff_le, not_le, Option.mem_some_iff, forall_eq', List.mem_cons, forall_eq_or_imp]
      constructor
      · rintro ⟨⟨hb, hp⟩, horder, hrest⟩
        exact ⟨hb, ⟨hp, fun x hx => hp.trans (horder x hx)⟩, horder, hrest⟩
      · rintro ⟨hb, ⟨hp, -⟩, horder, hrest⟩
        exact ⟨⟨hb, hp⟩, horder, hrest⟩

/-- The messages are valid, and no two of them share their identity. -/
theorem checkSerializedMessages_eq_ok {messages : List ObservedMessageNode} {ids : List String} :
    (∃ ids', messages.foldlM checkSerializedMessage ids = .ok ids') ↔
      (∀ m ∈ messages, validateObservedMessage m = .ok ()) ∧
        (messages.map (·.messageId)).Nodup ∧ ∀ m ∈ messages, m.messageId ∉ ids := by
  induction messages generalizing ids with
  | nil => simp [List.foldlM_nil]
  | cons m messages ih =>
    have hstep : ∀ ids', checkSerializedMessage ids m = .ok ids' ↔
        validateObservedMessage m = .ok () ∧ m.messageId ∉ ids ∧ ids' = m.messageId :: ids := by
      intro ids'
      rw [checkSerializedMessage, bind_unit_eq_ok, bind_unit_eq_ok, rejectIf_eq_ok, pure_eq_ok]
      exact and_congr_right fun _ => and_congr_right fun _ => eq_comm
    simp only [List.foldlM_cons, bind_eq_ok, hstep, List.mem_cons, forall_eq_or_imp, List.map_cons,
      List.nodup_cons]
    constructor
    · rintro ⟨ids', ids₁, ⟨hvalid, hnew, rfl⟩, hrest⟩
      obtain ⟨hvalids, hnodup, hfresh⟩ := ih.mp ⟨ids', hrest⟩
      refine ⟨⟨hvalid, hvalids⟩, ⟨fun hmem => ?_, hnodup⟩, hnew, fun m' hm' => ?_⟩
      · obtain ⟨m', hm', heq⟩ := List.mem_map.mp hmem
        exact hfresh m' hm' (heq ▸ List.mem_cons_self)
      · exact fun hmem => hfresh m' hm' (List.mem_cons_of_mem _ hmem)
    · rintro ⟨⟨hvalid, hvalids⟩, ⟨hhead, hnodup⟩, hnew, hfresh⟩
      have hfresh' : ∀ m' ∈ messages, m'.messageId ∉ m.messageId :: ids := by
        intro m' hm' hmem
        rcases List.mem_cons.mp hmem with heq | hmem
        · exact hhead (heq ▸ List.mem_map_of_mem hm')
        · exact hfresh m' hm' hmem
      obtain ⟨ids', hrest⟩ := ih.mpr ⟨hvalids, hnodup, hfresh'⟩
      exact ⟨ids', _, ⟨hvalid, hnew, rfl⟩, hrest⟩

/-- Messages of different identities become the nodes of a series. -/
theorem insertNodes {messages : List ObservedMessageNode} {s : MessageSeries ObservedMessageNode}
    (hnodup : (messages.map (·.messageId)).Nodup)
    (hnew : ∀ m ∈ messages, s.get m.messageId = none) :
    (∀ s', messages.foldlM (fun s node => (s.insert node).map Prod.snd) s = .ok s' →
      s'.nodes = s.nodes ++ messages) ∧
    (s.nodes.length + messages.length ≤ maxMessageSeriesNodes →
      ∃ s', messages.foldlM (fun s node => (s.insert node).map Prod.snd) s = .ok s') := by
  induction messages generalizing s with
  | nil =>
    refine ⟨fun s' h => ?_, fun _ => ⟨s, rfl⟩⟩
    obtain rfl : s = s' := by simpa using h
    simp
  | cons m messages ih =>
    obtain ⟨hhead, hnodup⟩ := List.nodup_cons.mp hnodup
    have hget : s.get (messageId m) = none := hnew m List.mem_cons_self
    -- the identities that follow are new after this message, too
    have hrest : ∀ s₁ : MessageSeries ObservedMessageNode, s₁.nodes = s.nodes ++ [m] →
        ∀ m' ∈ messages, s₁.get m'.messageId = none := by
      intro s₁ hs₁ m' hm'
      have hold := s.get_eq_none.mp (hnew m' (List.mem_cons_of_mem _ hm'))
      refine s₁.get_eq_none.mpr fun node hnode heq => ?_
      rw [hs₁] at hnode
      rcases List.mem_append.mp hnode with hnode | hnode
      · exact hold node hnode heq
      · obtain rfl := List.mem_singleton.mp hnode
        exact hhead (List.mem_map.mpr ⟨m', hm', heq.symm⟩)
    refine ⟨fun s' h => ?_, fun hlength => ?_⟩
    · rw [List.foldlM_cons, bind_eq_ok] at h
      obtain ⟨s₁, hinsert, h⟩ := h
      have hnodes : s₁.nodes = s.nodes ++ [m] := by
        cases hr : s.insert m with
        | ok r =>
          rw [hr] at hinsert
          obtain rfl := Except.ok.inj hinsert
          exact (MessageSeries.insert_new hget hr).2.2
        | error e =>
          rw [hr] at hinsert
          cases hinsert
      rw [(ih hnodup (hrest _ hnodes)).1 s' h, hnodes, List.append_assoc]
      rfl
    · rw [List.length_cons] at hlength
      obtain ⟨s₁, hinsert⟩ := MessageSeries.insert_new_ok hget (by omega)
      obtain ⟨-, -, hnodes⟩ := MessageSeries.insert_new hget hinsert
      have hlength₁ : s₁.nodes.length + messages.length ≤ maxMessageSeriesNodes := by
        have : s₁.nodes.length = s.nodes.length + 1 := by rw [hnodes, List.length_append]; rfl
        omega
      obtain ⟨s', h⟩ := (ih hnodup (hrest s₁ hnodes)).2 hlength₁
      refine ⟨s', ?_⟩
      rw [List.foldlM_cons, hinsert]
      exact h

theorem pushSerializedOutcome_eq_ok {outcome : ObservedCommandOutcome}
    {kept next : DistinctOutcomes} : pushSerializedOutcome kept outcome = .ok next ↔
      validateObservedOutcome outcome = .ok () ∧ next.1 = kept.1 ++ [outcome] := by
  rw [pushSerializedOutcome, bind_unit_eq_ok]
  refine and_congr_right fun _ => ?_
  split
  · next existing hfind =>
    -- the list would not stay distinct
    have hthrow : ∀ e e' : ObservedMessageSeriesError,
        (if existing.sameObservation outcome then throw e else throw e' :
          Except ObservedMessageSeriesError DistinctOutcomes) ≠ .ok next := by
      intro e e' h
      split at h <;> cases h
    refine ⟨fun h => absurd h (hthrow _ _), fun h => ?_⟩
    have hmem := List.mem_of_find?_eq_some hfind
    have hsame := List.find?_some hfind
    obtain ⟨hcommands, hresponses⟩ := next.2
    rw [h, List.map_append, List.nodup_append] at hcommands hresponses
    rcases Bool.or_eq_true_iff.mp hsame with heq | heq
    · exact absurd (of_decide_eq_true heq) (hcommands.2.2 _ (List.mem_map_of_mem hmem) _
        (List.mem_map_of_mem List.mem_cons_self))
    · exact absurd (of_decide_eq_true heq) (hresponses.2.2 _ (List.mem_map_of_mem hmem) _
        (List.mem_map_of_mem List.mem_cons_self))
  · rw [pure_eq_ok, Subtype.ext_iff]
    exact eq_comm

/-- Outcomes of different commands and responses are taken over. -/
theorem pushSerializedOutcomes_eq_ok {outcomes : List ObservedCommandOutcome}
    {kept result : DistinctOutcomes} :
    outcomes.foldlM pushSerializedOutcome kept = .ok result ↔
      (∀ o ∈ outcomes, validateObservedOutcome o = .ok ()) ∧ result.1 = kept.1 ++ outcomes := by
  induction outcomes generalizing kept with
  | nil =>
    rw [List.foldlM_nil, pure_eq_ok, Subtype.ext_iff, List.append_nil]
    simp [eq_comm]
  | cons o outcomes ih =>
    simp only [List.foldlM_cons, bind_eq_ok, pushSerializedOutcome_eq_ok, ih, List.mem_cons,
      forall_eq_or_imp]
    constructor
    · rintro ⟨next, ⟨hvalid, hnext⟩, hvalids, hresult⟩
      exact ⟨⟨hvalid, hvalids⟩, by rw [hresult, hnext, List.append_assoc]; rfl⟩
    · rintro ⟨⟨hvalid, hvalids⟩, hresult⟩
      have hsub : (kept.1 ++ [o]).Sublist result.1 := by
        rw [hresult]
        exact (List.Sublist.refl _).append (by simp)
      refine ⟨⟨kept.1 ++ [o], result.2.1.sublist (hsub.map _), result.2.2.sublist (hsub.map _)⟩,
        ⟨hvalid, rfl⟩, hvalids, hresult.trans (List.append_cons _ _ _)⟩

/-- As many numbers as there are observations, each below that, are all numbers below it. -/
theorem perm_range_iff {orders : List Nat} {total : Nat} (hlength : orders.length = total) :
    (orders.dedup.length = total ∧ ∀ order ∈ orders, order < total) ↔
      orders.Perm (List.range total) := by
  constructor
  · rintro ⟨hdedup, hbound⟩
    have hnodup : orders.Nodup := by
      have hsub := List.dedup_sublist orders
      rw [← hsub.eq_of_length (hdedup.trans hlength.symm)]
      exact List.nodup_dedup orders
    have hsubset : orders ⊆ List.range total := fun order horder =>
      List.mem_range.mpr (hbound order horder)
    exact (hnodup.subperm hsubset).perm_of_length_le (by rw [List.length_range, hlength])
  · intro hperm
    have hnodup : orders.Nodup := hperm.nodup_iff.mpr List.nodup_range
    exact ⟨by rw [hnodup.dedup, hlength], fun order horder =>
      List.mem_range.mp (hperm.subset horder)⟩

namespace ObservedMessageSeries

variable {s : ObservedMessageSeries} {messages : List ObservedMessageNode}
  {outcomes : List ObservedCommandOutcome}

/-- The lists of a numbered series are accepted, and no others. -/
theorem tryFromSerializedParts_eq_ok (hmessages : messages.length ≤ maxMessageSeriesNodes)
    (houtcomes : outcomes.length ≤ maxMessageSeriesNodes) :
    tryFromSerializedParts messages outcomes = .ok s ↔
      s.Numbered ∧ s.messages.nodes = messages ∧ s.commandOutcomes = outcomes := by
  have hstart : ∀ m ∈ messages,
      (MessageSeries.empty : MessageSeries ObservedMessageNode).get m.messageId = none :=
    fun _ _ => rfl
  rw [tryFromSerializedParts]
  simp only [bind_eq_ok, mapError_eq_ok, okOr_eq_ok, rejectIf_eq_ok, pure_eq_ok, checkedAdd_eq_some,
    pushSerializedOutcomes_eq_ok, List.nil_append, not_or, not_exists, not_and, not_not,
    ordersIncrease_iff, List.pairwise_map, exists_const]
  constructor
  · rintro ⟨ids, hids, series, hseries, kept, ⟨hvalid, hkept⟩, total, ⟨-, rfl⟩, hnumbers,
      ⟨hmessagesIncrease, houtcomesIncrease⟩, rfl⟩
    obtain ⟨hvalidMessages, hnodup, -⟩ := checkSerializedMessages_eq_ok.mp ⟨ids, hids⟩
    have hnodes : series.nodes = messages := (insertNodes hnodup hstart).1 series hseries
    have horders := (perm_range_iff (by simp)).mp ⟨hnumbers.1, fun order horder =>
      Nat.not_le.mp fun hle => hnumbers.2 order horder hle⟩
    exact ⟨⟨hnodes ▸ hvalidMessages, hkept ▸ hvalid, hkept ▸ houtcomes, hmessagesIncrease,
      houtcomesIncrease, horders⟩, hnodes, hkept⟩
  · rintro ⟨hnumbered, rfl, rfl⟩
    obtain ⟨ids, hids⟩ := (@checkSerializedMessages_eq_ok s.messages.nodes []).mpr
      ⟨hnumbered.messages, s.messages.ids_nodup, by simp⟩
    obtain ⟨hbuilt, hbuilds⟩ := insertNodes s.messages.ids_nodup hstart
    obtain ⟨series, hseries⟩ := hbuilds (by simpa [MessageSeries.empty] using hmessages)
    have hnodes : series.nodes = s.messages.nodes := hbuilt series hseries
    have hnext := hnumbered.next_eq
    have hnumbers := (perm_range_iff (by simp [hnext])).mpr hnumbered.orders
    refine ⟨ids, hids, series, hseries, ⟨s.commandOutcomes, s.commands_nodup, s.responses_nodup⟩,
      ⟨hnumbered.outcomes, rfl⟩, s.nextObservationOrder, ⟨?_, by rw [hnodes, hnext]⟩, ?_⟩
    · rw [hnodes, ← hnext]
      exact Nat.lt_of_succ_lt hnumbered.next_lt
    rw [hnodes]
    exact ⟨⟨hnumbers.1, fun order horder hle => absurd (hnumbers.2 order horder)
      (Nat.not_lt.mpr hle)⟩, ⟨hnumbered.messages_increase, hnumbered.outcomes_increase⟩,
      ext_lists hnodes rfl rfl⟩

end ObservedMessageSeries

/-! ## Fields -/

theorem deserializeObservedIdentifier_eq_some {j : Json} {id : String} :
    deserializeObservedIdentifier j = some id ↔ j = .str id ∧ isValidObservedIdentifier id = true := by
  rw [deserializeObservedIdentifier, Option.filter_eq_some_iff]
  exact and_congr_left fun _ => ⟨Json.str?_eq_some, fun h => h ▸ rfl⟩

theorem deserializeNonemptyObservedName_eq_some {j : Json} {name : String} :
    deserializeNonemptyObservedName j = some name ↔ j = .str name ∧ isBlank name = false := by
  rw [deserializeNonemptyObservedName, Option.filter_eq_some_iff, Bool.not_eq_true']
  exact and_congr_left fun _ => ⟨Json.str?_eq_some, fun h => h ▸ rfl⟩

theorem deserializePositiveObservedSchemaVersion_eq_some {j : Json} {version : UInt32} :
    deserializePositiveObservedSchemaVersion j = some version ↔
      j = .num version.toNat ∧ version ≠ 0 := by
  rw [deserializePositiveObservedSchemaVersion, Option.filter_eq_some_iff, decide_eq_true_iff]
  exact and_congr_left fun _ => ⟨Json.uint32?_eq_some, fun h => h ▸ Json.uint32?_num version⟩

theorem MessageKind.deserialize_eq_some {j : Json} {kind : MessageKind} :
    MessageKind.deserialize j = some kind ↔ j = .str kind.name := by
  constructor
  · intro h
    obtain ⟨name, hname, hfind⟩ := Option.bind_eq_some_iff.mp h
    have hkind : kind.name = name := by simpa using List.find?_some hfind
    rw [Json.str?_eq_some hname, hkind]
  · rintro rfl
    cases kind <;> rfl

/-- The fields that a valid message has. -/
theorem validateObservedMessage_eq_ok {m : ObservedMessageNode}
    (h : validateObservedMessage m = .ok ()) :
    isValidObservedIdentifier m.messageId = true ∧ isValidObservedIdentifier m.correlationId = true ∧
      (∀ id ∈ m.causationId, isValidObservedIdentifier id = true) ∧ isBlank m.name = false ∧
      m.schemaVersion ≠ 0 ∧
      ∀ a ∈ m.aggregate, isBlank a.aggregateType = false ∧ isBlank a.id = false := by
  simp only [validateObservedMessage, bind_unit_eq_ok, rejectIf_eq_ok, Bool.not_eq_true,
    Bool.not_eq_false, Option.any_eq_false, Bool.not_eq_false'] at h
  obtain ⟨hid, hcorrelation, hcausation, hname, hversion, -, htype, haggregate⟩ := h
  exact ⟨hid, hcorrelation, hcausation, hname, hversion, fun a ha => ⟨htype a ha, haggregate a ha⟩⟩

/-- A field that must be there is the value that its decoder gives. -/
theorem TestAggregate.deserialize_toJson {a : TestAggregate} (htype : isBlank a.aggregateType = false)
    (hid : isBlank a.id = false) : TestAggregate.deserialize a.toJson = some a := by
  have htype := deserializeNonemptyObservedName_eq_some.mpr ⟨rfl, htype⟩
  have hid := deserializeNonemptyObservedName_eq_some.mpr ⟨rfl, hid⟩
  have hstruct : a.toJson.record? ["type", "id"] =
      some [("type", .str a.aggregateType), ("id", .str a.id)] := rfl
  rw [TestAggregate.deserialize, hstruct, Option.bind_eq_bind, Option.bind_some]
  simp (disch := decide) only [Json.required, List.lookup_cons_self, Json.lookup_cons_of_ne,
    Option.bind_some, htype, hid]
  rfl

theorem spellsField_of_required {α : Type} {fields : List (String × Json)} {key : String}
    {dec : Json → Option α} {a : α} {j : Json} (h : Json.required fields key dec = some a)
    (hdec : ∀ v, dec v = some a → v = j) : Json.SpellsField fields key (some j) := by
  obtain ⟨v, hv, hva⟩ := Json.required_eq_some.mp h
  exact Json.spellsField_same (hdec v hva ▸ hv)

theorem TestAggregate.spells_of_deserialize {j : Json} {a : TestAggregate}
    (h : TestAggregate.deserialize j = some a) : Json.Spells j a.toJson := by
  simp only [TestAggregate.deserialize, Option.bind_eq_bind, Option.bind_eq_some_iff] at h
  obtain ⟨fields, hrecord, aggregateType, htype, id, hid, h⟩ := h
  obtain rfl := Option.some.inj h
  have htype := spellsField_of_required htype fun v hv =>
    (deserializeNonemptyObservedName_eq_some.mp hv).1
  have hid := spellsField_of_required hid fun v hv =>
    (deserializeNonemptyObservedName_eq_some.mp hv).1
  obtain ⟨hnodup, hknown⟩ := Json.record?_eq_some (by decide) hrecord
  refine Json.spells_of_record hrecord rfl ?_
  refine @Json.spells_sparse _ [("type", some _), ("id", some _)] hnodup (by simp) hknown ?_
  simpa using ⟨htype, hid⟩

namespace ObservedMessageNode

/-- The fields of a message, with those that its kind does not have. -/
def table (m : ObservedMessageNode) : List (String × Option Json) :=
  [("kind", some (.str m.kind.name)), ("messageId", some (.str m.messageId)),
    ("correlationId", some (.str m.correlationId)), ("causationId", m.causationId.map .str),
    ("observationOrder", some (.num m.observationOrder)), ("name", some (.str m.name)),
    ("schemaVersion", some (.num m.schemaVersion.toNat)), ("context", m.context.map .str),
    ("aggregate", m.aggregate.map TestAggregate.toJson), ("payload", m.payload)]

theorem table_nodup (m : ObservedMessageNode) : (m.table.map Prod.fst).Nodup := by
  simp [table]

theorem struct?_toJson (m : ObservedMessageNode) :
    m.toJson.struct? (knownFields m.kind) = some (Json.sparse m.table) := by
  refine Json.struct?_sparse_of_known m.table_nodup ?_
  cases m <;> simp [knownFields, kind, context, aggregate]

/-- A valid message is read back. -/
theorem deserialize_toJson {m : ObservedMessageNode}
    (hvalid : validateObservedMessage m = .ok ()) (horder : m.observationOrder < 2 ^ 64) :
    ObservedMessageNode.deserialize m.toJson = some m := by
  obtain ⟨hid, hcorrelation, hcausation, hname, hversion, haggregate⟩ :=
    validateObservedMessage_eq_ok hvalid
  have hfield : ∀ {key o}, (key, o) ∈ m.table → (Json.sparse m.table).lookup key = o :=
    Json.lookup_sparse_of_mem m.table_nodup
  have hrequired : ∀ {α : Type} {key j} {dec : Json → Option α} {a}, (key, some j) ∈ m.table →
      dec j = some a → Json.required (Json.sparse m.table) key dec = some a :=
    fun hmem hdec => Json.required_eq_some.mpr ⟨_, hfield hmem, hdec⟩
  have hkind : Json.required (Json.sparse m.table) "kind" MessageKind.deserialize = some m.kind :=
    hrequired (by simp [table]) (MessageKind.deserialize_eq_some.mpr rfl)
  have hid := @hrequired _ "messageId" _ _ _ (by simp [table])
    (deserializeObservedIdentifier_eq_some.mpr ⟨rfl, hid⟩)
  have hcorrelation := @hrequired _ "correlationId" _ _ _ (by simp [table])
    (deserializeObservedIdentifier_eq_some.mpr ⟨rfl, hcorrelation⟩)
  have horder := @hrequired _ "observationOrder" _ _ _ (by simp [table]) (Json.uint?_num horder)
  have hname := @hrequired _ "name" _ _ _ (by simp [table])
    (deserializeNonemptyObservedName_eq_some.mpr ⟨rfl, hname⟩)
  have hversion := @hrequired _ "schemaVersion" _ _ _ (by simp [table])
    (deserializePositiveObservedSchemaVersion_eq_some.mpr ⟨rfl, hversion⟩)
  have hcausation : Json.optional (Json.sparse m.table) "causationId" deserializeObservedIdentifier =
      some m.causationId := by
    rw [Json.optional, @hfield "causationId" (m.causationId.map .str) (by simp [table])]
    exact Json.optionalOf_map m.causationId (fun id hmem =>
      deserializeObservedIdentifier_eq_some.mpr ⟨rfl, hcausation id hmem⟩) fun _ h => by cases h
  have haggregate : Json.optional (Json.sparse m.table) "aggregate" TestAggregate.deserialize =
      some m.aggregate := by
    rw [Json.optional, @hfield "aggregate" (m.aggregate.map TestAggregate.toJson) (by simp [table])]
    exact Json.optionalOf_map m.aggregate (fun a ha =>
      TestAggregate.deserialize_toJson (haggregate a ha).1 (haggregate a ha).2) fun _ h => by cases h
  have hpayload : Json.present (Json.sparse m.table) "payload" some = some m.payload := by
    rw [Json.present, @hfield "payload" m.payload (by simp [table])]
    cases m.payload <;> rfl
  have hcontext : ∀ context ∈ m.context,
      Json.required (Json.sparse m.table) "context" Json.str? = some context := fun context hmem =>
    @hrequired _ "context" (.str context) _ _ (by simp [table, Option.mem_def.mp hmem]) rfl
  have hstruct : Json.struct? (knownFields m.kind) (.obj (Json.sparse m.table)) =
      some (Json.sparse m.table) := m.struct?_toJson
  have hobject : m.toJson = .obj (Json.sparse m.table) := rfl
  rw [hobject, ObservedMessageNode.deserialize]
  simp only [Option.bind_eq_bind, Json.object?, Option.bind_some, hkind, hstruct, hid, hcorrelation,
    horder, hname, hversion, hcausation, hpayload]
  cases m with
  | command =>
    simp only [kind, hcontext _ rfl]
    rfl
  | domainEvent =>
    simp only [kind, haggregate]
    rfl
  | integrationEvent => rfl

/-- What is read as a message spells it. -/
theorem spells_of_deserialize {j : Json} {m : ObservedMessageNode}
    (h : ObservedMessageNode.deserialize j = some m) :
    Json.Spells j m.toJson ∧ m.observationOrder < 2 ^ 64 := by
  simp only [ObservedMessageNode.deserialize, Option.bind_eq_bind, Option.bind_eq_some_iff] at h
  obtain ⟨fields, hobject, kind, hkind, fields', hstruct, id, hid, correlation, hcorrelation,
    causation, hcausation, order, horder, name, hname, version, hversion, payload, hpayload, h⟩ := h
  obtain ⟨rfl, hnodup, hknown⟩ := Json.struct?_eq_some hstruct
  obtain rfl : fields' = fields := Option.some.inj hobject
  have hkind := spellsField_of_required hkind fun v hv => MessageKind.deserialize_eq_some.mp hv
  have hid := spellsField_of_required hid fun v hv => (deserializeObservedIdentifier_eq_some.mp hv).1
  have hcorrelation := spellsField_of_required hcorrelation fun v hv => (deserializeObservedIdentifier_eq_some.mp hv).1
  have hbound : order < 2 ^ 64 := by
    obtain ⟨v, -, hv⟩ := Json.required_eq_some.mp horder
    exact (Json.uint?_eq_some hv).2
  have horder := spellsField_of_required horder fun v hv => (Json.uint?_eq_some hv).1
  have hname := spellsField_of_required hname fun v hv => (deserializeNonemptyObservedName_eq_some.mp hv).1
  have hversion := spellsField_of_required hversion fun v hv =>
    (deserializePositiveObservedSchemaVersion_eq_some.mp hv).1
  have hcausation : Json.SpellsField fields' "causationId" (causation.map .str) := by
    rcases Json.optional_eq_some hcausation with ⟨rfl, habsent⟩ | ⟨v, a, rfl, hv, hdec⟩
    · exact habsent
    · exact Json.spellsField_same ((deserializeObservedIdentifier_eq_some.mp hdec).1 ▸ hv)
  have hpayload : Json.SpellsField fields' "payload" payload := by
    have hlookup := Json.present_eq_some hpayload
    cases payload with
    | none => exact .inl hlookup
    | some v => exact Json.spellsField_same hlookup
  have habsent : ∀ key, key ∉ knownFields kind → Json.SpellsField fields' key none := by
    intro key hkey
    refine .inl (Json.lookup_eq_none_of_notMem fun hmem => hkey ?_)
    obtain ⟨f, hf, rfl⟩ := List.mem_map.mp hmem
    exact hknown f hf
  -- the fields that depend on the kind
  have hspells : ∀ m : ObservedMessageNode, m.kind = kind → m.messageId = id →
      m.correlationId = correlation → m.causationId = causation → m.observationOrder = order →
      m.name = name → m.schemaVersion = version → m.payload = payload →
      Json.SpellsField fields' "context" (m.context.map .str) →
      Json.SpellsField fields' "aggregate" (m.aggregate.map TestAggregate.toJson) →
      Json.Spells (.obj fields') m.toJson := by
    rintro m rfl rfl rfl rfl rfl rfl rfl rfl hcontext haggregate
    refine Json.spells_sparse hnodup m.table_nodup (fun f hf => ?_) ?_
    · have := hknown f hf
      revert this
      cases m <;> simp only [knownFields, kind, List.map_cons, List.map_nil, List.mem_cons,
        List.not_mem_nil, or_false] <;> tauto
    · intro entry hentry
      simp only [List.mem_cons, List.not_mem_nil, or_false] at hentry
      rcases hentry with rfl | rfl | rfl | rfl | rfl | rfl | rfl | rfl | rfl | rfl <;> assumption
  cases kind with
  | command =>
    obtain ⟨context, hcontext, rfl⟩ := by
      simpa only [Option.bind_eq_some_iff, Option.pure_def, Option.some.injEq] using h
    have hcontext := spellsField_of_required hcontext fun v hv => Json.str?_eq_some hv
    exact ⟨hspells _ rfl rfl rfl rfl rfl rfl rfl rfl hcontext (habsent _ (by decide)), hbound⟩
  | domainEvent =>
    obtain ⟨aggregate, haggregate, rfl⟩ := by
      simpa only [Option.bind_eq_some_iff, Option.pure_def, Option.some.injEq] using h
    have haggregate : Json.SpellsField fields' "aggregate" (aggregate.map TestAggregate.toJson) := by
      rcases Json.optional_eq_some haggregate with ⟨rfl, hnone⟩ | ⟨v, a, rfl, hv, hdec⟩
      · exact hnone
      · exact ⟨v, hv, TestAggregate.spells_of_deserialize hdec⟩
    exact ⟨hspells _ rfl rfl rfl rfl rfl rfl rfl rfl (habsent _ (by decide)) haggregate, hbound⟩
  | integrationEvent =>
    obtain rfl := Option.some.inj h
    exact ⟨hspells _ rfl rfl rfl rfl rfl rfl rfl rfl (habsent _ (by decide))
      (habsent _ (by decide)), hbound⟩

end ObservedMessageNode

namespace ObservedCommandOutcome

variable {decodeOutcome : Json → Option CommandResponseOutcome} {o : ObservedCommandOutcome} {j : Json}

theorem validateObservedOutcome_eq_ok (h : validateObservedOutcome o = .ok ()) :
    isValidObservedIdentifier o.responseMessageId = true ∧
      isValidObservedIdentifier o.commandMessageId = true ∧
      isValidObservedIdentifier o.correlationId = true := by
  simpa only [validateObservedOutcome, bind_unit_eq_ok, rejectIf_eq_ok, Bool.not_eq_true,
    Bool.not_eq_false] using h

/-- A valid outcome is read back. -/
theorem deserialize_toJsonWith (hvalid : validateObservedOutcome o = .ok ())
    (horder : o.observationOrder < 2 ^ 64) (houtcome : decodeOutcome j = some o.outcome) :
    deserialize decodeOutcome (o.toJsonWith j) = some o := by
  obtain ⟨hresponse, hcommand, hcorrelation⟩ := validateObservedOutcome_eq_ok hvalid
  have hresponse := deserializeObservedIdentifier_eq_some.mpr ⟨rfl, hresponse⟩
  have hcommand := deserializeObservedIdentifier_eq_some.mpr ⟨rfl, hcommand⟩
  have hcorrelation := deserializeObservedIdentifier_eq_some.mpr ⟨rfl, hcorrelation⟩
  have horder := Json.uint?_num horder
  have hrecord : (o.toJsonWith j).record? ["responseMessageId", "commandMessageId", "correlationId",
      "observationOrder", "outcome"] = some [("responseMessageId", .str o.responseMessageId),
        ("commandMessageId", .str o.commandMessageId), ("correlationId", .str o.correlationId),
        ("observationOrder", .num o.observationOrder), ("outcome", j)] :=
    Json.record?_obj (by decide) rfl
  rw [deserialize, hrecord, Option.bind_eq_bind, Option.bind_some]
  simp (disch := decide) only [Json.required, List.lookup_cons_self, Json.lookup_cons_of_ne,
    Option.bind_eq_bind, Option.bind_some, hresponse, hcommand, hcorrelation, horder, houtcome]
  rfl

/-- What is read as an outcome spells it, around the document of what the command did. -/
theorem spells_of_deserialize (h : deserialize decodeOutcome j = some o) :
    ∃ outcome, decodeOutcome outcome = some o.outcome ∧ Json.Spells j (o.toJsonWith outcome) := by
  simp only [deserialize, Option.bind_eq_bind, Option.bind_eq_some_iff] at h
  obtain ⟨fields, hrecord, response, hresponse, command, hcommand, correlation, hcorrelation, order,
    horder, outcome, houtcome, h⟩ := h
  obtain rfl := Option.some.inj h
  obtain ⟨document, hdocument, hdecode⟩ := Json.required_eq_some.mp houtcome
  have hresponse := spellsField_of_required hresponse fun v hv =>
    (deserializeObservedIdentifier_eq_some.mp hv).1
  have hcommand := spellsField_of_required hcommand fun v hv =>
    (deserializeObservedIdentifier_eq_some.mp hv).1
  have hcorrelation := spellsField_of_required hcorrelation fun v hv =>
    (deserializeObservedIdentifier_eq_some.mp hv).1
  have horder := spellsField_of_required horder fun v hv => (Json.uint?_eq_some hv).1
  have houtcome := Json.spellsField_same hdocument
  obtain ⟨hnodup, hknown⟩ := Json.record?_eq_some (by decide) hrecord
  refine ⟨document, hdecode, Json.spells_of_record hrecord rfl ?_⟩
  refine @Json.spells_sparse _ [("responseMessageId", some _), ("commandMessageId", some _),
    ("correlationId", some _), ("observationOrder", some _), ("outcome", some _)] hnodup (by simp)
    hknown ?_
  simpa using ⟨hresponse, hcommand, hcorrelation, horder, houtcome⟩

end ObservedCommandOutcome

/-! ## Series -/

namespace ObservedMessageSeries

variable {s : ObservedMessageSeries} {decodeOutcome : Json → Option CommandResponseOutcome} {j : Json}

/-- A numbered series is read back, where the outcomes of its commands are. -/
theorem Numbered.deserialize_toJson (h : s.Numbered)
    (hdecode : ∀ o ∈ s.commandOutcomes, decodeOutcome o.outcome.toJson = some o.outcome) :
    deserialize decodeOutcome s.toJson = .ok s := by
  have hbound : s.nextObservationOrder < 2 ^ 64 := Nat.lt_of_succ_lt h.next_lt
  have hmessages : Json.array? ObservedMessageNode.deserialize
      (.arr (s.messages.nodes.map ObservedMessageNode.toJson)) = some s.messages.nodes :=
    Json.array?_map fun m hm => ObservedMessageNode.deserialize_toJson (h.messages m hm)
      ((h.message_lt hm).trans hbound)
  have houtcomes : Json.array? (ObservedCommandOutcome.deserialize decodeOutcome)
      (.arr (s.commandOutcomes.map fun o => o.toJsonWith o.outcome.toJson)) =
        some s.commandOutcomes :=
    Json.array?_map fun o ho => ObservedCommandOutcome.deserialize_toJsonWith (h.outcomes o ho)
      ((h.outcome_lt ho).trans hbound) (hdecode o ho)
  have hzip : List.zipWith ObservedCommandOutcome.toJsonWith s.commandOutcomes
      (s.commandOutcomes.map fun o => o.outcome.toJson) =
        s.commandOutcomes.map fun o => o.toJsonWith o.outcome.toJson := by
    rw [List.zipWith_map_right, List.zipWith_self]
  have hwire : wire decodeOutcome s.toJson = some (s.messages.nodes, s.commandOutcomes) := by
    have hrecord : s.toJson.record? ["messages", "commandOutcomes"] = some
        [("messages", .arr (s.messages.nodes.map ObservedMessageNode.toJson)),
          ("commandOutcomes", .arr (s.commandOutcomes.map fun o =>
            o.toJsonWith o.outcome.toJson))] := by
      rw [toJson, toJsonWith, hzip]
      exact Json.record?_obj (by decide) rfl
    rw [wire, hrecord, Option.bind_eq_bind, Option.bind_some]
    simp (disch := decide) only [Json.required, List.lookup_cons_self, Json.lookup_cons_of_ne,
      Option.bind_eq_bind, Option.bind_some, hmessages, houtcomes]
    rfl
  rw [deserialize, hwire]
  simp only [okOr_some, ok_bind, rejectIf_of_not (Nat.not_lt.mpr s.messages.nodes_le),
    rejectIf_of_not (Nat.not_lt.mpr h.outcomes_le), gt_iff_lt]
  rw [(tryFromSerializedParts_eq_ok s.messages.nodes_le h.outcomes_le).mpr ⟨h, rfl, rfl⟩]
  rfl

/-- What is read as a series is a numbered one, and spells it. -/
theorem numbered_of_deserialize (h : deserialize decodeOutcome j = .ok s) :
    s.Numbered ∧ ∃ outcomes,
      List.Forall₂ (fun o outcome => decodeOutcome outcome = some o.outcome) s.commandOutcomes
        outcomes ∧ Json.Spells j (s.toJsonWith outcomes) := by
  simp only [deserialize, bind_eq_ok, okOr_eq_ok, rejectIf_eq_ok, mapError_eq_ok] at h
  obtain ⟨⟨messages, outcomes⟩, hwire, _, hmessages, _, houtcomes, hparts⟩ := h
  obtain ⟨hnumbered, rfl, rfl⟩ := (tryFromSerializedParts_eq_ok (Nat.not_lt.mp hmessages)
    (Nat.not_lt.mp houtcomes)).mp hparts
  refine ⟨hnumbered, ?_⟩
  simp only [wire, Option.bind_eq_bind, Option.bind_eq_some_iff] at hwire
  obtain ⟨fields, hrecord, messages, hm, outcomes, ho, heq⟩ := hwire
  obtain ⟨rfl, rfl⟩ := Prod.mk.inj (Option.some.inj heq)
  obtain ⟨messagesJson, hmessagesField, hmessagesArray⟩ := Json.required_eq_some.mp hm
  obtain ⟨outcomesJson, houtcomesField, houtcomesArray⟩ := Json.required_eq_some.mp ho
  obtain ⟨messageItems, rfl, hmessageItems⟩ := Json.array?_eq_some hmessagesArray
  obtain ⟨outcomeItems, rfl, houtcomeItems⟩ := Json.array?_eq_some houtcomesArray
  have hmessagesSpelled : Json.Spells (.arr messageItems)
      (.arr (s.messages.nodes.map ObservedMessageNode.toJson)) :=
    .items (List.forall₂_map_right_iff.mpr
      (hmessageItems.imp fun _ _ h => (ObservedMessageNode.spells_of_deserialize h).1))
  obtain ⟨documents, hdocuments, houtcomesSpelled⟩ : ∃ documents,
      List.Forall₂ (fun o outcome => decodeOutcome outcome = some o.outcome) s.commandOutcomes
        documents ∧ List.Forall₂ Json.Spells outcomeItems
          (List.zipWith ObservedCommandOutcome.toJsonWith s.commandOutcomes documents) := by
    clear ho houtcomesField houtcomesArray
    generalize s.commandOutcomes = commandOutcomes at houtcomeItems ⊢
    induction houtcomeItems with
    | nil => exact ⟨[], .nil, .nil⟩
    | cons hfirst _ ih =>
      obtain ⟨documents, hdocuments, hspelled⟩ := ih
      obtain ⟨document, hdocument, hspells⟩ :=
        ObservedCommandOutcome.spells_of_deserialize hfirst
      exact ⟨document :: documents, .cons hdocument hdocuments, .cons hspells hspelled⟩
  refine ⟨documents, hdocuments, Json.spells_of_record hrecord rfl ?_⟩
  obtain ⟨hnodup, hknown⟩ := Json.record?_eq_some (by decide) hrecord
  refine @Json.spells_sparse _ [("messages", some _), ("commandOutcomes", some _)] hnodup (by simp)
    hknown ?_
  simp only [List.forall_mem_cons, List.not_mem_nil, false_imp_iff, implies_true, and_true]
  exact ⟨⟨_, hmessagesField, hmessagesSpelled⟩, _, houtcomesField, .items houtcomesSpelled⟩

def placeOrder : ObservedMessageNode :=
  .command "command-1" "correlation-1" none 7 "PlaceOrder" 1 "orders" (some (.str "order-1"))

def orderAccepted : ObservedCommandOutcome :=
  ⟨"response-1", "command-1", "correlation-1", 7, .accepted⟩

/-- The decoder of outcomes, on an accepted command. -/
def decodeAccepted : Json → Option CommandResponseOutcome
  | .obj [("status", .str "accepted")] => some .accepted
  | _ => none

/-- The command is inserted twice, and its outcome before and after that. -/
def placedOrder : ObservedMessageSeries :=
  (((empty.after (.outcome orderAccepted)).after (.message placeOrder)).after
    (.message placeOrder)).after (.outcome orderAccepted)

/-- The document of an event, with `null` for the causation that it does not have. -/
def nullCausation : Json :=
  .obj [("messages", .arr [.obj [("kind", .str "integration-event"), ("messageId", .str "event-1"),
    ("correlationId", .str "correlation-1"), ("causationId", .null), ("observationOrder", .num 0),
    ("name", .str "OrderPlaced"), ("schemaVersion", .num 1)]]), ("commandOutcomes", .arr [])]

end ObservedMessageSeries

end Rostfrei.Tracer
