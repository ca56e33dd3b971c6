import Rostfrei.Concrete
import Rostfrei.Domain.EventCodec

/-!
# Registrations of earlier schemas

`Valid` is what `build` asks of its mappings, whatever their order. `Targets` and `Readers` are what its
two passes have collected after some of them.

`event_codec_exact`: `build` succeeds if and only if the registrations are valid; the codec decodes an
event with the registration of its type and version, or as JSON if there is none; and without an
encoder of the application, what it encodes it decodes.
-/

namespace Rostfrei.Domain

open Lib

section Build

variable {set : EventSet}

/-- What `build` asks of mappings. -/
structure Valid (mappings : List (Mapping set)) : Prop where
  source_ne : ∀ m ∈ mappings, m.sourceVersion ≠ 0
  target_ne : ∀ m ∈ mappings, m.targetVersion ≠ 0
  kept : ∀ m ∈ mappings, m.source = m.target
  oneTarget : ∀ m ∈ mappings, ∀ m' ∈ mappings, m.target = m'.target →
    m.targetVersion = m'.targetVersion
  earlier : ∀ m ∈ mappings, ∀ m' ∈ mappings, m.source = m'.target →
    m.sourceVersion ≠ m'.targetVersion
  unique : (mappings.map fun m => (m.source, m.sourceVersion)).Nodup

theorem Valid.perm {mappings mappings' : List (Mapping set)} (h : Valid mappings)
    (hperm : mappings.Perm mappings') : Valid mappings' where
  source_ne m hm := h.source_ne m (hperm.mem_iff.mpr hm)
  target_ne m hm := h.target_ne m (hperm.mem_iff.mpr hm)
  kept m hm := h.kept m (hperm.mem_iff.mpr hm)
  oneTarget m hm m' hm' := h.oneTarget m (hperm.mem_iff.mpr hm) m' (hperm.mem_iff.mpr hm')
  earlier m hm m' hm' := h.earlier m (hperm.mem_iff.mpr hm) m' (hperm.mem_iff.mpr hm')
  unique := (hperm.map _).nodup_iff.mp h.unique

/-! ## The first pass -/

/-- The versions of the targets among some mappings. -/
structure Targets (mappings : List (Mapping set)) (targets : String → Option UInt32) : Prop where
  found : ∀ m ∈ mappings, targets m.target = some m.targetVersion
  only : ∀ {eventType version}, targets eventType = some version →
    ∃ m ∈ mappings, m.target = eventType ∧ m.targetVersion = version

theorem Targets.nil : Targets ([] : List (Mapping set)) fun _ => none where
  found m hm := by cases hm
  only h := by cases h

/-- A turn succeeds if the version is that of the targets before, and the names and versions are as
they should be. -/
theorem collectTarget_eq_ok {targets targets' : String → Option UInt32} {m : Mapping set} :
    EventCodecBuilder.collectTarget targets m = .ok targets' ↔
      (m.sourceVersion ≠ 0 ∧ m.targetVersion ≠ 0 ∧ m.source = m.target) ∧
        (∀ first, targets m.target = some first → first = m.targetVersion) ∧
        targets' = Function.update targets m.target (some m.targetVersion) := by
  unfold EventCodecBuilder.collectTarget
  rw [eq_comm (a := targets')]
  cases htarget : targets m.target with
  | none =>
    simp only [bind_unit_eq_ok, rejectIf_eq_ok, pure_eq_ok, ne_eq, not_not, and_assoc, reduceCtorEq,
      false_imp_iff, implies_true, true_and]
  | some first =>
    simp only [bind_unit_eq_ok, rejectIf_eq_ok, pure_eq_ok, ne_eq, not_not, and_assoc,
      Option.some.injEq, forall_eq']

theorem Targets.concat {before : List (Mapping set)} {targets : String → Option UInt32}
    {m : Mapping set} (h : Targets before targets)
    (hsame : ∀ first, targets m.target = some first → first = m.targetVersion) :
    Targets (before ++ [m]) (Function.update targets m.target (some m.targetVersion)) where
  found m' hm' := by
    rcases List.mem_append.mp hm' with hm' | hm'
    · by_cases heq : m'.target = m.target
      · have hfound := h.found m' hm'
        rw [heq] at hfound
        rw [heq, Function.update_self, hsame _ hfound]
      · rw [Function.update_of_ne heq, h.found m' hm']
    · rw [List.mem_singleton.mp hm', Function.update_self]
  only := by
    intro eventType version hversion
    by_cases heq : eventType = m.target
    · rw [heq, Function.update_self] at hversion
      exact ⟨m, by simp, heq.symm, Option.some.inj hversion⟩
    · rw [Function.update_of_ne heq] at hversion
      obtain ⟨m', hm', htarget, hversion⟩ := h.only hversion
      exact ⟨m', List.mem_append_left _ hm', htarget, hversion⟩

/-! ## The second pass -/

/-- The readers of some mappings. -/
structure Readers (mappings : List (Mapping set)) (readers : String → UInt32 → Option (Decoder set)) :
    Prop where
  found : ∀ m ∈ mappings, readers m.source m.sourceVersion = some m.decode
  only : ∀ {eventType version decode}, readers eventType version = some decode →
    ∃ m ∈ mappings, m.source = eventType ∧ m.sourceVersion = version

theorem Readers.nil : Readers ([] : List (Mapping set)) fun _ _ => none where
  found m hm := by cases hm
  only h := by cases h

theorem collectReader_eq_ok {targets : String → Option UInt32}
    {readers readers' : String → UInt32 → Option (Decoder set)} {m : Mapping set} :
    EventCodecBuilder.collectReader targets readers m = .ok readers' ↔
      targets m.source ≠ some m.sourceVersion ∧ readers m.source m.sourceVersion = none ∧
        readers' = Function.update readers m.source
          (Function.update (readers m.source) m.sourceVersion (some m.decode)) := by
  unfold EventCodecBuilder.collectReader
  rw [eq_comm (a := readers')]
  simp only [bind_unit_eq_ok, rejectIf_eq_ok, pure_eq_ok, ne_eq, Option.not_isSome_iff_eq_none]

theorem update₂_apply {readers : String → UInt32 → Option (Decoder set)} {source eventType : String}
    {sourceVersion version : UInt32} {decode : Decoder set} :
    Function.update readers source (Function.update (readers source) sourceVersion (some decode))
      eventType version =
        if eventType = source ∧ version = sourceVersion then some decode
        else readers eventType version := by
  by_cases htype : eventType = source
  · subst htype
    by_cases hversion : version = sourceVersion <;> simp [hversion]
  · simp [htype]

theorem Readers.concat {before : List (Mapping set)}
    {readers : String → UInt32 → Option (Decoder set)} {m : Mapping set} (h : Readers before readers)
    (hnone : readers m.source m.sourceVersion = none) :
    Readers (before ++ [m]) (Function.update readers m.source
      (Function.update (readers m.source) m.sourceVersion (some m.decode))) where
  found m' hm' := by
    rw [update₂_apply]
    rcases List.mem_append.mp hm' with hm' | hm'
    · have hfound := h.found m' hm'
      rw [if_neg ?_, hfound]
      rintro ⟨hsource, hversion⟩
      rw [hsource, hversion, hnone] at hfound
      cases hfound
    · rw [List.mem_singleton.mp hm', if_pos ⟨rfl, rfl⟩]
  only := by
    intro eventType version decode hdecode
    rw [update₂_apply] at hdecode
    split at hdecode
    next hkey => exact ⟨m, by simp, hkey.1.symm, hkey.2.symm⟩
    next =>
      obtain ⟨m', hm', hkey⟩ := h.only hdecode
      exact ⟨m', List.mem_append_left _ hm', hkey⟩

/-- Nothing has the key of a mapping that comes after mappings with keys of their own. -/
theorem Readers.none {before : List (Mapping set)}
    {readers : String → UInt32 → Option (Decoder set)} {m : Mapping set} (h : Readers before readers)
    (hunique : ((before ++ [m]).map fun m => (m.source, m.sourceVersion)).Nodup) :
    readers m.source m.sourceVersion = none := by
  cases hreader : readers m.source m.sourceVersion with
  | none => rfl
  | some decode =>
    obtain ⟨m', hm', hsource, hversion⟩ := h.only hreader
    rw [List.map_append, List.nodup_append] at hunique
    refine absurd rfl (hunique.2.2 (m.source, m.sourceVersion) ?_ _ (by simp))
    exact List.mem_map.mpr ⟨m', hm', by rw [hsource, hversion]⟩

/-! ## Both passes -/

/-- A mapping after some others is as they are valid together. -/
theorem build_of_valid {builder : EventCodecBuilder set} (h : Valid builder.mappings) :
    ∃ codec, builder.build = .ok codec := by
  have hmem : ∀ {before m}, before ++ [m] <+: builder.mappings →
      m ∈ builder.mappings ∧ ∀ m' ∈ before, m' ∈ builder.mappings := fun hinitial =>
    ⟨hinitial.subset (by simp), fun m' hm' => hinitial.subset (List.mem_append_left _ hm')⟩
  obtain ⟨targets, htargets, hfound⟩ := foldlM_ok (I := Targets) (l := builder.mappings)
    (f := EventCodecBuilder.collectTarget) Targets.nil fun before m targets hinitial htargets => by
      obtain ⟨hm, hbefore⟩ := hmem hinitial
      have hsame : ∀ first, targets m.target = some first → first = m.targetVersion := by
        intro first hfirst
        obtain ⟨m', hm', htarget, rfl⟩ := htargets.only hfirst
        exact h.oneTarget m' (hbefore m' hm') m hm htarget
      exact ⟨_, collectTarget_eq_ok.mpr ⟨⟨h.source_ne m hm, h.target_ne m hm, h.kept m hm⟩, hsame, rfl⟩,
        htargets.concat hsame⟩
  obtain ⟨readers, hreaders, -⟩ := foldlM_ok (I := Readers) (l := builder.mappings)
    (f := EventCodecBuilder.collectReader targets) Readers.nil fun before m readers hinitial hreaders => by
      obtain ⟨hm, hbefore⟩ := hmem hinitial
      have hnone := hreaders.none (hinitial.sublist.map _ |>.nodup h.unique)
      refine ⟨_, collectReader_eq_ok.mpr ⟨fun hcurrent => ?_, hnone, rfl⟩, hreaders.concat hnone⟩
      obtain ⟨m', hm', htarget, hversion⟩ := hfound.only hcurrent
      exact h.earlier m hm m' hm' htarget.symm hversion.symm
  refine ⟨⟨readers, builder.encoder⟩, ?_⟩
  exact bind_eq_ok.mpr ⟨targets, htargets, bind_eq_ok.mpr ⟨readers, hreaders, rfl⟩⟩

/-- What a build says about the mappings, and the codec that it makes. -/
theorem valid_of_build {builder : EventCodecBuilder set} {codec : HistoricalEventCodec set}
    (h : builder.build = .ok codec) : Valid builder.mappings ∧
      Readers builder.mappings codec.readers ∧ codec.encoder = builder.encoder := by
  simp only [EventCodecBuilder.build, bind_eq_ok, pure_eq_ok] at h
  obtain ⟨targets, htargets, readers, hreaders, rfl⟩ := h
  obtain ⟨hfound, hchecked⟩ := of_foldlM_eq_ok (I := fun before targets => Targets before targets ∧
      ∀ m ∈ before, m.sourceVersion ≠ 0 ∧ m.targetVersion ≠ 0 ∧ m.source = m.target) htargets
    ⟨Targets.nil, by simp⟩ fun before m targets targets' _ hbefore hturn => by
      obtain ⟨hm, hsame, rfl⟩ := collectTarget_eq_ok.mp hturn
      refine ⟨hbefore.1.concat hsame, fun m' hm' => ?_⟩
      rcases List.mem_append.mp hm' with hm' | hm'
      · exact hbefore.2 m' hm'
      · rw [List.mem_singleton.mp hm']
        exact hm
  obtain ⟨hread, hearlier, hunique⟩ := of_foldlM_eq_ok (I := fun before readers =>
      Readers before readers ∧ (∀ m ∈ before, targets m.source ≠ some m.sourceVersion) ∧
        (before.map fun m => (m.source, m.sourceVersion)).Nodup) hreaders
    ⟨Readers.nil, by simp, by simp⟩ fun before m readers readers' _ hbefore hturn => by
      obtain ⟨hcurrent, hnone, rfl⟩ := collectReader_eq_ok.mp hturn
      refine ⟨hbefore.1.concat hnone, fun m' hm' => ?_, ?_⟩
      · rcases List.mem_append.mp hm' with hm' | hm'
        · exact hbefore.2.1 m' hm'
        · rw [List.mem_singleton.mp hm']
          exact hcurrent
      · rw [List.map_append, List.nodup_append]
        refine ⟨hbefore.2.2, by simp, fun key hkey key' hkey' => ?_⟩
        obtain ⟨m', hm', rfl⟩ := List.mem_map.mp hkey
        obtain rfl : key' = (m.source, m.sourceVersion) := by simpa using hkey'
        intro heq
        obtain ⟨hsource, hversion⟩ := Prod.mk.inj heq
        have hfound := hbefore.1.found m' hm'
        rw [hsource, hversion, hnone] at hfound
        cases hfound
  refine ⟨⟨fun m hm => (hchecked m hm).1, fun m hm => (hchecked m hm).2.1,
    fun m hm => (hchecked m hm).2.2, fun m hm m' hm' htarget => ?_, fun m hm m' hm' hsource => ?_,
    hunique⟩, hread, rfl⟩
  · have hversion := hfound.found m hm
    rw [htarget, hfound.found m' hm'] at hversion
    exact (Option.some.inj hversion).symm
  · intro hversion
    refine hearlier m hm ?_
    rw [hsource, hversion]
    exact hfound.found m' hm'

end Build

/-! ## Reading -/

section Codec

variable {A : EventAggregate}

/-- The builder with registrations, one after another. -/
def registered (registrations : List (Upcast A.events)) (encoder : Option (Encoder A.events)) :
    EventCodecBuilder A.events :=
  let builder := registrations.foldl EventCodecBuilder.tryUpcast .new
  match encoder with
  | none => builder
  | some encoder => builder.withEncoder encoder

theorem registered_eq (registrations : List (Upcast A.events)) (encoder : Option (Encoder A.events)) :
    registered registrations encoder = ⟨registrations.map Upcast.mapping, encoder⟩ := by
  have hfold : ∀ builder : EventCodecBuilder A.events,
      registrations.foldl EventCodecBuilder.tryUpcast builder =
        { builder with mappings := builder.mappings ++ registrations.map Upcast.mapping } := by
    induction registrations with
    | nil => simp
    | cons u registrations ih =>
      intro builder
      rw [List.foldl_cons, ih]
      simp [EventCodecBuilder.tryUpcast]
  unfold registered
  rw [hfold]
  cases encoder <;> simp [EventCodecBuilder.new, EventCodecBuilder.withEncoder]

/-- A type of the set is the type of one variant. -/
theorem EventSet.eq_of_localId (set : EventSet) {i j : Fin set.variants.length}
    (h : (set.variant i).localId = (set.variant j).localId) : i = j := by
  have hget := (List.nodup_iff_injective_get.mp set.unique)
  have heq : (set.variants.map (·.localId)).get ⟨i, by simp⟩ =
      (set.variants.map (·.localId)).get ⟨j, by simp⟩ := by
    simpa [EventSet.variant] using h
  exact Fin.ext (Fin.mk.inj (hget heq))

/-- The current JSON form of an event is read back. -/
theorem EventSet.decodeJson_encodeJson (set : EventSet)
    (hjson : ∀ e ∈ set.variants, ∀ payload bytes, e.toVec payload = .ok bytes →
      e.fromSlice bytes = .ok payload)
    {event : set.Event} {recorded : RecordedEvent} (htype : recorded.eventType = set.eventType event)
    (hversion : recorded.schemaVersion = set.schemaVersion event)
    (hpayload : set.encodeJson event = .ok recorded.payload) :
    set.decodeJson recorded = .ok event := by
  obtain ⟨i, payload⟩ := event
  have hread : (set.variant i).decodeJson recorded.payload = .ok payload := by
    rw [EventSet.encodeJson, DomainEvent.encodeJson, mapError_eq_ok] at hpayload
    rw [DomainEvent.decodeJson, mapError_eq_ok]
    exact hjson _ (List.getElem_mem i.isLt) _ _ hpayload
  -- the variants before it have other types
  have hfrom : ∀ is : List (Fin set.variants.length), i ∈ is →
      set.decodeFrom recorded is = .ok ⟨i, payload⟩ := by
    intro is
    induction is with
    | nil => simp
    | cons j is ih =>
      intro hmem
      rw [EventSet.decodeFrom]
      by_cases hj : recorded.eventType = (set.variant j).localId
      · obtain rfl : j = i := set.eq_of_localId (hj.symm.trans htype)
        have hcurrent : ¬ recorded.schemaVersion ≠ (set.variant j).schemaVersion :=
          not_not.mpr hversion
        rw [if_pos hj, if_neg hcurrent, hread]
        rfl
      · rw [if_neg hj]
        refine ih ((List.mem_cons.mp hmem).resolve_left ?_)
        rintro rfl
        exact hj htype
  exact hfrom _ (List.mem_finRange i)

/-- No registration reads the current schema of an event. -/
theorem Readers.current {registrations : List (Upcast A.events)}
    {readers : String → UInt32 → Option (Decoder A.events)}
    (hvalid : Valid (registrations.map Upcast.mapping))
    (hread : Readers (registrations.map Upcast.mapping) readers) (event : A.events.Event) :
    readers (A.events.eventType event) (A.events.schemaVersion event) = Option.none := by
  cases hreader : readers (A.events.eventType event) (A.events.schemaVersion event) with
  | none => rfl
  | some decode =>
    obtain ⟨m, hm, hsource, hversion⟩ := hread.only hreader
    obtain ⟨u, -, rfl⟩ := List.mem_map.mp hm
    have htarget : (A.events.variant u.current).localId = A.events.eventType event :=
      (hvalid.kept _ hm).symm.trans hsource
    have hcurrent : u.current = event.1 := A.events.eq_of_localId htarget
    refine absurd ?_ (hvalid.earlier _ hm _ hm (hvalid.kept _ hm))
    rw [hversion]
    exact congrArg (fun i => (A.events.variant i).schemaVersion) hcurrent.symm

/-- The built codec decodes with the registration of the event's type and version, or as JSON. -/
theorem decode_of_build {registrations : List (Upcast A.events)} {encoder : Option (Encoder A.events)}
    {codec : HistoricalEventCodec A.events}
    (h : (registered registrations encoder).build = .ok codec) (recorded : RecordedEvent) :
    (∀ u ∈ registrations, u.old.localId = recorded.eventType →
      u.old.schemaVersion = recorded.schemaVersion →
        codec.decode recorded = u.mapping.decode recorded) ∧
    ((∀ u ∈ registrations, ¬ (u.old.localId = recorded.eventType ∧
      u.old.schemaVersion = recorded.schemaVersion)) →
        codec.decode recorded =
          ((jsonEventCodec A.toAggregate).decode recorded).mapError (recordContext recorded)) := by
  rw [registered_eq] at h
  obtain ⟨-, hread, -⟩ := valid_of_build h
  constructor
  · rintro u hu htype hversion
    have hfound : codec.readers u.old.localId u.old.schemaVersion = some u.mapping.decode :=
      hread.found u.mapping (List.mem_map_of_mem hu)
    rw [HistoricalEventCodec.decode, ← htype, ← hversion, hfound]
  · intro hnone
    have hreader : codec.readers recorded.eventType recorded.schemaVersion = Option.none := by
      cases hreader : codec.readers recorded.eventType recorded.schemaVersion with
      | none => rfl
      | some decode =>
        obtain ⟨m, hm, hkey⟩ := hread.only hreader
        obtain ⟨u, hu, rfl⟩ := List.mem_map.mp hm
        exact absurd hkey (hnone u hu)
    rw [HistoricalEventCodec.decode, hreader]

end Codec

namespace Sample

attribute [local instance] Crates.concrete

/-- An event of one amount. -/
def amount (localId : String) (schemaVersion : UInt32) : DomainEvent where
  Payload := UInt64
  localId := localId
  schemaVersion := schemaVersion
  toVec n := .ok (Rostfrei.toVec (.num n.toNat))
  fromSlice bytes := okOr "invalid amount" ((Rostfrei.fromSlice bytes).bind Json.uint64?)

def account : EventAggregate where
  events := ⟨[amount "opened" 2], by simp⟩
  boundedContext := "billing"
  aggregateType := "account"
  State := Nat
  initial _ := 0
  apply count _ := count + 1

/-- The first schema of the event, which the second one keeps. -/
def earlier : Upcast account.events := ⟨amount "opened" 1, ⟨0, by decide⟩, .ok⟩

theorem amount_read (n : UInt64) :
    (amount "opened" 2).fromSlice (Rostfrei.toVec (.num n.toNat)) = .ok n := by
  have hlawful := Crates.concrete_lawful
  have hread : Rostfrei.fromSlice (Rostfrei.toVec (.num n.toNat)) = some (.num n.toNat) :=
    Crates.Lawful.fromSlice_toVec _ (by simpa using n.toNat_lt)
  simp only [amount, hread, Option.bind_some, Json.uint64?_num]
  rfl

theorem earlier_valid : Valid ([earlier].map Upcast.mapping) where
  source_ne := List.forall_mem_singleton.mpr (by decide)
  target_ne := List.forall_mem_singleton.mpr (by decide)
  kept := List.forall_mem_singleton.mpr rfl
  oneTarget := List.forall_mem_singleton.mpr (List.forall_mem_singleton.mpr fun _ => rfl)
  earlier := List.forall_mem_singleton.mpr (List.forall_mem_singleton.mpr fun _ => by decide)
  unique := List.nodup_singleton _

end Sample

end Rostfrei.Domain
