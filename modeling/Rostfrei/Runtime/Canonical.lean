import Rostfrei.Runtime.Command

/-!
# Canonical text

`canonicalJsonBytes` writes the canonical document (`writeValue_eq`), so it depends on the document
only up to the order of its keys, and it is as long as any other text of the document
(`length_toVec_canonical`). A routed command is read back from its canonical document with the
canonical form of its payload (`RoutedCommand.ofJson?_canonical`).
-/

namespace Rostfrei.Runtime

open Lib Messaging

section Text

variable [Crates] [Crates.Compact]

omit [Crates.Compact] in
theorem writeItems_eq (items : List Json) : writeItems items = items.map writeValue := by
  induction items with
  | nil => rfl
  | cons item items ih => rw [writeItems, ih, List.map_cons]

omit [Crates.Compact] in
theorem writeFields_eq (fields : List (String × Json)) :
    writeFields fields = fields.map fun f => (f.1, writeValue f.2) := by
  induction fields with
  | nil => rfl
  | cons f fields ih => rw [writeFields, ih, List.map_cons]

/-- What `write_value` writes is the text of the canonical document. -/
theorem writeValue_eq (j : Json) : writeValue j = toVec j.canonical := by
  induction j using Json.induct with
  | hnull => rw [writeValue, Json.canonical]
  | hbool b => rw [writeValue, Json.canonical]
  | hnum n => rw [writeValue, Json.canonical]
  | hneg n => rw [writeValue, Json.canonical]
  | hstr s => rw [writeValue, Json.canonical]
  | harr items ih =>
    rw [writeValue, writeItems_eq, Json.canonical_arr, Crates.Compact.toVec_arr, List.map_map]
    rw [List.map_congr_left ih]
    rfl
  | hobj fields ih =>
    have hmap : (fields.map fun f => (f.1, writeValue f.2)) =
        fields.map fun f => (f.1, toVec f.2.canonical) :=
      List.map_congr_left fun f hf => congrArg (Prod.mk f.1) (ih f hf)
    rw [writeValue, writeFields_eq, hmap, Json.sortByKey_map (fun j => toVec (Json.canonical j)),
      Json.canonical_obj, Crates.Compact.toVec_obj, List.map_map, List.map_map]
    rfl

/-- The text does not depend on the order of keys. -/
theorem canonicalJsonBytes_eq_of_reordered {i j : Json} (hdistinct : i.Distinct)
    (h : Json.Reordered i j) : canonicalJsonBytes i = canonicalJsonBytes j := by
  rw [canonicalJsonBytes, canonicalJsonBytes, writeValue_eq, writeValue_eq,
    Json.canonical_eq_of_reordered hdistinct h]

theorem canonicalSerialize_eq {j : Json} (h : j.Distinct) :
    canonicalSerialize j = toVec j.canonical := by
  rw [canonicalSerialize, canonicalJsonBytes, writeValue_eq, Json.toValue_eq_canonical h,
    Json.canonical_canonical]

/-- Sorting the keys keeps the length of the text. -/
theorem length_toVec_canonical (j : Json) : (toVec j.canonical).length = (toVec j).length := by
  induction j using Json.induct with
  | hnull => rw [Json.canonical]
  | hbool b => rw [Json.canonical]
  | hnum n => rw [Json.canonical]
  | hneg n => rw [Json.canonical]
  | hstr s => rw [Json.canonical]
  | harr items ih =>
    have hlength : ((items.map Json.canonical).map toVec).map List.length =
        (items.map toVec).map List.length := by
      rw [List.map_map, List.map_map, List.map_map]
      exact List.map_congr_left ih
    rw [Json.canonical_arr, Crates.Compact.toVec_arr, Crates.Compact.toVec_arr, List.cons_append,
      List.cons_append, List.length_cons, List.length_cons, List.length_append, List.length_append,
      length_joinComma_of_perm (.of_eq hlength)]
  | hobj fields ih =>
    have hlength : (((Json.sortByKey fields).map fun f => (f.1, f.2.canonical)).map
        fun f => toVec (.str f.1) ++ 0x3a :: toVec f.2).map List.length |>.Perm
          ((fields.map fun f => toVec (.str f.1) ++ 0x3a :: toVec f.2).map List.length) := by
      rw [List.map_map, List.map_map, List.map_map]
      refine .trans (.of_eq (List.map_congr_left fun f hf => ?_))
        ((Json.sortByKey_perm fields).map _)
      have hf := ih f ((Json.sortByKey_perm fields).mem_iff.mp hf)
      simp [hf]
    rw [Json.canonical_obj, Crates.Compact.toVec_obj, Crates.Compact.toVec_obj, List.cons_append,
      List.cons_append, List.length_cons, List.length_cons, List.length_append, List.length_append,
      length_joinComma_of_perm hlength]

/-- The text of a field is part of the text of its object. -/
theorem length_toVec_field_le {fields : List (String × Json)} {f : String × Json} (h : f ∈ fields) :
    (toVec f.2).length ≤ (toVec (.obj fields)).length := by
  have hpiece := length_le_joinComma
    (List.mem_map_of_mem (f := fun f => toVec (.str f.1) ++ 0x3a :: toVec f.2) h)
  rw [Crates.Compact.toVec_obj]
  simp only [List.length_append, List.length_cons] at hpiece ⊢
  omega

end Text

/-! ## Routed commands -/

namespace RoutedCommand

theorem keys_nodup : keys.Nodup := by decide

/-- The command with its payload as it is read back. -/
def canonical (c : RoutedCommand) : RoutedCommand := { c with payload := c.payload.canonical }

/-- `new` accepts the name and the schema version of the command. -/
def Valid (c : RoutedCommand) : Prop :=
  ∀ payload, new c.command c.schemaVersion payload =
    .ok ⟨c.command, c.schemaVersion, payload, false⟩

theorem valid_of_new {command : String} {schemaVersion : UInt32} {payload : Json}
    {c : RoutedCommand} (h : new command schemaVersion payload = .ok c) :
    c = ⟨command, schemaVersion, payload, false⟩ ∧ c.Valid := by
  simp only [new, bind_eq_ok, pure_eq_ok] at h
  obtain ⟨address, haddress, version, hversion, rfl⟩ := h
  refine ⟨rfl, fun payload => ?_⟩
  simp only [new, haddress, hversion]
  rfl

theorem ofJson?_canonical {c : RoutedCommand} (hvalid : c.Valid) (hdistinct : c.payload.Distinct) :
    ofJson? c.toJson.canonical = some c.canonical := by
  have hnodup : ((Json.sparse c.fields).map Prod.fst).Nodup :=
    keys_nodup.sublist (Json.map_fst_sparse c.fields)
  have hlookup : ∀ key, ((Json.sortByKey (Json.sparse c.fields)).map
      fun f => (f.1, f.2.canonical)).lookup key =
        (c.fields.lookup key).join.map Json.canonical := fun key => by
    rw [Json.lookup_canonical hnodup, Json.lookup_sparse (show (c.fields.map _).Nodup from
      keys_nodup)]
  have hvalue : c.payload.canonical.toValue = c.payload.canonical := by
    rw [Json.toValue_eq_canonical (Json.distinct_canonical hdistinct), Json.canonical_canonical]
  have hcaused : Json.presentOf Json.bool? ((if c.eventsCausedByCommand then some (Json.bool true)
      else none).map Json.canonical) = some (if c.eventsCausedByCommand then some true else none) := by
    cases c.eventsCausedByCommand <;> simp [Json.presentOf]
  unfold ofJson? toJson
  rw [Json.openStruct?_canonical hnodup, Option.bind_eq_bind, Option.bind_some]
  simp only [Json.required, Json.present, hlookup]
  simp (disch := decide) only [fields, List.lookup_cons_self, Json.lookup_cons_of_ne,
    Option.join_some, Option.map_some, Option.bind_some, Json.canonical_str, Json.canonical_num,
    Json.str?_str, Json.uint32?_num, hvalue, hcaused, Option.bind_eq_bind, hvalid _,
    Except.toOption]
  cases hcaused : c.eventsCausedByCommand <;>
    simp [withEventsCausedByCommand, canonical, hcaused]

theorem canonical_toJson_canonical (c : RoutedCommand) :
    c.canonical.toJson.canonical = c.toJson.canonical := by
  refine Json.canonical_sparse_congr ?_
  simp only [fields, canonical, List.map_cons, List.map_nil, Option.map_some,
    Json.canonical_canonical]
  rfl

theorem distinct_toJson {c : RoutedCommand} (h : c.payload.Distinct) : c.toJson.Distinct := by
  refine Json.distinct_sparse keys_nodup ?_
  simp only [fields, List.forall_mem_cons, List.not_mem_nil, false_imp_iff, implies_true, and_true,
    Option.mem_def, Option.some.injEq, forall_eq']
  refine ⟨trivial, trivial, h, fun j hj => ?_⟩
  split at hj
  · cases hj
    trivial
  · cases hj

theorem fits_toJson {c : RoutedCommand} {d : Nat} (h : c.payload.Fits d) :
    c.toJson.Fits (d + 1) := by
  have hschema := c.schemaVersion.toNat_lt
  refine Json.fits_sparse ?_
  simp only [fields, List.forall_mem_cons, List.not_mem_nil, false_imp_iff, implies_true, and_true,
    Option.mem_def, Option.some.injEq, forall_eq', Json.fits_str, Json.fits_num, true_and]
  refine ⟨by omega, h, fun j hj => ?_⟩
  split at hj
  · cases hj
    simp
  · cases hj

end RoutedCommand

end Rostfrei.Runtime
