import Rostfrei.Lib.Json

/-!
# What a decoder has read

Inversion rules for the struct forms of `Json`: what a document has where a decoder succeeds.

`Spells j k`: the document `j` says what `k` says. They may differ in what a derived decoder leaves
open: the order of the fields of an object, a `null` for a field that is left out, and an array of
all its fields for an object.
-/

namespace Lib.Json

def object? : Json → Option (List (String × Json))
  | .obj fields => some fields
  | _ => none

/-- The fields of a struct without optional fields: an object, or an array of all values. -/
def record? (known : List String) : Json → Option (List (String × Json))
  | .arr items => if items.length = known.length then some (known.zip items) else none
  | .obj fields => struct? known (.obj fields)
  | _ => none

/-- An object with the known keys, in their order. -/
theorem record?_obj {known : List String} {fields : List (String × Json)} (hnodup : known.Nodup)
    (hkeys : fields.map Prod.fst = known) : record? known (.obj fields) = some fields := by
  rw [record?]
  exact struct?_obj hnodup (fun _ hk => hk) hkeys

inductive Spells : Json → Json → Prop where
  | same (j : Json) : Spells j j
  | items {js ks : List Json} (h : List.Forall₂ Spells js ks) : Spells (.arr js) (.arr ks)
  | fields {fs gs : List (String × Json)} (value : String → Json)
      (hnodup : (fs.map Prod.fst).Nodup)
      (hpresent : ∀ key k, gs.lookup key = some k → fs.lookup key = some (value key))
      (hvalue : ∀ key k, gs.lookup key = some k → Spells (value key) k)
      (habsent : ∀ key, gs.lookup key = none →
        fs.lookup key = none ∨ fs.lookup key = some .null) : Spells (.obj fs) (.obj gs)
  | tuple {js : List Json} {gs : List (String × Json)} (hlength : js.length = gs.length)
      (h : Spells (.obj ((gs.map Prod.fst).zip js)) (.obj gs)) : Spells (.arr js) (.obj gs)

/-- An object is accepted if the fields it does not leave out are known. -/
theorem struct?_sparse_of_known {known : List String} {table : List (String × Option Json)}
    (hnodup : (table.map Prod.fst).Nodup)
    (hknown : ∀ entry ∈ table, entry.2 ≠ none → entry.1 ∈ known) :
    struct? known (.obj (sparse table)) = some (sparse table) := by
  refine struct?_obj (hnodup.sublist (map_fst_sparse table)) (fun k hk => ?_) rfl
  obtain ⟨f, hf, rfl⟩ := List.mem_map.mp hk
  obtain ⟨entry, hentry, hvalue⟩ := List.mem_filterMap.mp hf
  obtain ⟨v, hv, rfl⟩ := Option.map_eq_some_iff.mp hvalue
  exact hknown entry hentry (by simp [hv])

/-- The value of a field in an object that leaves fields out. -/
theorem lookup_sparse_of_mem {table : List (String × Option Json)} {key : String} {o : Option Json}
    (hnodup : (table.map Prod.fst).Nodup) (hmem : (key, o) ∈ table) :
    (sparse table).lookup key = o := by
  rw [lookup_sparse hnodup]
  cases hlookup : table.lookup key with
  | none => simpa using List.lookup_eq_none_iff.mp hlookup _ hmem
  | some o' =>
    obtain ⟨before, after, rfl, -⟩ := List.lookup_eq_some_iff.mp hlookup
    have := List.inj_on_of_nodup_map hnodup hmem (by simp : (key, o') ∈ _) rfl
    rw [(Prod.mk.inj this).2]
    rfl

/-! ## Inversion -/

variable {α : Type} {known : List String} {fields : List (String × Json)} {j : Json} {key : String}
  {dec : Json → Option α} {a : α}

theorem struct?_eq_some (h : struct? known j = some fields) :
    j = .obj fields ∧ (fields.map Prod.fst).Nodup ∧ ∀ f ∈ fields, f.1 ∈ known := by
  cases j with
  | obj fs =>
    simp only [struct?, Option.ite_none_right_eq_some, Option.some.injEq] at h
    obtain ⟨⟨hnodup, hknown⟩, rfl⟩ := h
    exact ⟨rfl, hnodup, hknown⟩
  | _ => simp [struct?] at h

theorem record?_eq_some (hknown : known.Nodup) (h : record? known j = some fields) :
    (fields.map Prod.fst).Nodup ∧ ∀ f ∈ fields, f.1 ∈ known := by
  cases j with
  | arr items =>
    simp only [record?, Option.ite_none_right_eq_some, Option.some.injEq] at h
    obtain ⟨hlength, rfl⟩ := h
    have hkeys : (known.zip items).map Prod.fst = known := List.map_fst_zip (hlength ▸ le_rfl)
    exact ⟨hkeys.symm ▸ hknown, fun f hf => hkeys ▸ List.mem_map_of_mem hf⟩
  | obj fs =>
    rw [record?] at h
    exact (struct?_eq_some h).2
  | _ => cases h

theorem required_eq_some : required fields key dec = some a ↔
    ∃ v, fields.lookup key = some v ∧ dec v = some a := Option.bind_eq_some_iff

theorem optional_eq_some {x : Option α} (h : optional fields key dec = some x) :
    (x = none ∧ (fields.lookup key = none ∨ fields.lookup key = some .null)) ∨
      ∃ v a, x = some a ∧ fields.lookup key = some v ∧ dec v = some a := by
  unfold optional at h
  cases hlookup : fields.lookup key with
  | none =>
    rw [hlookup] at h
    exact .inl ⟨(Option.some.inj h).symm, .inl rfl⟩
  | some v =>
    rw [hlookup] at h
    cases v with
    | null => exact .inl ⟨(Option.some.inj h).symm, .inr rfl⟩
    | _ =>
      obtain ⟨a, hdec, rfl⟩ := Option.map_eq_some_iff.mp h
      exact .inr ⟨_, a, rfl, rfl, hdec⟩

theorem present_eq_some {x : Option Json} (h : present fields key some = some x) :
    fields.lookup key = x := by
  unfold present at h
  cases hlookup : fields.lookup key with
  | none =>
    rw [hlookup] at h
    exact Option.some.inj h
  | some v =>
    rw [hlookup] at h
    exact Option.some.inj h

theorem str?_eq_some {s : String} (h : str? j = some s) : j = .str s := by
  cases j <;> simp_all [str?]

theorem uint?_eq_some {bound n : Nat} (h : uint? bound j = some n) : j = .num n ∧ n < bound := by
  cases j with
  | num m =>
    simp only [uint?, Option.ite_none_right_eq_some, Option.some.injEq] at h
    obtain ⟨hlt, rfl⟩ := h
    exact ⟨rfl, hlt⟩
  | _ => simp [uint?] at h

theorem uint32?_eq_some {n : UInt32} (h : uint32? j = some n) : j = .num n.toNat := by
  obtain ⟨m, hm, rfl⟩ := Option.map_eq_some_iff.mp h
  obtain ⟨rfl, hlt⟩ := uint?_eq_some hm
  rw [UInt32.toNat_ofNat_of_lt' hlt]

theorem array?_eq_some {xs : List α} (h : array? dec j = some xs) :
    ∃ items, j = .arr items ∧ List.Forall₂ (fun item x => dec item = some x) items xs := by
  cases j with
  | arr items =>
    refine ⟨items, rfl, ?_⟩
    unfold array? at h
    simp only at h
    induction items generalizing xs with
    | nil =>
      obtain rfl : [] = xs := by simpa using h
      exact .nil
    | cons item items ih =>
      simp only [List.mapM_cons, Option.bind_eq_bind, Option.bind_eq_some_iff, Option.pure_def,
        Option.some.injEq] at h
      obtain ⟨x, hx, xs, hxs, rfl⟩ := h
      exact .cons hx (ih hxs)
  | _ => simp [array?] at h

/-! ## Spelling -/

/-- What the fields of an object say about one field of a struct. -/
def SpellsField (fields : List (String × Json)) (key : String) : Option Json → Prop
  | some k => ∃ v, fields.lookup key = some v ∧ Spells v k
  | none => fields.lookup key = none ∨ fields.lookup key = some .null

theorem spellsField_same {v : Json} (h : fields.lookup key = some v) :
    SpellsField fields key (some v) := ⟨v, h, .same v⟩

/-- A struct is spelled field by field. -/
theorem spells_sparse {table : List (String × Option Json)} (hnodup : (fields.map Prod.fst).Nodup)
    (htable : (table.map Prod.fst).Nodup) (hknown : ∀ f ∈ fields, f.1 ∈ table.map Prod.fst)
    (h : ∀ entry ∈ table, SpellsField fields entry.1 entry.2) :
    Spells (.obj fields) (.obj (sparse table)) := by
  have hentry : ∀ {key : String} {o : Option Json}, table.lookup key = some o →
      SpellsField fields key o := by
    intro key o hlookup
    obtain ⟨before, after, rfl, -⟩ := List.lookup_eq_some_iff.mp hlookup
    exact h (key, o) (by simp)
  refine .fields (fun key => (fields.lookup key).getD .null) hnodup (fun key k hk => ?_)
    (fun key k hk => ?_) fun key hk => ?_
  all_goals
    rw [lookup_sparse htable] at hk
  · obtain ⟨v, hv, -⟩ := hentry (Option.join_eq_some_iff.mp hk)
    rw [hv]
    rfl
  · obtain ⟨v, hv, hspells⟩ := hentry (Option.join_eq_some_iff.mp hk)
    rw [hv]
    exact hspells
  · cases hlookup : table.lookup key with
    | none =>
      refine .inl (lookup_eq_none_of_notMem fun hmem => ?_)
      obtain ⟨f, hf, rfl⟩ := List.mem_map.mp hmem
      obtain ⟨entry, hentry, heq⟩ := List.mem_map.mp (hknown f hf)
      have := List.lookup_eq_none_iff.mp hlookup entry hentry
      simp [heq] at this
    | some o =>
      rw [hlookup] at hk
      obtain rfl : o = none := hk
      exact hentry hlookup

/-- A record is spelled as an object or as an array. -/
theorem spells_of_record {gs : List (String × Json)} (h : record? known j = some fields)
    (hkeys : gs.map Prod.fst = known) (hspells : Spells (.obj fields) (.obj gs)) :
    Spells j (.obj gs) := by
  cases j with
  | arr items =>
    simp only [record?, Option.ite_none_right_eq_some, Option.some.injEq] at h
    obtain ⟨hlength, rfl⟩ := h
    refine .tuple ?_ (hkeys.symm ▸ hspells)
    rw [hlength, ← hkeys, List.length_map]
  | obj fs =>
    rw [record?] at h
    obtain ⟨heq, -⟩ := struct?_eq_some h
    exact heq ▸ hspells
  | _ => cases h

end Lib.Json
