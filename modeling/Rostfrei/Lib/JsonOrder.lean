import Mathlib.Data.List.Sort
import Mathlib.Data.String.Basic
import Rostfrei.Lib.Json

/-!
# The order of keys

JSON objects are maps, so the order of their fields carries nothing.

* `canonical`: every object with its fields sorted by key.
* `Reordered i j`: `j` is `i` with the fields of its objects in another order, at any depth. Such
  documents have one canonical form, if no object repeats a key (`canonical_eq_of_reordered`).
* `toValue`: the document as a tree of sorted maps, the last of repeated keys winning. Without
  repeated keys it is the canonical form (`toValue_eq_canonical`).
-/

namespace Lib

namespace Json

/-! ## Fields sorted by key -/

section Fields

variable {β γ : Type}

/-- Fields compare by their keys. -/
def KeyLe (f g : String × β) : Prop := f.1 ≤ g.1

instance : DecidableRel (@KeyLe β) := fun f g => inferInstanceAs (Decidable (f.1 ≤ g.1))

instance : Std.Total (@KeyLe β) := ⟨fun f g => le_total f.1 g.1⟩

instance : IsTrans (String × β) KeyLe := ⟨fun _ _ _ => le_trans⟩

def sortByKey (fields : List (String × β)) : List (String × β) := fields.insertionSort KeyLe

theorem sortByKey_perm (fields : List (String × β)) : (sortByKey fields).Perm fields :=
  List.perm_insertionSort KeyLe fields

theorem pairwise_sortByKey (fields : List (String × β)) : (sortByKey fields).Pairwise KeyLe :=
  List.pairwise_insertionSort KeyLe fields

/-- Sorting looks at keys only. -/
theorem sortByKey_map (g : β → γ) (fields : List (String × β)) :
    sortByKey (fields.map fun f => (f.1, g f.2)) =
      (sortByKey fields).map fun f => (f.1, g f.2) := by
  rw [sortByKey, sortByKey, List.map_insertionSort KeyLe KeyLe]
  exact fun _ _ _ _ => Iff.rfl

theorem keys_sortByKey_perm (fields : List (String × β)) :
    ((sortByKey fields).map Prod.fst).Perm (fields.map Prod.fst) :=
  (sortByKey_perm fields).map Prod.fst

/-- Two orders of the same fields are sorted into one, if no key is repeated. -/
theorem sortByKey_eq_of_perm {fields fields' : List (String × β)} (h : fields.Perm fields')
    (hnodup : (fields.map Prod.fst).Nodup) : sortByKey fields = sortByKey fields' := by
  have hperm : (sortByKey fields).Perm (sortByKey fields') :=
    ((sortByKey_perm fields).trans h).trans (sortByKey_perm fields').symm
  refine hperm.eq_of_pairwise ?_ (pairwise_sortByKey fields) (pairwise_sortByKey fields')
  intro f g hf hg hfg hgf
  have hmem : f ∈ fields := (sortByKey_perm fields).mem_iff.mp hf
  have hmem' : g ∈ fields := h.mem_iff.mpr ((sortByKey_perm fields').mem_iff.mp hg)
  exact List.inj_on_of_nodup_map hnodup hmem hmem' (le_antisymm hfg hgf)

/-- A key is found whatever the order of the fields. -/
theorem lookup_eq_of_perm {fields fields' : List (String × β)} (h : fields.Perm fields')
    (hnodup : (fields.map Prod.fst).Nodup) (key : String) :
    fields.lookup key = fields'.lookup key := by
  have hnodup' : (fields'.map Prod.fst).Nodup := (h.map Prod.fst).nodup_iff.mp hnodup
  have hfind : ∀ {l : List (String × β)}, (l.map Prod.fst).Nodup → ∀ v,
      l.lookup key = some v ↔ (key, v) ∈ l := by
    intro l hl v
    induction l with
    | nil => simp
    | cons f l ih =>
      obtain ⟨k, w⟩ := f
      rw [List.map_cons, List.nodup_cons] at hl
      by_cases hk : key = k
      · subst hk
        rw [List.lookup_cons_self, List.mem_cons]
        constructor
        · rintro ⟨⟩
          exact .inl rfl
        · rintro (heq | hmem)
          · rw [(Prod.mk.inj heq).2]
          · exact absurd (List.mem_map_of_mem hmem) hl.1
      · rw [lookup_cons_of_ne hk, ih hl.2, List.mem_cons]
        simp [hk]
  refine Option.ext fun v => ?_
  rw [hfind hnodup, hfind hnodup', h.mem_iff]

theorem lookup_sortByKey {fields : List (String × β)} (hnodup : (fields.map Prod.fst).Nodup)
    (key : String) : (sortByKey fields).lookup key = fields.lookup key :=
  (lookup_eq_of_perm (sortByKey_perm fields).symm hnodup key).symm

theorem lookup_map (g : β → γ) (fields : List (String × β)) (key : String) :
    (fields.map fun f => (f.1, g f.2)).lookup key = (fields.lookup key).map g := by
  induction fields with
  | nil => rfl
  | cons f fields ih =>
    obtain ⟨k, v⟩ := f
    by_cases hk : key = k
    · subst hk
      simp [List.lookup_cons_self]
    · rw [List.map_cons, lookup_cons_of_ne hk, lookup_cons_of_ne hk, ih]

end Fields

/-! ## Induction -/

mutual

/-- Induction on documents, with the hypothesis for every item and every field. -/
theorem induct {P : Json → Prop} (hnull : P .null) (hbool : ∀ b, P (.bool b))
    (hnum : ∀ n, P (.num n)) (hneg : ∀ n, P (.neg n)) (hstr : ∀ s, P (.str s))
    (harr : ∀ items, (∀ j ∈ items, P j) → P (.arr items))
    (hobj : ∀ fields, (∀ f ∈ fields, P f.2) → P (.obj fields)) : ∀ j, P j
  | .null => hnull
  | .bool b => hbool b
  | .num n => hnum n
  | .neg n => hneg n
  | .str s => hstr s
  | .arr items => harr items (induct_items hnull hbool hnum hneg hstr harr hobj items)
  | .obj fields => hobj fields (induct_fields hnull hbool hnum hneg hstr harr hobj fields)

theorem induct_items {P : Json → Prop} (hnull : P .null) (hbool : ∀ b, P (.bool b))
    (hnum : ∀ n, P (.num n)) (hneg : ∀ n, P (.neg n)) (hstr : ∀ s, P (.str s))
    (harr : ∀ items, (∀ j ∈ items, P j) → P (.arr items))
    (hobj : ∀ fields, (∀ f ∈ fields, P f.2) → P (.obj fields)) :
    ∀ items : List Json, ∀ j ∈ items, P j
  | [] => by simp
  | item :: items => List.forall_mem_cons.mpr
    ⟨induct hnull hbool hnum hneg hstr harr hobj item,
      induct_items hnull hbool hnum hneg hstr harr hobj items⟩

theorem induct_fields {P : Json → Prop} (hnull : P .null) (hbool : ∀ b, P (.bool b))
    (hnum : ∀ n, P (.num n)) (hneg : ∀ n, P (.neg n)) (hstr : ∀ s, P (.str s))
    (harr : ∀ items, (∀ j ∈ items, P j) → P (.arr items))
    (hobj : ∀ fields, (∀ f ∈ fields, P f.2) → P (.obj fields)) :
    ∀ fields : List (String × Json), ∀ f ∈ fields, P f.2
  | [] => by simp
  | (_, value) :: fields => List.forall_mem_cons.mpr
    ⟨induct hnull hbool hnum hneg hstr harr hobj value,
      induct_fields hnull hbool hnum hneg hstr harr hobj fields⟩

end

/-! ## Equality -/

mutual

/-- Equality of documents. -/
def same : Json → Json → Bool
  | .null, .null => true
  | .bool a, .bool b => a == b
  | .num a, .num b => a == b
  | .neg a, .neg b => a == b
  | .str a, .str b => a == b
  | .arr as, .arr bs => sameItems as bs
  | .obj as, .obj bs => sameFields as bs
  | _, _ => false

def sameItems : List Json → List Json → Bool
  | [], [] => true
  | a :: as, b :: bs => same a b && sameItems as bs
  | _, _ => false

def sameFields : List (String × Json) → List (String × Json) → Bool
  | [], [] => true
  | (k, a) :: as, (l, b) :: bs => k == l && same a b && sameFields as bs
  | _, _ => false

end

theorem sameItems_iff {as : List Json} (h : ∀ a ∈ as, ∀ b, same a b ↔ a = b) :
    ∀ bs, sameItems as bs ↔ as = bs := by
  induction as with
  | nil => intro bs; cases bs <;> simp [sameItems]
  | cons a as ih =>
    intro bs
    cases bs with
    | nil => simp [sameItems]
    | cons b bs =>
      rw [sameItems, Bool.and_eq_true, h a List.mem_cons_self,
        ih fun a ha => h a (List.mem_cons_of_mem _ ha), List.cons.injEq]

theorem sameFields_iff {as : List (String × Json)} (h : ∀ a ∈ as, ∀ b, same a.2 b ↔ a.2 = b) :
    ∀ bs, sameFields as bs ↔ as = bs := by
  induction as with
  | nil => intro bs; cases bs <;> simp [sameFields]
  | cons a as ih =>
    intro bs
    cases bs with
    | nil => simp [sameFields]
    | cons b bs =>
      rw [sameFields, Bool.and_eq_true, Bool.and_eq_true, beq_iff_eq, h a List.mem_cons_self,
        ih fun a ha => h a (List.mem_cons_of_mem _ ha), List.cons.injEq, Prod.ext_iff]

theorem same_iff (i j : Json) : same i j ↔ i = j := by
  induction i using induct generalizing j with
  | hnull | hbool b | hnum n | hneg n | hstr s => cases j <;> simp [same]
  | harr items ih =>
    cases j with
    | arr => rw [same, sameItems_iff ih, arr.injEq]
    | _ => simp [same]
  | hobj fields ih =>
    cases j with
    | obj => rw [same, sameFields_iff ih, obj.injEq]
    | _ => simp [same]

instance : DecidableEq Json := fun i j => decidable_of_iff (same i j) (same_iff i j)

/-! ## The canonical form -/

mutual

/-- Every object with its fields sorted by key. -/
def canonical : Json → Json
  | .arr items => .arr (canonicalItems items)
  | .obj fields => .obj (sortByKey (canonicalFields fields))
  | .null => .null
  | .bool b => .bool b
  | .num n => .num n
  | .neg n => .neg n
  | .str s => .str s

def canonicalItems : List Json → List Json
  | [] => []
  | item :: items => canonical item :: canonicalItems items

def canonicalFields : List (String × Json) → List (String × Json)
  | [] => []
  | (key, value) :: fields => (key, canonical value) :: canonicalFields fields

end

section Equations

-- derived once here, and not by every proof below that needs them at the same time
attribute [local simp] canonical canonicalItems canonicalFields

end Equations

theorem canonicalItems_eq (items : List Json) : canonicalItems items = items.map canonical := by
  induction items with
  | nil => rfl
  | cons item items ih => rw [canonicalItems, ih, List.map_cons]

theorem canonicalFields_eq (fields : List (String × Json)) :
    canonicalFields fields = fields.map fun f => (f.1, canonical f.2) := by
  induction fields with
  | nil => rfl
  | cons f fields ih => rw [canonicalFields, ih, List.map_cons]

theorem canonical_arr (items : List Json) : canonical (.arr items) = .arr (items.map canonical) := by
  rw [canonical, canonicalItems_eq]

theorem canonical_obj (fields : List (String × Json)) :
    canonical (.obj fields) = .obj ((sortByKey fields).map fun f => (f.1, canonical f.2)) := by
  rw [canonical, canonicalFields_eq, sortByKey_map]

@[simp] theorem canonical_str (s : String) : canonical (.str s) = .str s := by rw [canonical]
@[simp] theorem canonical_num (n : Nat) : canonical (.num n) = .num n := by rw [canonical]
@[simp] theorem canonical_bool (b : Bool) : canonical (.bool b) = .bool b := by rw [canonical]

/-- The canonical form is its own. -/
theorem canonical_canonical (j : Json) : canonical (canonical j) = canonical j := by
  induction j using induct with
  | hnull => rw [canonical, canonical]
  | hbool b => rw [canonical, canonical]
  | hnum n => rw [canonical, canonical]
  | hneg n => rw [canonical, canonical]
  | hstr s => rw [canonical, canonical]
  | harr items ih =>
    rw [canonical_arr, canonical_arr, List.map_map]
    exact congrArg Json.arr (List.map_congr_left ih)
  | hobj fields ih =>
    have hsorted : sortByKey ((sortByKey fields).map fun f => (f.1, canonical f.2)) =
        (sortByKey fields).map fun f => (f.1, canonical f.2) := by
      rw [← sortByKey_map]
      exact (pairwise_sortByKey _).insertionSort_eq
    rw [canonical_obj, canonical_obj, hsorted, List.map_map]
    refine congrArg Json.obj (List.map_congr_left fun f hf => ?_)
    exact congrArg (Prod.mk f.1) (ih f ((sortByKey_perm fields).mem_iff.mp hf))

/-- Sorting changes neither the nesting nor the numbers. -/
theorem fits_canonical (d : Nat) (j : Json) : (canonical j).Fits d ↔ j.Fits d := by
  induction j using induct generalizing d with
  | hnull => rw [canonical]
  | hbool b => rw [canonical]
  | hnum n => rw [canonical]
  | hneg n => rw [canonical]
  | hstr s => rw [canonical]
  | harr items ih =>
    rw [canonical_arr]
    cases d with
    | zero => rfl
    | succ d =>
      rw [fits_arr, fits_arr, List.forall_mem_map]
      exact forall₂_congr fun j hj => ih j hj d
  | hobj fields ih =>
    rw [canonical_obj]
    cases d with
    | zero => rfl
    | succ d =>
      rw [fits_obj, fits_obj, List.forall_mem_map]
      constructor
      · intro h f hf
        exact (ih f hf d).mp (h f ((sortByKey_perm fields).mem_iff.mpr hf))
      · intro h f hf
        have hmem := (sortByKey_perm fields).mem_iff.mp hf
        exact (ih f hmem d).mpr (h f hmem)

/-! ## Documents without repeated keys -/

mutual

/-- No object repeats a key. -/
def Distinct : Json → Prop
  | .arr items => DistinctItems items
  | .obj fields => (fields.map Prod.fst).Nodup ∧ DistinctFields fields
  | _ => True

def DistinctItems : List Json → Prop
  | [] => True
  | item :: items => Distinct item ∧ DistinctItems items

def DistinctFields : List (String × Json) → Prop
  | [] => True
  | (_, value) :: fields => Distinct value ∧ DistinctFields fields

end

theorem distinct_arr {items : List Json} :
    Distinct (.arr items) ↔ ∀ j ∈ items, Distinct j := by
  rw [Distinct]
  induction items with
  | nil => simp [DistinctItems]
  | cons item items ih => rw [DistinctItems, ih, List.forall_mem_cons]

theorem distinct_obj {fields : List (String × Json)} :
    Distinct (.obj fields) ↔ (fields.map Prod.fst).Nodup ∧ ∀ f ∈ fields, Distinct f.2 := by
  have hfields : ∀ fields, DistinctFields fields ↔ ∀ f ∈ fields, Distinct f.2 := by
    intro fields
    induction fields with
    | nil => simp [DistinctFields]
    | cons f fields ih => rw [DistinctFields, ih, List.forall_mem_cons]
  rw [Distinct, hfields]

theorem distinct_canonical {j : Json} (h : Distinct j) : Distinct (canonical j) := by
  induction j using induct with
  | hnull => rw [canonical]; exact h
  | hbool b => rw [canonical]; exact h
  | hnum n => rw [canonical]; exact h
  | hneg n => rw [canonical]; exact h
  | hstr s => rw [canonical]; exact h
  | harr items ih =>
    rw [distinct_arr] at h
    rw [canonical_arr, distinct_arr, List.forall_mem_map]
    exact fun j hj => ih j hj (h j hj)
  | hobj fields ih =>
    obtain ⟨hnodup, hvalues⟩ := distinct_obj.mp h
    rw [canonical_obj, distinct_obj, List.map_map, List.forall_mem_map]
    refine ⟨(keys_sortByKey_perm fields).nodup_iff.mpr hnodup, fun f hf => ?_⟩
    have hmem := (sortByKey_perm fields).mem_iff.mp hf
    exact ih f hmem (hvalues f hmem)

/-! ## Other orders of the same fields -/

mutual

/-- The second document is the first with the fields of its objects in some order. -/
def Reordered : Json → Json → Prop
  | .arr items, .arr items' => ReorderedItems items items'
  | .obj fields, .obj fields' => ∃ same, ReorderedFields fields same ∧ same.Perm fields'
  | .null, .null => True
  | .bool b, .bool b' => b = b'
  | .num n, .num n' => n = n'
  | .neg n, .neg n' => n = n'
  | .str s, .str s' => s = s'
  | _, _ => False

def ReorderedItems : List Json → List Json → Prop
  | [], [] => True
  | item :: items, item' :: items' => Reordered item item' ∧ ReorderedItems items items'
  | _, _ => False

def ReorderedFields : List (String × Json) → List (String × Json) → Prop
  | [], [] => True
  | (key, value) :: fields, (key', value') :: fields' =>
    key = key' ∧ Reordered value value' ∧ ReorderedFields fields fields'
  | _, _ => False

end

mutual

/-- Documents that differ in the order of keys have one canonical form. -/
theorem canonical_eq_of_reordered :
    ∀ {i j : Json}, Distinct i → Reordered i j → canonical i = canonical j
  | .arr items, .arr items', hi, h => by
    rw [Reordered] at h
    rw [canonical_arr, canonical_arr, canonicalItems_eq_of_reordered (distinct_arr.mp hi) h]
  | .obj fields, .obj fields', hi, h => by
    rw [Reordered] at h
    obtain ⟨same, hsame, hperm⟩ := h
    obtain ⟨hnodup, hvalues⟩ := distinct_obj.mp hi
    obtain ⟨hkeys, hcanonical⟩ := canonicalFields_eq_of_reordered hvalues hsame
    have hnodup' : ((same.map fun f => (f.1, canonical f.2)).map Prod.fst).Nodup := by
      rw [List.map_map]
      exact hkeys ▸ hnodup
    rw [canonical, canonical, canonicalFields_eq, canonicalFields_eq, hcanonical]
    exact congrArg Json.obj (sortByKey_eq_of_perm (hperm.map _) hnodup')
  | .null, .null, _, _ => rfl
  | .bool b, .bool b', _, h => by rw [Reordered] at h; rw [h]
  | .num n, .num n', _, h => by rw [Reordered] at h; rw [h]
  | .neg n, .neg n', _, h => by rw [Reordered] at h; rw [h]
  | .str s, .str s', _, h => by rw [Reordered] at h; rw [h]

theorem canonicalItems_eq_of_reordered :
    ∀ {items items' : List Json}, (∀ j ∈ items, Distinct j) → ReorderedItems items items' →
      items.map canonical = items'.map canonical
  | [], [], _, _ => rfl
  | item :: items, item' :: items', hi, h => by
    rw [ReorderedItems] at h
    obtain ⟨hitem, hitems⟩ := List.forall_mem_cons.mp hi
    rw [List.map_cons, List.map_cons, canonical_eq_of_reordered hitem h.1,
      canonicalItems_eq_of_reordered hitems h.2]

theorem canonicalFields_eq_of_reordered :
    ∀ {fields fields' : List (String × Json)}, (∀ f ∈ fields, Distinct f.2) →
      ReorderedFields fields fields' →
        fields.map Prod.fst = fields'.map Prod.fst ∧
          (fields.map fun f => (f.1, canonical f.2)) = fields'.map fun f => (f.1, canonical f.2)
  | [], [], _, _ => ⟨rfl, rfl⟩
  | (key, value) :: fields, (key', value') :: fields', hi, h => by
    rw [ReorderedFields] at h
    obtain ⟨rfl, hvalue, hrest⟩ := h
    obtain ⟨hf, hfields⟩ := List.forall_mem_cons.mp hi
    obtain ⟨hkeys, hcanonical⟩ := canonicalFields_eq_of_reordered hfields hrest
    simp only [List.map_cons, hkeys, hcanonical, canonical_eq_of_reordered hf hvalue, and_self]

end

/-! ## Sorted maps -/

/-- A sorted map with one more entry, in place of an entry of the same key. -/
def insertKey {β : Type} (key : String) (value : β) : List (String × β) → List (String × β)
  | [] => [(key, value)]
  | (k, v) :: rest =>
    if key < k then (key, value) :: (k, v) :: rest
    else if key = k then (key, value) :: rest
    else (k, v) :: insertKey key value rest

/-- The sorted map of the entries, the last of repeated keys winning. -/
def mapOf {β : Type} (entries : List (String × β)) : List (String × β) :=
  entries.foldl (fun map e => insertKey e.1 e.2 map) []

theorem insertKey_perm {β : Type} {key : String} {value : β} {entries : List (String × β)}
    (h : key ∉ entries.map Prod.fst) :
    (insertKey key value entries).Perm ((key, value) :: entries) := by
  induction entries with
  | nil => exact .refl _
  | cons e entries ih =>
    obtain ⟨k, v⟩ := e
    simp only [List.map_cons, List.mem_cons, not_or] at h
    rw [insertKey, if_neg h.1]
    split
    · exact .refl _
    · exact ((ih h.2).cons _).trans (.swap _ _ _)

/-- The keys of a map stay increasing. -/
theorem pairwise_insertKey {β : Type} {key : String} {value : β} {entries : List (String × β)}
    (h : entries.Pairwise fun e f => e.1 < f.1) :
    (insertKey key value entries).Pairwise fun e f => e.1 < f.1 := by
  have hmem : ∀ {l : List (String × β)} {x}, x ∈ insertKey key value l → x.1 = key ∨ x ∈ l := by
    intro l x hx
    induction l with
    | nil => simp_all [insertKey]
    | cons e l ih =>
      obtain ⟨k, v⟩ := e
      rw [insertKey] at hx
      split_ifs at hx
      · rcases List.mem_cons.mp hx with rfl | hx
        · exact .inl rfl
        · exact .inr hx
      · rcases List.mem_cons.mp hx with rfl | hx
        · exact .inl rfl
        · exact .inr (.tail _ hx)
      · rcases List.mem_cons.mp hx with rfl | hx
        · exact .inr (.head _)
        · exact (ih hx).imp_right (.tail _)
  induction entries with
  | nil => exact List.pairwise_singleton _ _
  | cons e entries ih =>
    obtain ⟨k, v⟩ := e
    obtain ⟨he, hrest⟩ := List.pairwise_cons.mp h
    rw [insertKey]
    split_ifs with hlt heq
    · refine List.pairwise_cons.mpr ⟨List.forall_mem_cons.mpr ⟨hlt, fun f hf => ?_⟩, h⟩
      exact hlt.trans (he f hf)
    · exact List.pairwise_cons.mpr ⟨heq ▸ he, hrest⟩
    · have hkey : k < key := lt_of_le_of_ne (not_lt.mp hlt) (Ne.symm heq)
      refine List.pairwise_cons.mpr ⟨fun f hf => ?_, ih hrest⟩
      rcases hmem hf with hf | hf
      · exact hf ▸ hkey
      · exact he f hf

/-- Without repeated keys, the map is the entries sorted by key. -/
theorem mapOf_eq_sortByKey {β : Type} {entries : List (String × β)}
    (h : (entries.map Prod.fst).Nodup) : mapOf entries = sortByKey entries := by
  -- the map so far is sorted, and holds the entries so far
  have hfold : ∀ {entries map : List (String × β)}, ((map ++ entries).map Prod.fst).Nodup →
      map.Pairwise (fun e f => e.1 < f.1) →
        (entries.foldl (fun map e => insertKey e.1 e.2 map) map).Pairwise (fun e f => e.1 < f.1) ∧
          (entries.foldl (fun map e => insertKey e.1 e.2 map) map).Perm (map ++ entries) := by
    intro entries
    induction entries with
    | nil => exact fun _ hmap => ⟨hmap, by simp⟩
    | cons e entries ih =>
      intro map hnodup hmap
      have hnew : e.1 ∉ map.map Prod.fst := by
        rw [List.map_append, List.map_cons] at hnodup
        exact fun hmem => List.disjoint_of_nodup_append hnodup hmem (List.mem_cons_self ..)
      have hstep : (insertKey e.1 e.2 map ++ entries).Perm (map ++ e :: entries) :=
        ((insertKey_perm hnew).append_right entries).trans List.perm_middle.symm
      obtain ⟨hsorted, hperm⟩ :=
        ih ((hstep.map Prod.fst).nodup_iff.mpr hnodup) (pairwise_insertKey hmap)
      exact ⟨hsorted, hperm.trans hstep⟩
  obtain ⟨hsorted, hperm⟩ := hfold (by simpa using h) List.Pairwise.nil
  have hle : (mapOf entries).Pairwise KeyLe := hsorted.imp fun hlt => hlt.le
  have hsort : sortByKey entries = sortByKey (mapOf entries) := sortByKey_eq_of_perm hperm.symm h
  rw [hsort]
  exact hle.insertionSort_eq.symm

mutual

/-- The document as a tree of sorted maps. -/
def toValue : Json → Json
  | .arr items => .arr (toValueItems items)
  | .obj fields => .obj (mapOf (toValueFields fields))
  | .null => .null
  | .bool b => .bool b
  | .num n => .num n
  | .neg n => .neg n
  | .str s => .str s

def toValueItems : List Json → List Json
  | [] => []
  | item :: items => toValue item :: toValueItems items

def toValueFields : List (String × Json) → List (String × Json)
  | [] => []
  | (key, value) :: fields => (key, toValue value) :: toValueFields fields

end

theorem toValueItems_eq (items : List Json) : toValueItems items = items.map toValue := by
  induction items with
  | nil => rfl
  | cons item items ih => rw [toValueItems, ih, List.map_cons]

theorem toValueFields_eq (fields : List (String × Json)) :
    toValueFields fields = fields.map fun f => (f.1, toValue f.2) := by
  induction fields with
  | nil => rfl
  | cons f fields ih => rw [toValueFields, ih, List.map_cons]

/-- Without repeated keys, the tree is the canonical form. -/
theorem toValue_eq_canonical {j : Json} (h : Distinct j) : toValue j = canonical j := by
  induction j using induct with
  | hnull => rw [canonical, toValue]
  | hbool b => rw [canonical, toValue]
  | hnum n => rw [canonical, toValue]
  | hneg n => rw [canonical, toValue]
  | hstr s => rw [canonical, toValue]
  | harr items ih =>
    rw [canonical_arr, toValue, toValueItems_eq]
    exact congrArg Json.arr (List.map_congr_left fun j hj => ih j hj (distinct_arr.mp h j hj))
  | hobj fields ih =>
    obtain ⟨hnodup, hvalues⟩ := distinct_obj.mp h
    have hmap : (fields.map fun f => (f.1, toValue f.2)) = fields.map fun f => (f.1, canonical f.2) :=
      List.map_congr_left fun f hf => congrArg (Prod.mk f.1) (ih f hf (hvalues f hf))
    rw [canonical_obj, toValue, toValueFields_eq, hmap, mapOf_eq_sortByKey, sortByKey_map]
    rw [List.map_map]
    exact hnodup

/-! ## Reading a canonical object -/

theorem lookup_canonical {fields : List (String × Json)} (h : (fields.map Prod.fst).Nodup)
    (key : String) :
    ((sortByKey fields).map fun f => (f.1, canonical f.2)).lookup key =
      (fields.lookup key).map canonical := by
  rw [lookup_map, lookup_sortByKey h]

theorem keys_canonical_perm (fields : List (String × Json)) :
    (((sortByKey fields).map fun f => (f.1, canonical f.2)).map Prod.fst).Perm
      (fields.map Prod.fst) := by
  rw [List.map_map]
  exact keys_sortByKey_perm fields

theorem struct?_canonical {known : List String} {fields : List (String × Json)}
    (hnodup : (fields.map Prod.fst).Nodup) (hknown : ∀ k ∈ fields.map Prod.fst, k ∈ known) :
    struct? known (canonical (.obj fields)) =
      some ((sortByKey fields).map fun f => (f.1, canonical f.2)) := by
  rw [canonical_obj]
  refine struct?_obj ((keys_canonical_perm fields).nodup_iff.mpr hnodup) ?_ rfl
  exact fun k hk => hknown k ((keys_canonical_perm fields).mem_iff.mp hk)

theorem openStruct?_canonical {known : List String} {fields : List (String × Json)}
    (hnodup : (fields.map Prod.fst).Nodup) :
    openStruct? known (canonical (.obj fields)) =
      some ((sortByKey fields).map fun f => (f.1, canonical f.2)) := by
  rw [canonical_obj]
  exact openStruct?_obj ((keys_canonical_perm fields).nodup_iff.mpr hnodup)

/-- Objects that leave fields out have no repeated keys. -/
theorem distinct_sparse {fields : List (String × Option Json)} (hnodup : (fields.map Prod.fst).Nodup)
    (h : ∀ f ∈ fields, ∀ j ∈ f.2, Distinct j) : Distinct (.obj (sparse fields)) := by
  refine distinct_obj.mpr ⟨hnodup.sublist (map_fst_sparse fields), fun f hf => ?_⟩
  obtain ⟨⟨key, value⟩, hmem, hvalue⟩ := List.mem_filterMap.mp hf
  obtain ⟨j, hj, rfl⟩ := Option.map_eq_some_iff.mp hvalue
  exact h _ hmem j hj

/-- The canonical form depends on the fields only through theirs. -/
theorem canonical_sparse_congr {fields fields' : List (String × Option Json)}
    (h : (fields.map fun f => (f.1, f.2.map canonical)) =
      fields'.map fun f => (f.1, f.2.map canonical)) :
    canonical (.obj (sparse fields)) = canonical (.obj (sparse fields')) := by
  have hsparse : ∀ fields : List (String × Option Json),
      (sparse fields).map (fun f => (f.1, canonical f.2)) =
        sparse (fields.map fun f => (f.1, f.2.map canonical)) := by
    intro fields
    induction fields with
    | nil => rfl
    | cons f fields ih =>
      rcases f with ⟨key, _ | j⟩
      · exact ih
      · exact congrArg ((key, canonical j) :: ·) ih
  rw [canonical_obj, canonical_obj, ← sortByKey_map, ← sortByKey_map, hsparse, hsparse, h]

end Json

end Lib
