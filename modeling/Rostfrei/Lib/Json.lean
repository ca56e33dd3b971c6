import Rostfrei.Lib.Bytes

/-!
# JSON documents and the struct forms of a derived decoder

`Json` is a document as a tree of tokens; objects keep the order and the repetition of their keys,
and its numbers are integers (`neg n` is `-(n + 1)`).
The decoders follow what a derived struct decoder does with an object:

* `struct? known`: no repeated key and no key outside `known` (`deny_unknown_fields`);
  `openStruct? known`: no key of `known` repeated, and any others;
* `required`: the key must be there; `optional`: a missing key and `null` are both `none`;
* `present`: a missing key is `none`, and a key that is there must decode (`null` does not);
* `nullable`: the key must be there, and `null` is `none`.

`Json.Fits d j`: nesting at most `d`, and every number is a `u64` or a negative `i64`. A text codec
is only asked to read back documents that fit its nesting limit.
-/

namespace Lib

inductive Json where
  | null
  | bool (b : Bool)
  | num (n : Nat)
  | neg (n : Nat)
  | str (s : String)
  | arr (items : List Json)
  | obj (fields : List (String × Json))

namespace Json

/-- Nested at most `d` deep, with numbers from `-2 ^ 63` to below `2 ^ 64`. -/
def Fits : Nat → Json → Prop
  | _, .null => True
  | _, .bool _ => True
  | _, .num n => n < 2 ^ 64
  | _, .neg n => n < 2 ^ 63
  | _, .str _ => True
  | 0, .arr _ => False
  | 0, .obj _ => False
  | d + 1, .arr items => ∀ j ∈ items, Fits d j
  | d + 1, .obj fields => ∀ f ∈ fields, Fits d f.2

@[simp] theorem fits_null (d : Nat) : Fits d .null := by cases d <;> trivial
@[simp] theorem fits_bool (d : Nat) (b : Bool) : Fits d (.bool b) := by cases d <;> trivial
@[simp] theorem fits_str (d : Nat) (s : String) : Fits d (.str s) := by cases d <;> trivial
@[simp] theorem fits_num (d n : Nat) : Fits d (.num n) ↔ n < 2 ^ 64 := by cases d <;> rfl
@[simp] theorem fits_neg (d n : Nat) : Fits d (.neg n) ↔ n < 2 ^ 63 := by cases d <;> rfl
@[simp] theorem fits_arr (d : Nat) (items : List Json) :
    Fits (d + 1) (.arr items) ↔ ∀ j ∈ items, Fits d j := Iff.rfl
@[simp] theorem fits_obj (d : Nat) (fields : List (String × Json)) :
    Fits (d + 1) (.obj fields) ↔ ∀ f ∈ fields, Fits d f.2 := Iff.rfl

theorem Fits.mono {j : Json} : ∀ {d e : Nat}, j.Fits d → d ≤ e → j.Fits e
  | 0, _, h, _ => by
    cases j with
    | arr | obj => exact h.elim
    | _ => simpa using h
  | d + 1, e, h, hle => by
    obtain ⟨e, rfl⟩ : ∃ e', e = e' + 1 := ⟨e - 1, by omega⟩
    cases j with
    | arr items => exact fun j hj => Fits.mono (h j hj) (by omega)
    | obj fields => exact fun f hf => Fits.mono (h f hf) (by omega)
    | _ => simpa using h

/-! ## Sizes -/

/-- The bytes of a string token: quotes, and at most six bytes for each byte of the text. -/
def stringSize (s : String) : Nat := 6 * s.utf8ByteSize + 2

mutual

/-- A bound on the bytes of the compact text of a document. -/
def textSize : Json → Nat
  | .null => 4
  | .bool _ => 5
  | .num n => (Nat.toDigits 10 n).length
  | .neg n => 1 + (Nat.toDigits 10 (n + 1)).length
  | .str s => stringSize s
  | .arr items => 1 + itemsSize items
  | .obj fields => 1 + fieldsSize fields

def itemsSize : List Json → Nat
  | [] => 1
  | item :: items => 1 + textSize item + itemsSize items

def fieldsSize : List (String × Json) → Nat
  | [] => 1
  | (key, value) :: fields => 2 + stringSize key + textSize value + fieldsSize fields

end

/-- An object whose keys and values are bounded. -/
theorem textSize_obj_le {fields : List (String × Json)} {k v : Nat}
    (h : ∀ f ∈ fields, stringSize f.1 ≤ k ∧ textSize f.2 ≤ v) :
    textSize (.obj fields) ≤ 2 + fields.length * (2 + k + v) := by
  suffices hfields : fieldsSize fields ≤ 1 + fields.length * (2 + k + v) by
    simp only [textSize]
    omega
  induction fields with
  | nil => simp [fieldsSize]
  | cons f fields ih =>
    obtain ⟨hf, hrest⟩ := List.forall_mem_cons.mp h
    have htail := ih hrest
    simp only [fieldsSize, List.length_cons, Nat.add_mul, Nat.one_mul]
    omega

/-! ## Scalars -/

/-- An unsigned integer below `bound`. -/
def uint? (bound : Nat) : Json → Option Nat
  | .num n => if n < bound then some n else none
  | _ => none

def bool? : Json → Option Bool
  | .bool b => some b
  | _ => none

def str? : Json → Option String
  | .str s => some s
  | _ => none

/-- An array whose items all decode. -/
def array? {α : Type} (item : Json → Option α) : Json → Option (List α)
  | .arr items => items.mapM item
  | _ => none

@[simp] theorem uint?_num {bound n : Nat} (h : n < bound) : uint? bound (.num n) = some n := by
  simp [uint?, h]

@[simp] theorem bool?_bool (b : Bool) : bool? (.bool b) = some b := rfl

@[simp] theorem str?_str (s : String) : str? (.str s) = some s := rfl

theorem array?_map {α : Type} {item : Json → Option α} {enc : α → Json} {xs : List α}
    (h : ∀ x ∈ xs, item (enc x) = some x) : array? item (.arr (xs.map enc)) = some xs := by
  unfold array?
  induction xs with
  | nil => rfl
  | cons x xs ih =>
    have hx := h x (by simp)
    have hxs := ih fun y hy => h y (by simp [hy])
    simp only at hxs
    simp [List.mapM_cons, hx, hxs]

/-! ## Fixed widths and byte vectors -/

/-- A `u16` field. -/
def uint16? (j : Json) : Option UInt16 := (j.uint? (2 ^ 16)).map UInt16.ofNat

/-- A `u32` field. -/
def uint32? (j : Json) : Option UInt32 := (j.uint? (2 ^ 32)).map UInt32.ofNat

/-- A `u64` field. -/
def uint64? (j : Json) : Option UInt64 := (j.uint? (2 ^ 64)).map UInt64.ofNat

/-- A `u8` item. -/
def uint8? (j : Json) : Option UInt8 := (j.uint? (2 ^ 8)).map UInt8.ofNat

@[simp] theorem uint16?_num (n : UInt16) : uint16? (.num n.toNat) = some n := by
  simp [uint16?, uint?, n.toNat_lt]

@[simp] theorem uint32?_num (n : UInt32) : uint32? (.num n.toNat) = some n := by
  simp [uint32?, uint?, n.toNat_lt]

@[simp] theorem uint64?_num (n : UInt64) : uint64? (.num n.toNat) = some n := by
  have h := n.toNat_lt
  simp only [Nat.reducePow] at h
  simp [uint64?, uint?, h]

@[simp] theorem uint8?_num (n : UInt8) : uint8? (.num n.toNat) = some n := by
  simp [uint8?, uint?, n.toNat_lt]

/-- A byte vector, as `serde` writes a `Vec<u8>`. -/
def ofBytes (bytes : Bytes) : Json := .arr (bytes.map fun b => .num b.toNat)

/-- A byte vector field. -/
def bytes? : Json → Option Bytes := array? uint8?

@[simp] theorem bytes?_ofBytes (bytes : Bytes) : bytes? (ofBytes bytes) = some bytes :=
  array?_map fun b _ => uint8?_num b

@[simp] theorem fits_ofBytes (d : Nat) (bytes : Bytes) : (ofBytes bytes).Fits (d + 1) := by
  simp only [ofBytes, fits_arr, List.forall_mem_map, fits_num]
  intro b _
  have := b.toNat_lt
  omega

/-! ## Struct fields -/

/-- A key other than the first is looked up in the rest. -/
theorem lookup_cons_of_ne {β : Type} {key k : String} {j : β} {rest : List (String × β)}
    (h : key ≠ k) : List.lookup key ((k, j) :: rest) = List.lookup key rest := by
  have hb : (key == k) = false := by simpa using h
  simp [List.lookup_cons, hb]

/-- `none` is not written (`skip_serializing_if = "Option::is_none"`). -/
def skipNone (key : String) : Option Json → List (String × Json)
  | none => []
  | some j => [(key, j)]

/-- `none` is written as `null`. -/
def orNull : Option Json → Json
  | none => .null
  | some j => j

theorem fits_orNull {α : Type} {d : Nat} {enc : α → Json} {x : Option α}
    (h : ∀ a ∈ x, (enc a).Fits d) : (orNull (x.map enc)).Fits d := by
  cases x with
  | none => exact fits_null d
  | some a => exact h a rfl

@[simp] theorem fits_orNull_str (d : Nat) (x : Option String) :
    (orNull (x.map .str)).Fits d := fits_orNull fun _ _ => fits_str d _

@[simp] theorem fits_orNull_uint64 (d : Nat) (x : Option UInt64) :
    (orNull (x.map fun n => .num n.toNat)).Fits d :=
  fits_orNull fun n _ => (fits_num d n.toNat).mpr n.toNat_lt

/-- The fields of an object without repeated or unknown keys. -/
def struct? (known : List String) : Json → Option (List (String × Json))
  | .obj fields =>
    if (fields.map Prod.fst).Nodup ∧ ∀ f ∈ fields, f.1 ∈ known then some fields else none
  | _ => none

/-- An object with known keys, none of them twice, is accepted. -/
theorem struct?_obj {known keys : List String} {fields : List (String × Json)}
    (hnodup : keys.Nodup) (hknown : ∀ k ∈ keys, k ∈ known) (hkeys : fields.map Prod.fst = keys) :
    struct? known (.obj fields) = some fields := by
  subst hkeys
  refine if_pos ⟨hnodup, fun f hf => hknown f.1 (List.mem_map_of_mem hf)⟩

/-- The fields of an object that repeats none of the known keys; other keys are ignored. -/
def openStruct? (known : List String) : Json → Option (List (String × Json))
  | .obj fields =>
    if ((fields.map Prod.fst).filter (· ∈ known)).Nodup then some fields else none
  | _ => none

theorem openStruct?_obj {known : List String} {fields : List (String × Json)}
    (hnodup : (fields.map Prod.fst).Nodup) : openStruct? known (.obj fields) = some fields :=
  if_pos (hnodup.filter _)

def required {α : Type} (fields : List (String × Json)) (key : String) (dec : Json → Option α) :
    Option α :=
  (fields.lookup key).bind dec

/-- A missing value and `null` are both `none`. -/
def optionalOf {α : Type} (dec : Json → Option α) : Option Json → Option (Option α)
  | none => some none
  | some .null => some none
  | some j => (dec j).map some

/-- A missing value is `none`, any other must decode. -/
def presentOf {α : Type} (dec : Json → Option α) : Option Json → Option (Option α)
  | none => some none
  | some j => (dec j).map some

/-- The value must be there; `null` is `none`. -/
def nullableOf {α : Type} (dec : Json → Option α) : Option Json → Option (Option α)
  | none => none
  | some .null => some none
  | some j => (dec j).map some

def optional {α : Type} (fields : List (String × Json)) (key : String) (dec : Json → Option α) :
    Option (Option α) :=
  optionalOf dec (fields.lookup key)

def present {α : Type} (fields : List (String × Json)) (key : String) (dec : Json → Option α) :
    Option (Option α) :=
  presentOf dec (fields.lookup key)

def nullable {α : Type} (fields : List (String × Json)) (key : String) (dec : Json → Option α) :
    Option (Option α) :=
  nullableOf dec (fields.lookup key)

theorem nullableOf_orNull {α : Type} {dec : Json → Option α} {enc : α → Json} (x : Option α)
    (hdec : ∀ a, dec (enc a) = some a) (hnull : ∀ a, enc a ≠ .null) :
    nullableOf dec (some (orNull (x.map enc))) = some x := by
  cases x with
  | none => rfl
  | some a =>
    have hd := hdec a
    have hn := hnull a
    simp only [Option.map_some, orNull]
    generalize enc a = j at hd hn
    cases j <;> first | exact absurd rfl hn | simp [nullableOf, hd]

/-- Writing `none` as `null` is read back, by a decoder that inverts a form other than `null`. -/
theorem optionalOf_orNull {α : Type} {dec : Json → Option α} {enc : α → Json} (x : Option α)
    (hdec : ∀ a, dec (enc a) = some a) (hnull : ∀ a, enc a ≠ .null) :
    optionalOf dec (some (orNull (x.map enc))) = some x := by
  have h := nullableOf_orNull x hdec hnull
  generalize orNull (x.map enc) = j at h
  cases j <;> exact h

/-- A field that is left out for `none` is read back. -/
theorem optionalOf_map {α : Type} {dec : Json → Option α} {enc : α → Json} (x : Option α)
    (hdec : ∀ a ∈ x, dec (enc a) = some a) (hnull : ∀ a, enc a ≠ .null) :
    optionalOf dec (x.map enc) = some x := by
  cases x with
  | none => rfl
  | some a =>
    have hd := hdec a rfl
    have hn := hnull a
    simp only [Option.map_some]
    generalize enc a = j at hd hn
    cases j <;> first | exact absurd rfl hn | simp [optionalOf, hd]

theorem presentOf_map {α : Type} {dec : Json → Option α} {enc : α → Json} (x : Option α)
    (hdec : ∀ a ∈ x, dec (enc a) = some a) : presentOf dec (x.map enc) = some x := by
  cases x with
  | none => rfl
  | some a => simp [presentOf, hdec a rfl]

@[simp] theorem optionalOf_str (x : Option String) :
    optionalOf str? (some (orNull (x.map .str))) = some x :=
  optionalOf_orNull x str?_str fun _ => Json.noConfusion

@[simp] theorem optionalOf_uint64 (x : Option UInt64) :
    optionalOf uint64? (some (orNull (x.map fun n => .num n.toNat))) = some x :=
  optionalOf_orNull x uint64?_num fun _ => Json.noConfusion

/-! ## Objects that leave fields out -/

/-- The fields that have a value. -/
def sparse (fields : List (String × Option Json)) : List (String × Json) :=
  fields.filterMap fun f => f.2.map (f.1, ·)

theorem map_fst_sparse (fields : List (String × Option Json)) :
    ((sparse fields).map Prod.fst).Sublist (fields.map Prod.fst) := by
  induction fields with
  | nil => exact List.Sublist.slnil
  | cons f fields ih =>
    rcases f with ⟨key, _ | j⟩
    · exact ih.cons key
    · exact ih.cons_cons key

/-- A key that no field has is not found. -/
theorem lookup_eq_none_of_notMem {β : Type} {key : String} {fields : List (String × β)}
    (h : key ∉ fields.map Prod.fst) : fields.lookup key = none := by
  induction fields with
  | nil => rfl
  | cons f fields ih =>
    simp only [List.map_cons, List.mem_cons, not_or] at h
    rw [show f = (f.1, f.2) from rfl, lookup_cons_of_ne h.1]
    exact ih h.2

theorem lookup_sparse {fields : List (String × Option Json)} (h : (fields.map Prod.fst).Nodup)
    (key : String) : (sparse fields).lookup key = (fields.lookup key).join := by
  induction fields with
  | nil => rfl
  | cons f fields ih =>
    obtain ⟨hnew, hrest⟩ := List.nodup_cons.mp h
    rcases f with ⟨k, _ | j⟩
    · by_cases hk : key = k
      · subst hk
        have hnone : (sparse fields).lookup key = none :=
          lookup_eq_none_of_notMem fun hmem => hnew ((map_fst_sparse fields).subset hmem)
        rw [List.lookup_cons_self]
        exact hnone
      · rw [lookup_cons_of_ne hk]
        exact ih hrest
    · by_cases hk : key = k
      · subst hk
        rw [List.lookup_cons_self]
        exact List.lookup_cons_self
      · rw [lookup_cons_of_ne hk, ← ih hrest]
        exact lookup_cons_of_ne hk

/-- An object with known keys, none of them twice, is accepted whichever fields it leaves out. -/
theorem struct?_sparse {known : List String} {fields : List (String × Option Json)}
    (hnodup : known.Nodup) (hkeys : fields.map Prod.fst = known) :
    struct? known (.obj (sparse fields)) = some (sparse fields) := by
  subst hkeys
  exact struct?_obj (hnodup.sublist (map_fst_sparse fields))
    (fun _ hk => (map_fst_sparse fields).subset hk) rfl

theorem fits_sparse {d : Nat} {fields : List (String × Option Json)}
    (h : ∀ f ∈ fields, ∀ j ∈ f.2, j.Fits d) : (Json.obj (sparse fields)).Fits (d + 1) := by
  rw [fits_obj]
  intro f hf
  obtain ⟨⟨key, value⟩, hmem, hvalue⟩ := List.mem_filterMap.mp hf
  obtain ⟨j, hj, rfl⟩ := Option.map_eq_some_iff.mp hvalue
  exact h _ hmem j hj

end Json

end Lib
