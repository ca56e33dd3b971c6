import Rostfrei.Lib.JsonOrder
import Rostfrei.Lib.JsonText
import Rostfrei.Lib.Numeral

/-!
# Compact text

`Json.compact text j` is the text of a document without blanks, for any way to write its scalars.
Where the texts of scalars can be told apart (`Readable`), those of documents can
(`compact_unique`): whatever follows, a document and what follows it are determined.
`readable_print` is the instance of the printer.

Documents of one canonical form are the same up to the order of keys, and only those
(`canonical_eq_iff_reordered`).
-/

namespace Lib

/-! ## Prefixes of UTF-8 -/

/-- A character and what follows its bytes are determined. -/
theorem utf8EncodeChar_append_inj {c d : Char} {rest rest' : Bytes}
    (h : String.utf8EncodeChar c ++ rest = String.utf8EncodeChar d ++ rest') :
    c = d ∧ rest = rest' := by
  have hdecode : ∀ (c : Char) (rest : Bytes),
      (String.utf8EncodeChar c ++ rest).toByteArray.utf8DecodeChar? 0 = some c := fun c rest => by
    rw [List.toByteArray_append]
    exact ByteArray.utf8DecodeChar?_utf8EncodeChar_append
  have hc := hdecode c rest
  rw [h, hdecode d rest'] at hc
  obtain rfl := Option.some.inj hc
  exact ⟨rfl, List.append_cancel_left h⟩

/-- Of two texts that begin the same bytes, one goes on where the other ends. -/
theorem utf8_append_cases {cs ds : List Char} {rest rest' : Bytes}
    (h : cs.flatMap String.utf8EncodeChar ++ rest = ds.flatMap String.utf8EncodeChar ++ rest') :
    (∃ more, ds = cs ++ more ∧ rest = more.flatMap String.utf8EncodeChar ++ rest') ∨
      ∃ more, cs = ds ++ more ∧ rest' = more.flatMap String.utf8EncodeChar ++ rest := by
  induction cs generalizing ds with
  | nil => exact .inl ⟨ds, rfl, h⟩
  | cons c cs ih =>
    cases ds with
    | nil => exact .inr ⟨c :: cs, rfl, h.symm⟩
    | cons d ds =>
      rw [List.flatMap_cons, List.flatMap_cons, List.append_assoc, List.append_assoc] at h
      obtain ⟨rfl, hrest⟩ := utf8EncodeChar_append_inj h
      rcases ih hrest with ⟨more, rfl, hmore⟩ | ⟨more, rfl, hmore⟩
      · exact .inl ⟨more, rfl, hmore⟩
      · exact .inr ⟨more, rfl, hmore⟩

/-! ## Lists with commas -/

/-- The bytes after a value: nothing, or a comma, a colon or a closing bracket. -/
def Ends (rest : Bytes) : Prop := ∀ b ∈ rest.head?, b = 0x2c ∨ b = 0x3a ∨ b = 0x5d ∨ b = 0x7d

theorem Ends.cons {b : UInt8} {rest : Bytes} (h : b = 0x2c ∨ b = 0x3a ∨ b = 0x5d ∨ b = 0x7d) :
    Ends (b :: rest) := by
  intro b' hb'
  obtain rfl := Option.some.inj hb'
  exact h

section Lists

variable {α : Type} {enc : α → Bytes} {P : α → Prop} {close : UInt8}

/-- An encoded value can be told from any other, whatever ends it. -/
def Unique (enc : α → Bytes) (P : α → Prop) (x : α) : Prop :=
  ∀ {y rest rest'}, P y → Ends rest → Ends rest' → enc x ++ rest = enc y ++ rest' →
    x = y ∧ rest = rest'

theorem commas_unique (hclose : close = 0x5d ∨ close = 0x7d) {xs ys : List α} {rest rest' : Bytes}
    (hxs : ∀ x ∈ xs, Unique enc P x) (hys : ∀ y ∈ ys, P y)
    (h : (xs.map enc).flatMap (0x2c :: ·) ++ close :: rest =
      (ys.map enc).flatMap (0x2c :: ·) ++ close :: rest') : xs = ys ∧ rest = rest' := by
  have hcomma : close ≠ 0x2c := by rcases hclose with rfl | rfl <;> decide
  have hends : ∀ (zs : List α) (rest : Bytes),
      Ends ((zs.map enc).flatMap (0x2c :: ·) ++ close :: rest) := by
    intro zs rest
    cases zs with
    | nil => exact .cons (.inr (.inr hclose))
    | cons z zs => exact .cons (.inl rfl)
  induction xs generalizing ys with
  | nil =>
    cases ys with
    | nil => exact ⟨rfl, (List.cons.inj h).2⟩
    | cons y ys => exact absurd (List.cons.inj h).1 hcomma
  | cons x xs ih =>
    cases ys with
    | nil => exact absurd (List.cons.inj h).1.symm hcomma
    | cons y ys =>
      obtain ⟨hx, hxrest⟩ := List.forall_mem_cons.mp hxs
      obtain ⟨hy, hyrest⟩ := List.forall_mem_cons.mp hys
      simp only [List.map_cons, List.flatMap_cons, List.cons_append, List.append_assoc,
        List.cons.injEq, true_and] at h
      obtain ⟨rfl, htail⟩ := hx hy (hends _ _) (hends _ _) h
      obtain ⟨rfl, hrest⟩ := ih hxrest hyrest htail
      exact ⟨rfl, hrest⟩

/-- A list in brackets and what follows it are determined, if no value begins like its end. -/
theorem joinComma_unique (hclose : close = 0x5d ∨ close = 0x7d) {xs ys : List α}
    {rest rest' : Bytes} (hxs : ∀ x ∈ xs, Unique enc P x) (hys : ∀ y ∈ ys, P y)
    (hfirst : ∀ x, (enc x).head? ≠ none ∧ (enc x).head? ≠ some close)
    (h : joinComma (xs.map enc) ++ close :: rest = joinComma (ys.map enc) ++ close :: rest') :
    xs = ys ∧ rest = rest' := by
  have hnot : ∀ (z : α) (tail tail' : Bytes), enc z ++ tail ≠ close :: tail' := by
    intro z tail tail' heq
    obtain ⟨hne, hhead⟩ := hfirst z
    cases henc : enc z with
    | nil => rw [henc] at hne; exact hne rfl
    | cons b bs =>
      rw [henc] at heq hhead
      exact hhead (congrArg some (List.cons.inj heq).1)
  cases xs with
  | nil =>
    cases ys with
    | nil => exact ⟨rfl, (List.cons.inj h).2⟩
    | cons y ys =>
      rw [List.map_cons, joinComma, List.append_assoc] at h
      exact absurd h.symm (hnot _ _ _)
  | cons x xs =>
    cases ys with
    | nil =>
      rw [List.map_cons, joinComma, List.append_assoc] at h
      exact absurd h (hnot _ _ _)
    | cons y ys =>
      -- with a comma before both, the lists are the tails of longer ones
      refine commas_unique hclose hxs hys ?_
      simp only [List.map_cons, joinComma, List.flatMap_cons, List.cons_append] at h ⊢
      rw [h]

end Lists

namespace Json

/-! ## Documents -/

section Compact

variable (text : Json → Bytes)

mutual

/-- The text of a document without blanks, whose scalars have these texts. -/
def compact : Json → Bytes
  | .arr items => 0x5b :: joinComma (compactItems items) ++ [0x5d]
  | .obj fields => 0x7b :: joinComma (compactFields fields) ++ [0x7d]
  | .null => text .null
  | .bool b => text (.bool b)
  | .num n => text (.num n)
  | .neg n => text (.neg n)
  | .str s => text (.str s)

def compactItems : List Json → List Bytes
  | [] => []
  | item :: items => compact item :: compactItems items

def compactFields : List (String × Json) → List Bytes
  | [] => []
  | (key, value) :: fields => (text (.str key) ++ 0x3a :: compact value) :: compactFields fields

end

/-- The text of a field. -/
def compactField (f : String × Json) : Bytes := text (.str f.1) ++ 0x3a :: compact text f.2

variable {text}

theorem compact_arr (items : List Json) :
    compact text (.arr items) = 0x5b :: joinComma (items.map (compact text)) ++ [0x5d] := by
  have hitems : compactItems text items = items.map (compact text) := by
    induction items with
    | nil => rfl
    | cons item items ih => rw [compactItems, ih, List.map_cons]
  rw [compact, hitems]

theorem compact_obj (fields : List (String × Json)) :
    compact text (.obj fields) = 0x7b :: joinComma (fields.map (compactField text)) ++ [0x7d] := by
  have hfields : compactFields text fields = fields.map (compactField text) := by
    induction fields with
    | nil => rfl
    | cons f fields ih => rw [compactFields, ih, List.map_cons, compactField]
  rw [compact, hfields]

theorem compact_scalar {j : Json} (h : j.IsScalar) : compact text j = text j := by
  cases j with
  | arr | obj => exact h.elim
  | _ => rw [compact]

end Compact

/-- The texts of scalars begin with no bracket, and each can be told from what ends it. -/
structure Readable (text : Json → Bytes) : Prop where
  first : ∀ j : Json, j.IsScalar → ∃ b rest, text j = b :: rest ∧
    b ≠ 0x5b ∧ b ≠ 0x5d ∧ b ≠ 0x7b ∧ b ≠ 0x7d
  unique : ∀ {i j : Json} {rest rest' : Bytes}, i.IsScalar → j.IsScalar → i.Fits 0 → j.Fits 0 →
    Ends rest → Ends rest' → text i ++ rest = text j ++ rest' → i = j ∧ rest = rest'

section Unique

variable {text : Json → Bytes}

/-- The first byte of a document says whether it is an array or an object, and is no end. -/
theorem head?_compact (hread : Readable text) (j : Json) :
    ∃ b, (compact text j).head? = some b ∧ b ≠ 0x5d ∧ b ≠ 0x7d ∧
      (b = 0x5b ↔ ∃ items, j = .arr items) ∧ (b = 0x7b ↔ ∃ fields, j = .obj fields) := by
  by_cases hscalar : j.IsScalar
  · obtain ⟨b, rest, htext, hopen, hclose, hbrace, hend⟩ := hread.first j hscalar
    rw [compact_scalar hscalar, htext]
    refine ⟨b, rfl, hclose, hend, ⟨fun h => absurd h hopen, ?_⟩, ⟨fun h => absurd h hbrace, ?_⟩⟩
    · rintro ⟨items, rfl⟩
      exact hscalar.elim
    · rintro ⟨fields, rfl⟩
      exact hscalar.elim
  · cases j with
    | arr items =>
      rw [compact_arr]
      exact ⟨0x5b, rfl, by decide, by decide, by simp, by simp⟩
    | obj fields =>
      rw [compact_obj]
      exact ⟨0x7b, rfl, by decide, by decide, by simp, by simp⟩
    | _ => exact absurd trivial hscalar

/-- Documents whose texts begin alike are of one kind. -/
theorem same_kind (hread : Readable text) {i j : Json} {rest rest' : Bytes}
    (h : compact text i ++ rest = compact text j ++ rest') :
    ((∃ items, i = .arr items) ↔ ∃ items, j = .arr items) ∧
      ((∃ fields, i = .obj fields) ↔ ∃ fields, j = .obj fields) := by
  obtain ⟨b, hb, -, -, harr, hobj⟩ := head?_compact hread i
  obtain ⟨b', hb', -, -, harr', hobj'⟩ := head?_compact hread j
  have hhead := congrArg List.head? h
  rw [List.head?_append, List.head?_append, hb, hb'] at hhead
  obtain rfl : b = b' := Option.some.inj hhead
  exact ⟨harr.symm.trans harr', hobj.symm.trans hobj'⟩

theorem Fits.of_scalar {d : Nat} {j : Json} (hscalar : j.IsScalar) (h : j.Fits d) : j.Fits 0 := by
  cases j with
  | arr | obj => exact hscalar.elim
  | num n => rw [fits_num] at h ⊢; exact h
  | neg n => rw [fits_neg] at h ⊢; exact h
  | _ => trivial

/-- What documents of some nesting are. -/
def Fitting (j : Json) : Prop := ∃ d, j.Fits d

theorem Fitting.items {items : List Json} (h : Fitting (.arr items)) : ∀ j ∈ items, Fitting j := by
  obtain ⟨d, hd⟩ := h
  cases d with
  | zero => exact hd.elim
  | succ d => exact fun j hj => ⟨d, hd j hj⟩

theorem Fitting.fields {fields : List (String × Json)} (h : Fitting (.obj fields)) :
    ∀ f ∈ fields, Fitting f.2 := by
  obtain ⟨d, hd⟩ := h
  cases d with
  | zero => exact hd.elim
  | succ d => exact fun f hf => ⟨d, hd f hf⟩

theorem unique_of_scalar (hread : Readable text) {i : Json} (hscalar : i.IsScalar)
    (hi : Fitting i) : Unique (compact text) Fitting i := by
  intro j rest rest' ⟨e, hj⟩ hrest hrest' h
  obtain ⟨harr, hobj⟩ := same_kind hread h
  have hjscalar : j.IsScalar := by
    cases j with
    | arr items =>
      obtain ⟨items, rfl⟩ := harr.mpr ⟨items, rfl⟩
      exact hscalar
    | obj fields =>
      obtain ⟨fields, rfl⟩ := hobj.mpr ⟨fields, rfl⟩
      exact hscalar
    | _ => trivial
  rw [compact_scalar hscalar, compact_scalar hjscalar] at h
  obtain ⟨d, hi⟩ := hi
  exact hread.unique hscalar hjscalar (hi.of_scalar hscalar) (hj.of_scalar hjscalar) hrest hrest' h

/-- A field and what follows it are determined, if its value is. -/
theorem unique_field (hread : Readable text) {f : String × Json}
    (h : Unique (compact text) Fitting f.2) :
    Unique (compactField text) (fun f => Fitting f.2) f := by
  intro g rest rest' hg hrest hrest' heq
  rw [compactField, compactField, List.append_assoc, List.append_assoc, List.cons_append,
    List.cons_append] at heq
  have hcolon : ∀ rest : Bytes, Ends (0x3a :: rest) := fun rest => .cons (.inr (.inl rfl))
  have hscalar : ∀ s, (Json.str s).IsScalar := fun _ => trivial
  obtain ⟨hkey, htail⟩ := hread.unique (hscalar f.1) (hscalar g.1) (fits_str 0 f.1) (fits_str 0 g.1)
    (hcolon _) (hcolon _) heq
  obtain ⟨hvalue, hend⟩ := h hg hrest hrest' (List.cons.inj htail).2
  exact ⟨Prod.ext (Json.str.inj hkey) hvalue, hend⟩

/-- A document and what follows it are determined. -/
theorem compact_unique (hread : Readable text) {i : Json} (hi : Fitting i) :
    Unique (compact text) Fitting i := by
  -- induction on the first document, for every second one and every end
  induction i using Json.induct with
  | harr items ih =>
    intro j rest rest' hj hrest hrest' h
    obtain ⟨items', rfl⟩ := (same_kind hread h).1.mp ⟨items, rfl⟩
    simp only [compact_arr, List.cons_append, List.append_assoc, List.nil_append, List.cons.injEq,
      true_and] at h
    have hfirst : ∀ x, (compact text x).head? ≠ none ∧ (compact text x).head? ≠ some 0x5d := by
      intro x
      obtain ⟨b, hb, hne, -⟩ := head?_compact hread x
      rw [hb]
      exact ⟨Option.some_ne_none b, fun heq => hne (Option.some.inj heq)⟩
    obtain ⟨hitems, hend⟩ := joinComma_unique (.inl rfl) (fun x hx => ih x hx (hi.items x hx))
      hj.items hfirst h
    exact ⟨congrArg Json.arr hitems, hend⟩
  | hobj fields ih =>
    intro j rest rest' hj hrest hrest' h
    obtain ⟨fields', rfl⟩ := (same_kind hread h).2.mp ⟨fields, rfl⟩
    simp only [compact_obj, List.cons_append, List.append_assoc, List.nil_append, List.cons.injEq,
      true_and] at h
    have hfirst : ∀ f, (compactField text f).head? ≠ none ∧
        (compactField text f).head? ≠ some 0x7d := by
      intro f
      obtain ⟨b, tail, hkey, -, -, -, hne⟩ := hread.first (.str f.1) (by trivial)
      rw [compactField, hkey]
      exact ⟨Option.some_ne_none b, fun heq => hne (Option.some.inj heq)⟩
    obtain ⟨hfields, hend⟩ := joinComma_unique (.inr rfl)
      (fun f hf => unique_field hread (ih f hf (hi.fields f hf))) hj.fields hfirst h
    exact ⟨congrArg Json.obj hfields, hend⟩
  | hnull => exact unique_of_scalar hread (by trivial) hi
  | hbool b => exact unique_of_scalar hread (by trivial) hi
  | hnum n => exact unique_of_scalar hread (by trivial) hi
  | hneg n => exact unique_of_scalar hread (by trivial) hi
  | hstr s => exact unique_of_scalar hread (by trivial) hi

theorem compact_inj (hread : Readable text) {i j : Json} (hi : Fitting i) (hj : Fitting j)
    (h : compact text i = compact text j) : i = j := by
  have hends : Ends [] := fun b hb => by cases hb
  refine (compact_unique hread hi hj hends hends ?_).1
  rw [h]

end Unique

/-! ## The printer -/

/-- What ends a value is no digit. -/
theorem noDigit_of_ends {cs : List Char} {rest : Bytes}
    (h : Ends (cs.flatMap String.utf8EncodeChar ++ rest)) : NoDigit cs := by
  intro c hc
  obtain ⟨cs, rfl⟩ := List.head?_eq_some_iff.mp hc
  by_contra hdigit
  obtain ⟨hlow, hhigh⟩ := isDigit_iff.mp (Bool.not_eq_false _ ▸ hdigit)
  have hbyte : String.utf8EncodeChar c = [c.val.toUInt8] :=
    String.utf8EncodeChar_eq_singleton (utf8Size_of_lt (by omega))
  have hvalue : c.val.toUInt8.toNat = c.toNat := by
    rw [UInt32.toNat_toUInt8]
    exact Nat.mod_eq_of_lt (by show c.toNat < 256; omega)
  rw [List.flatMap_cons, hbyte] at h
  rcases h c.val.toUInt8 rfl with heq | heq | heq | heq <;>
    (rw [heq] at hvalue; simp at hvalue; omega)

/-- A scalar begins with no bracket. -/
theorem print_scalar {j : Json} (h : j.IsScalar) :
    ∃ c cs, print j = c :: cs ∧ c ∉ ['[', ']', '{', '\x7d'] := by
  cases j with
  | null => exact ⟨'n', _, by rw [print]; rfl, by decide⟩
  | bool b => cases b <;> exact ⟨_, _, by rw [print]; rfl, by decide⟩
  | num n =>
    obtain ⟨c, cs, hdigits, hdigit⟩ := exists_digit_cons n
    refine ⟨c, cs, by rw [print, hdigits], fun hmem => ?_⟩
    simp only [List.mem_cons, List.not_mem_nil, or_false] at hmem
    rcases hmem with rfl | rfl | rfl | rfl <;> exact absurd hdigit (by decide)
  | neg n => exact ⟨'-', _, by rw [print], by decide⟩
  | str s => exact ⟨'"', _, by rw [print]; rfl, by decide⟩
  | arr | obj => exact h.elim

/-- A printed scalar goes on in no other one. -/
theorem print_append_scalar {i j : Json} {more : List Char} (hiscalar : i.IsScalar)
    (hjscalar : j.IsScalar) (hi : i.Fits 0) (hj : j.Fits 0) (hmore : NoDigit more)
    (h : print j = print i ++ more) : i = j ∧ more = [] := by
  have hread : parseScalar (print j ++ []) = some (j, []) :=
    parseScalar_print hjscalar hj (by simp [NoDigit])
  rw [List.append_nil, h, parseScalar_print hiscalar hi hmore] at hread
  exact Prod.mk.inj (Option.some.inj hread)

/-- The printer's scalars can be told apart. -/
theorem readable_print : Readable fun j => j.print.flatMap String.utf8EncodeChar where
  first := by
    intro j hscalar
    obtain ⟨c, cs, hprint, hc⟩ := print_scalar hscalar
    have hne : String.utf8EncodeChar c ≠ [] := by
      intro hnil
      have hlength := String.length_utf8EncodeChar c
      rw [hnil] at hlength
      exact absurd hlength (Nat.ne_of_lt c.utf8Size_pos)
    obtain ⟨b, bs, hb⟩ := List.exists_cons_of_ne_nil hne
    -- a first byte that is a bracket is the whole character
    have hbracket : ∀ d : Char, String.utf8EncodeChar d = [b] → c = d := by
      intro d hd
      have happend : String.utf8EncodeChar c ++ [] = String.utf8EncodeChar d ++ bs := by
        rw [hd, hb]
        simp
      exact (utf8EncodeChar_append_inj happend).1
    refine ⟨b, bs ++ cs.flatMap String.utf8EncodeChar, ?_, ?_⟩
    · show j.print.flatMap String.utf8EncodeChar = _
      rw [hprint, List.flatMap_cons, hb]
      rfl
    · simp only [List.mem_cons, List.not_mem_nil, or_false, not_or] at hc
      obtain ⟨hopen, hclose, hbrace, hend⟩ := hc
      refine ⟨?_, ?_, ?_, ?_⟩ <;> rintro rfl
      · exact hopen (hbracket '[' (by decide))
      · exact hclose (hbracket ']' (by decide))
      · exact hbrace (hbracket '{' (by decide))
      · exact hend (hbracket '\x7d' (by decide))
  unique := by
    intro i j rest rest' hiscalar hjscalar hi hj hrest hrest' h
    rcases utf8_append_cases h with ⟨more, hprint, rfl⟩ | ⟨more, hprint, rfl⟩
    · obtain ⟨rfl, rfl⟩ :=
        print_append_scalar hiscalar hjscalar hi hj (noDigit_of_ends hrest) hprint
      exact ⟨rfl, rfl⟩
    · obtain ⟨rfl, rfl⟩ :=
        print_append_scalar hjscalar hiscalar hj hi (noDigit_of_ends hrest') hprint
      exact ⟨rfl, rfl⟩

/-! ## Orders -/

theorem reorderedItems_iff {items items' : List Json} :
    ReorderedItems items items' ↔ List.Forall₂ Reordered items items' := by
  induction items generalizing items' with
  | nil => cases items' <;> simp [ReorderedItems]
  | cons item items ih => cases items' <;> simp [ReorderedItems, ih]

theorem reorderedFields_iff {fields fields' : List (String × Json)} :
    ReorderedFields fields fields' ↔
      List.Forall₂ (fun f g => f.1 = g.1 ∧ Reordered f.2 g.2) fields fields' := by
  induction fields generalizing fields' with
  | nil => cases fields' <;> simp [ReorderedFields]
  | cons f fields ih => cases fields' <;> simp [ReorderedFields, ih, and_assoc]

theorem forall₂_of_map_eq {α β : Type} {g : α → β} {R : α → α → Prop} {xs ys : List α}
    (hR : ∀ x ∈ xs, ∀ y, g x = g y → R x y) (h : xs.map g = ys.map g) : List.Forall₂ R xs ys := by
  induction xs generalizing ys with
  | nil =>
    obtain rfl := List.map_eq_nil_iff.mp h.symm
    exact .nil
  | cons x xs ih =>
    obtain ⟨y, ys, rfl, hy, hys⟩ := List.map_eq_cons_iff.mp h.symm
    obtain ⟨hx, hxs⟩ := List.forall_mem_cons.mp hR
    exact .cons (hx y hy.symm) (ih hxs hys.symm)

/-- Documents of one canonical form differ in the order of keys only. -/
theorem reordered_of_canonical_eq {i j : Json} (h : canonical i = canonical j) : Reordered i j := by
  induction i using Json.induct generalizing j with
  | harr items ih =>
    cases j with
    | arr items' =>
      rw [canonical_arr, canonical_arr, Json.arr.injEq] at h
      rw [Reordered, reorderedItems_iff]
      exact forall₂_of_map_eq (fun item hitem item' => ih item hitem) h
    | _ => simp [canonical] at h
  | hobj fields ih =>
    cases j with
    | obj fields' =>
      rw [canonical_obj, canonical_obj, Json.obj.injEq] at h
      -- the fields of one are those of the other in some order, up to their canonical forms
      have hperm : (fields.map fun f => (f.1, canonical f.2)).Perm
          (fields'.map fun f => (f.1, canonical f.2)) :=
        ((sortByKey_perm fields).symm.map _).trans ((List.Perm.of_eq h).trans
          ((sortByKey_perm fields').map _))
      obtain ⟨same, hsame, hperm⟩ := (congrFun₂ (List.eq_map_comp_perm _) _ _).mpr hperm
      rw [Reordered]
      refine ⟨same, reorderedFields_iff.mpr (forall₂_of_map_eq (fun f hf g hg => ?_) hsame), hperm⟩
      obtain ⟨hkey, hvalue⟩ := Prod.mk.inj hg
      exact ⟨hkey, ih f hf hvalue⟩
    | _ => simp [canonical] at h
  | hnull => cases j <;> simp_all [canonical, Reordered]
  | hbool b => cases j <;> simp_all [canonical, Reordered]
  | hnum n => cases j <;> simp_all [canonical, Reordered]
  | hneg n => cases j <;> simp_all [canonical, Reordered]
  | hstr s => cases j <;> simp_all [canonical, Reordered]

theorem canonical_eq_iff_reordered {i j : Json} (hi : i.Distinct) :
    canonical i = canonical j ↔ Reordered i j :=
  ⟨reordered_of_canonical_eq, canonical_eq_of_reordered hi⟩

/-! ## Writers

A writer appends to an output. It writes the entries of an array or an object in a loop, which puts
the commas. -/

section Writers

variable (loop : List (Bytes → Bytes) → Bytes → Bytes) (text : Json → Bytes) (key : String → Bytes)

mutual

/-- A writer with a loop, that sorts the entries of objects by their names. -/
def writeTo : Json → Bytes → Bytes
  | .arr values, output => loop (itemWriters values) (output ++ [0x5b]) ++ [0x5d]
  | .obj values, output =>
    loop ((sortByKey (fieldWriters values)).map fun entry output =>
      entry.2 (output ++ key entry.1 ++ [0x3a])) (output ++ [0x7b]) ++ [0x7d]
  | .null, output => output ++ text .null
  | .bool b, output => output ++ text (.bool b)
  | .num n, output => output ++ text (.num n)
  | .neg n, output => output ++ text (.neg n)
  | .str s, output => output ++ text (.str s)

def itemWriters : List Json → List (Bytes → Bytes)
  | [] => []
  | value :: values => writeTo value :: itemWriters values

def fieldWriters : List (String × Json) → List (String × (Bytes → Bytes))
  | [] => []
  | (name, value) :: values => (name, writeTo value) :: fieldWriters values

end

variable {loop text key}

theorem itemWriters_eq (values : List Json) :
    itemWriters loop text key values = values.map (writeTo loop text key) := by
  induction values with
  | nil => rfl
  | cons value values ih => rw [itemWriters, ih, List.map_cons]

theorem fieldWriters_eq (values : List (String × Json)) :
    fieldWriters loop text key values = values.map fun f => (f.1, writeTo loop text key f.2) := by
  induction values with
  | nil => rfl
  | cons value values ih => rw [fieldWriters, ih, List.map_cons]

/-- A writer whose loop puts commas between the entries appends the compact text of the canonical
document. -/
theorem writeTo_eq {scalar : Json → Bytes} (hscalar : ∀ j : Json, j.IsScalar → scalar j = text j)
    (hkey : ∀ s, key s = text (.str s))
    (hloop : ∀ (pieces : List Bytes) (output : Bytes),
      loop (pieces.map fun piece output => output ++ piece) output = output ++ joinComma pieces)
    (j : Json) (output : Bytes) :
    writeTo loop scalar key j output = output ++ compact text j.canonical := by
  induction j using Json.induct generalizing output with
  | harr items ih =>
    have hwriters : items.map (writeTo loop scalar key) =
        (items.map fun item => compact text item.canonical).map fun piece output => output ++ piece := by
      rw [List.map_map]
      exact List.map_congr_left fun item hitem => funext (ih item hitem)
    rw [writeTo, itemWriters_eq, hwriters, hloop, canonical_arr, compact_arr, List.map_map]
    simp [Function.comp_def]
  | hobj fields ih =>
    have hwriters : ((sortByKey (fieldWriters loop scalar key fields)).map
        fun entry output => entry.2 (output ++ key entry.1 ++ [0x3a])) =
        ((sortByKey fields).map fun f => compactField text (f.1, f.2.canonical)).map
          fun piece output => output ++ piece := by
      rw [fieldWriters_eq, sortByKey_map, List.map_map, List.map_map]
      refine List.map_congr_left fun f hf => funext fun output => ?_
      have hvalue := ih f ((sortByKey_perm fields).mem_iff.mp hf)
      simp [hvalue, hkey, compactField]
    rw [writeTo, hwriters, hloop, canonical_obj, compact_obj, List.map_map]
    simp [Function.comp_def]
  | hnull => rw [writeTo, hscalar _ (by trivial), canonical, compact]
  | hbool b => rw [writeTo, hscalar _ (by trivial), canonical, compact]
  | hnum n => rw [writeTo, hscalar _ (by trivial), canonical, compact]
  | hneg n => rw [writeTo, hscalar _ (by trivial), canonical, compact]
  | hstr s => rw [writeTo, hscalar _ (by trivial), canonical, compact]

end Writers

end Json

end Lib
