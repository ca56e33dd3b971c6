import Mathlib.Data.List.Lex
import Mathlib.Data.List.Sort
import Mathlib.Data.Prod.Lex
import Mathlib.Data.String.Basic

/-!
# Sorting by a key

`sortBy key` is the stable sort. Where different items have different keys, the result depends on
the items only, not on the order in which they came (`sortBy_eq_of_perm`).
-/

namespace Lib

variable {α β κ : Type*} [LinearOrder κ]

/-- Items compare by their keys. -/
def KeyOrder (key : α → κ) (a b : α) : Prop := key a ≤ key b

instance (key : α → κ) : DecidableRel (KeyOrder key) :=
  fun a b => inferInstanceAs (Decidable (key a ≤ key b))

instance (key : α → κ) : Std.Total (KeyOrder key) := ⟨fun a b => le_total (key a) (key b)⟩

instance (key : α → κ) : IsTrans α (KeyOrder key) := ⟨fun _ _ _ => le_trans⟩

/-- `sort_by_key`. -/
def sortBy (key : α → κ) (items : List α) : List α := items.insertionSort (KeyOrder key)

theorem sortBy_perm (key : α → κ) (items : List α) : (sortBy key items).Perm items :=
  List.perm_insertionSort _ items

theorem pairwise_sortBy (key : α → κ) (items : List α) :
    (sortBy key items).Pairwise (KeyOrder key) :=
  List.pairwise_insertionSort _ items

@[simp] theorem mem_sortBy {key : α → κ} {items : List α} {a : α} :
    a ∈ sortBy key items ↔ a ∈ items := (sortBy_perm key items).mem_iff

theorem sortBy_eq_nil {key : α → κ} {items : List α} : sortBy key items = [] ↔ items = [] := by
  rw [← List.perm_nil, ← List.perm_nil]
  exact ⟨(sortBy_perm key items).symm.trans, (sortBy_perm key items).trans⟩

theorem sortBy_map (f : α → β) (key : β → κ) (items : List α) :
    sortBy key (items.map f) = (sortBy (fun a => key (f a)) items).map f := by
  rw [sortBy, sortBy, List.map_insertionSort (KeyOrder fun a => key (f a)) (KeyOrder key)]
  exact fun _ _ _ _ => Iff.rfl

/-- Items with different keys are sorted into one list, in whatever order they come. -/
theorem sortBy_eq_of_perm {key : α → κ} {items items' : List α} (h : items.Perm items')
    (hinj : ∀ a ∈ items, ∀ b ∈ items, key a = key b → a = b) :
    sortBy key items = sortBy key items' := by
  have hperm : (sortBy key items).Perm (sortBy key items') :=
    ((sortBy_perm key items).trans h).trans (sortBy_perm key items').symm
  refine hperm.eq_of_pairwise ?_ (pairwise_sortBy key items) (pairwise_sortBy key items')
  intro a b ha hb hab hba
  exact hinj a (mem_sortBy.mp ha) b (h.mem_iff.mpr (mem_sortBy.mp hb)) (le_antisymm hab hba)

theorem sortBy_congr {key key' : α → κ} {items : List α} (h : ∀ a ∈ items, key a = key' a) :
    sortBy key items = sortBy key' items := by
  have hmap := List.map_insertionSort (KeyOrder key) (KeyOrder key') id items fun a ha b hb => by
    simp only [KeyOrder, id_eq, h a ha, h b hb]
  simpa only [List.map_id, sortBy] using hmap

end Lib
