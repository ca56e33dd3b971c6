import Mathlib.Data.List.Rotate
import Mathlib.Logic.Relation
import Mathlib.Tactic.Common

/-!
# Lists that go around

A list goes around in a relation (`Around r l`) if each of its items is related to the one after it,
and the last one to the first. Where an item has one successor, a list that goes around is determined
up to rotation by any one of its items (`Around.isRotated`).
-/

namespace Lib

/-- The items of the list, each followed by what it is related to, and the last one by the first. -/
structure Around {α : Type*} (r : α → α → Prop) (l : List α) : Prop where
  ne_nil : l ≠ []
  nodup : l.Nodup
  next : ∀ (i : Nat) a, l[i]? = some a → ∃ b, l[(i + 1) % l.length]? = some b ∧ r a b

namespace Around

variable {α : Type*} {r : α → α → Prop} {l l' : List α}

theorem rotate (h : Around r l) (n : Nat) : Around r (l.rotate n) where
  ne_nil hnil := h.ne_nil (List.rotate_eq_nil_iff.mp hnil)
  nodup := List.nodup_rotate.mpr h.nodup
  next i a ha := by
    obtain ⟨hi, -⟩ := List.getElem?_eq_some_iff.mp ha
    rw [List.length_rotate] at hi ⊢
    rw [List.getElem?_rotate hi] at ha
    obtain ⟨b, hb, hab⟩ := h.next _ a ha
    refine ⟨b, ?_, hab⟩
    rw [List.getElem?_rotate (Nat.mod_lt _ (Nat.zero_lt_of_lt hi)), ← hb, Nat.mod_add_mod,
      Nat.mod_add_mod]
    congr 2
    omega

theorem mono {r' : α → α → Prop} (h : Around r l) (hr : ∀ a b, r a b → r' a b) : Around r' l where
  ne_nil := h.ne_nil
  nodup := h.nodup
  next i a ha := (h.next i a ha).imp fun b ⟨hb, hab⟩ => ⟨hb, hr a b hab⟩

/-- The first item leads to every other. -/
theorem reaches (h : Around r l) {first a : α} {i : Nat} (hfirst : l[0]? = some first)
    (ha : l[i]? = some a) : Relation.ReflTransGen r first a := by
  induction i generalizing a with
  | zero =>
    rw [hfirst] at ha
    exact Option.some.inj ha ▸ .refl
  | succ i ih =>
    obtain ⟨hi, -⟩ := List.getElem?_eq_some_iff.mp ha
    obtain ⟨b, hb⟩ : ∃ b, l[i]? = some b := ⟨_, List.getElem?_eq_getElem (by omega)⟩
    obtain ⟨a', ha', hba⟩ := h.next i b hb
    rw [Nat.mod_eq_of_lt hi, ha] at ha'
    exact (ih hb).tail (Option.some.inj ha' ▸ hba)

/-- And back to itself. -/
theorem back {first : α} {rest : List α} (h : Around r (first :: rest)) :
    Relation.TransGen r first first := by
  obtain ⟨last, hlast⟩ : ∃ last, (first :: rest)[rest.length]? = some last :=
    ⟨_, List.getElem?_eq_getElem (by simp)⟩
  obtain ⟨next, hnext, hstep⟩ := h.next _ last hlast
  rw [List.length_cons, Nat.mod_self] at hnext
  exact Relation.TransGen.tail' (h.reaches rfl hlast) (Option.some.inj hnext ▸ hstep)

/-- Two lists with the same first item agree as far as both go. -/
theorem getElem?_eq (hr : ∀ a b b', r a b → r a b' → b = b') (h : Around r l) (h' : Around r l')
    (hfirst : l[0]? = l'[0]?) {i : Nat} (hi : i < l.length) (hi' : i < l'.length) :
    l[i]? = l'[i]? := by
  induction i with
  | zero => exact hfirst
  | succ i ih =>
    have hsame := ih (by omega) (by omega)
    obtain ⟨a, ha⟩ : ∃ a, l[i]? = some a := ⟨_, List.getElem?_eq_getElem (by omega)⟩
    obtain ⟨b, hb, hab⟩ := h.next i a ha
    obtain ⟨b', hb', hab'⟩ := h'.next i a (hsame ▸ ha)
    rw [Nat.mod_eq_of_lt hi] at hb
    rw [Nat.mod_eq_of_lt hi'] at hb'
    rw [hb, hb', hr a b b' hab hab']

/-- The shorter of two lists with the same first item is not shorter. -/
theorem length_le (hr : ∀ a b b', r a b → r a b' → b = b') (h : Around r l) (h' : Around r l')
    (hfirst : l[0]? = l'[0]?) : l'.length ≤ l.length := by
  by_contra hlt
  have hpos : 0 < l.length := List.length_pos_iff.mpr h.ne_nil
  -- after the last item of the one, the other has its first item again
  obtain ⟨a, ha⟩ : ∃ a, l[l.length - 1]? = some a := ⟨_, List.getElem?_eq_getElem (by omega)⟩
  have hsame := getElem?_eq hr h h' hfirst (i := l.length - 1) (by omega) (by omega)
  obtain ⟨b, hb, hab⟩ := h.next _ a ha
  obtain ⟨b', hb', hab'⟩ := h'.next _ a (hsame ▸ ha)
  rw [Nat.sub_add_cancel hpos, Nat.mod_self, hfirst] at hb
  rw [Nat.sub_add_cancel hpos, Nat.mod_eq_of_lt (by omega), ← hr a b b' hab hab', ← hb] at hb'
  have := (List.getElem?_inj (by omega) h'.nodup).mp hb'
  omega

/-- A list that goes around is one of the rotations of any other that meets it. -/
theorem isRotated (hr : ∀ a b b', r a b → r a b' → b = b') (h : Around r l) (h' : Around r l')
    {a : α} (ha : a ∈ l) (ha' : a ∈ l') : List.IsRotated l l' := by
  obtain ⟨i, hi⟩ := List.mem_iff_getElem?.mp ha
  obtain ⟨j, hj⟩ := List.mem_iff_getElem?.mp ha'
  have hrotate : ∀ {l : List α} {i : Nat}, l[i]? = some a → (l.rotate i)[0]? = some a := by
    intro l i hi
    obtain ⟨hlt, -⟩ := List.getElem?_eq_some_iff.mp hi
    rw [List.getElem?_rotate (by omega), Nat.zero_add, Nat.mod_eq_of_lt hlt, hi]
  have hfirst : (l.rotate i)[0]? = (l'.rotate j)[0]? := (hrotate hi).trans (hrotate hj).symm
  have heq : l.rotate i = l'.rotate j := by
    have hlength : (l.rotate i).length = (l'.rotate j).length :=
      Nat.le_antisymm (length_le hr (h'.rotate j) (h.rotate i) hfirst.symm)
        (length_le hr (h.rotate i) (h'.rotate j) hfirst)
    refine List.ext_getElem? fun n => ?_
    rcases Nat.lt_or_ge n (l.rotate i).length with hn | hn
    · exact getElem?_eq hr (h.rotate i) (h'.rotate j) hfirst hn (hlength ▸ hn)
    · rw [List.getElem?_eq_none hn, List.getElem?_eq_none (hlength ▸ hn)]
  exact (List.IsRotated.forall l i).symm.trans (heq ▸ List.IsRotated.forall l' j)

end Around

end Lib
