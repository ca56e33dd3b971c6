import Mathlib.Data.Set.Finite.Basic
import Mathlib.Data.Fintype.Order
import Mathlib.Logic.Relation
import Mathlib.Order.RelIso.Set
import Mathlib.Order.WellFounded

/-!
# Cycles of a relation

Where every element of a finite set has a successor in the set, every element leads into a cycle
(`exists_cycle`). In a relation with one successor at most, the elements that a cycle leads to are the
cycle itself (`OnCycle.back`).
-/

namespace Lib

open Relation

variable {α : Type*} {R : α → α → Prop}

/-- An element that leads back to itself. -/
def OnCycle (R : α → α → Prop) (a : α) : Prop := TransGen R a a

def LeadsToCycle (R : α → α → Prop) (a : α) : Prop := ∃ c, TransGen R a c ∧ OnCycle R c

theorem OnCycle.leadsToCycle {a : α} (h : OnCycle R a) : LeadsToCycle R a := ⟨a, h, h⟩

theorem LeadsToCycle.of_step {a b : α} (hstep : R a b) (h : LeadsToCycle R b) : LeadsToCycle R a := by
  obtain ⟨c, hc, hcycle⟩ := h
  exact ⟨c, .head hstep hc, hcycle⟩

/-- The end of a path leads nowhere else than its start, if there is one successor at most. -/
theorem LeadsToCycle.step {a b : α} (hR : ∀ {a b b'}, R a b → R a b' → b = b')
    (h : LeadsToCycle R a) (hstep : R a b) : LeadsToCycle R b := by
  obtain ⟨c, hc, hcycle⟩ := h
  obtain ⟨b', hb', hrest⟩ := TransGen.head'_iff.mp hc
  obtain rfl := hR hstep hb'
  rcases reflTransGen_iff_eq_or_transGen.mp hrest with rfl | hrest
  · exact hcycle.leadsToCycle
  · exact ⟨c, hrest, hcycle⟩

/-- What a cycle leads to leads back. -/
theorem OnCycle.back {a b : α} (hR : ∀ {a b b'}, R a b → R a b' → b = b') (h : OnCycle R a)
    (hab : TransGen R a b) : TransGen R b a := by
  induction hab with
  | single hstep =>
    obtain ⟨b', hb', hrest⟩ := TransGen.head'_iff.mp h
    obtain rfl := hR hstep hb'
    rcases reflTransGen_iff_eq_or_transGen.mp hrest with rfl | hrest
    · exact h
    · exact hrest
  | tail _ hstep ih =>
    obtain ⟨b', hb', hrest⟩ := TransGen.head'_iff.mp ih
    obtain rfl := hR hstep hb'
    rcases reflTransGen_iff_eq_or_transGen.mp hrest with rfl | hrest
    · exact h
    · exact hrest

/-- In a finite set without an end, every element leads into a cycle. -/
theorem exists_cycle {S : Set α} (hfinite : S.Finite) (hnext : ∀ a ∈ S, ∃ b ∈ S, R a b) {a : α}
    (ha : a ∈ S) : LeadsToCycle R a := by
  by_contra hnone
  -- without cycles, what the element leads to has a last one
  let Reached : Type _ := {b // b ∈ S ∧ ReflTransGen R a b}
  have : Finite Reached := (hfinite.subset fun b hb => hb.1).to_subtype
  let Later : Reached → Reached → Prop := fun b c => TransGen R c.1 b.1
  have hirrefl : Std.Irrefl Later := ⟨fun b hb => hnone ?_⟩
  · have htrans : IsTrans Reached Later := ⟨fun b c d hbc hcd => TransGen.trans hcd hbc⟩
    have hwf : WellFounded Later := Finite.wellFounded_of_trans_of_irrefl Later
    obtain ⟨last, -, hlast⟩ := hwf.has_min Set.univ ⟨⟨a, ha, .refl⟩, trivial⟩
    obtain ⟨next, hnextmem, hstep⟩ := hnext last.1 last.2.1
    exact hlast ⟨next, hnextmem, last.2.2.tail hstep⟩ trivial (.single hstep)
  · exact ⟨b.1, TransGen.trans_right b.2.2 hb, hb⟩

end Lib
