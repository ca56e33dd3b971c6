import Mathlib

/-!
# Self-delimiting encodings

An encoding `f : α → List σ` is self-delimiting on `P` if the value and what follows it can be
told from any list that starts with an encoded value: `f a ++ x = f b ++ y` only if `a = b` and
`x = y`. Self-delimiting encodings compose: in sequence, under an injective symbol, for optional
values with a tag, and for lists of items that are followed by a symbol no item starts with.
-/

namespace Lib

variable {α β σ : Type}

/-- The values of `P` are told from the front of a list. -/
def Delimited (P : α → Prop) (f : α → List σ) : Prop :=
  ∀ ⦃a b⦄, P a → P b → ∀ ⦃x y⦄, f a ++ x = f b ++ y → a = b ∧ x = y

namespace Delimited

/-- One symbol that determines the value. -/
theorem symbol {P : α → Prop} {g : α → σ} (hg : ∀ a b, P a → P b → g a = g b → a = b) :
    Delimited P fun a => [g a] := by
  intro a b ha hb x y h
  obtain ⟨hab, hxy⟩ := List.cons.inj h
  exact ⟨hg a b ha hb hab, hxy⟩

/-- An encoding of the whole value from one of each part. -/
theorem parts {γ : Type} {P : γ → Prop} {Q : α → Prop} {R : β → Prop} {f : α → List σ}
    {g : β → List σ} {h : γ → List σ} (fst : γ → α) (snd : γ → β) (hf : Delimited Q f)
    (hg : Delimited R g) (heq : ∀ c, h c = f (fst c) ++ g (snd c))
    (hQ : ∀ c, P c → Q (fst c)) (hR : ∀ c, P c → R (snd c))
    (hext : ∀ c d, P c → P d → fst c = fst d → snd c = snd d → c = d) : Delimited P h := by
  intro c d hc hd x y hxy
  rw [heq, heq, List.append_assoc, List.append_assoc] at hxy
  obtain ⟨hfst, hrest⟩ := hf (hQ c hc) (hQ d hd) hxy
  obtain ⟨hsnd, hxy⟩ := hg (hR c hc) (hR d hd) hrest
  exact ⟨hext c d hc hd hfst hsnd, hxy⟩

/-- An optional value: a tag, and the value after the tag of a value. -/
theorem option {P : α → Prop} {f : α → List σ} {none some : σ} (hf : Delimited P f)
    (hne : none ≠ some) {g : Option α → List σ} (hnone : g .none = [none])
    (hsome : ∀ a, g (.some a) = some :: f a) : Delimited (fun o => ∀ a ∈ o, P a) g := by
  intro o o' ho ho' x y h
  cases o with
  | none =>
    cases o' with
    | none =>
      rw [hnone] at h
      exact ⟨rfl, (List.cons.inj h).2⟩
    | some b =>
      rw [hnone, hsome] at h
      exact absurd (List.cons.inj h).1 hne
  | some a =>
    cases o' with
    | none =>
      rw [hnone, hsome] at h
      exact absurd (List.cons.inj h).1.symm hne
    | some b =>
      rw [hsome, hsome] at h
      obtain ⟨rfl, hxy⟩ := hf (ho a rfl) (ho' b rfl) (List.cons.inj h).2
      exact ⟨rfl, hxy⟩

/-- Items up to an end symbol, each of which starts with a symbol of its own. -/
theorem list {P : α → Prop} {f : α → List σ} {tag last : σ} (hf : Delimited P f)
    (hne : tag ≠ last) (htag : ∀ a, (f a).head? = .some tag) :
    Delimited (fun l : List α => ∀ a ∈ l, P a) fun l => l.flatMap f ++ [last] := by
  have hstart : ∀ a x y, f a ++ x ≠ last :: y := by
    intro a x y h
    have ha := htag a
    cases hfa : f a with
    | nil => rw [hfa] at ha; cases ha
    | cons s rest =>
      rw [hfa] at ha h
      cases ha
      exact hne (List.cons.inj h).1
  intro l l' hl hl' x y h
  dsimp only at h
  rw [List.append_assoc, List.append_assoc] at h
  induction l generalizing l' with
  | nil =>
    cases l' with
    | nil => exact ⟨rfl, (List.cons.inj h).2⟩
    | cons b l' =>
      rw [List.flatMap_cons, List.append_assoc] at h
      exact absurd h.symm (hstart b _ _)
  | cons a l ih =>
    cases l' with
    | nil =>
      rw [List.flatMap_cons, List.append_assoc] at h
      exact absurd h (hstart a _ _)
    | cons b l' =>
      simp only [List.flatMap_cons, List.append_assoc] at h
      obtain ⟨rfl, hrest⟩ := hf (hl a (by simp)) (hl' b (by simp)) h
      obtain ⟨rfl, hxy⟩ := ih (fun c hc => hl c (by simp [hc])) (fun c hc => hl' c (by simp [hc]))
        hrest
      exact ⟨rfl, hxy⟩

/-- A whole list is the encoding of at most one value. -/
theorem inj {P : α → Prop} {f : α → List σ} (hf : Delimited P f) {a b : α} (ha : P a) (hb : P b)
    (h : f a = f b) : a = b :=
  (hf ha hb (congrArg (· ++ []) h)).1

end Delimited

end Lib
