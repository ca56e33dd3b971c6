import Mathlib.Data.Finset.Card
import Mathlib.Data.Finset.Image
import Mathlib.Logic.Function.Basic

/-!
# Matchings by augmenting paths

Items are given places one after the other. A matching maps each place to the item that holds it;
an item for which no suitable place is free takes a place whose item can move elsewhere.

* `Augments`: one such search, as a relation. `visited` are the places that were tried before.
* `Fills`: the searches for a list of items, which end with the first that fails.

A search that succeeds keeps the matching and adds the item (`Augments.placed`). Places that were
tried in vain are a closed set: the items that hold them need them (`Closed.no_place`). So where a
search fails, no assignment of different places to all items exists (`Augments.stuck_no_assignment`),
and where it succeeds, it finds the first place that an assignment can give (`Augments.first`).
-/

namespace Lib.Matching

open Function

variable {I J : Type*} [DecidableEq J]

inductive Outcome (I J : Type*) where
  | placed (matching : J → Option I)
  | stuck (visited : Finset J)

/-- The search of a place for an item among a list of places. -/
inductive Augments (edge : I → J → Prop) (places : List J) :
    I → List J → (J → Option I) → Finset J → Outcome I J → Prop where
  | nil {i : I} {m : J → Option I} {v : Finset J} : Augments edge places i [] m v (.stuck v)
  | skip {i : I} {j : J} {js : List J} {m : J → Option I} {v : Finset J} {r : Outcome I J}
      (h : ¬ edge i j ∨ j ∈ v) (hrest : Augments edge places i js m v r) :
      Augments edge places i (j :: js) m v r
  | free {i : I} {j : J} {js : List J} {m : J → Option I} {v : Finset J} (hedge : edge i j)
      (hnew : j ∉ v) (hfree : m j = none) :
      Augments edge places i (j :: js) m v (.placed (update m j (some i)))
  | move {i p : I} {j : J} {js : List J} {m m' : J → Option I} {v : Finset J} (hedge : edge i j)
      (hnew : j ∉ v) (hheld : m j = some p)
      (hmove : Augments edge places p places m (insert j v) (.placed m')) :
      Augments edge places i (j :: js) m v (.placed (update m' j (some i)))
  | stay {i p : I} {j : J} {js : List J} {m : J → Option I} {v v' : Finset J} {r : Outcome I J}
      (hedge : edge i j) (hnew : j ∉ v) (hheld : m j = some p)
      (hstay : Augments edge places p places m (insert j v) (.stuck v'))
      (hrest : Augments edge places i js m v' r) : Augments edge places i (j :: js) m v r

/-- Every item has a suitable place, and at most one. -/
structure IsMatching (edge : I → J → Prop) (places : List J) (m : J → Option I) : Prop where
  edges : ∀ j i, m j = some i → j ∈ places ∧ edge i j
  inj : ∀ j j' i, m j = some i → m j' = some i → j = j'

/-- The item holds a place outside the set. -/
def HeldOutside (m : J → Option I) (v : Finset J) (i : I) : Prop := ∃ j, j ∉ v ∧ m j = some i

/-- The item holds a place. -/
def Held (m : J → Option I) (i : I) : Prop := ∃ j, m j = some i

variable {edge : I → J → Prop} {places : List J} {i : I} {js : List J} {m m' : J → Option I}
  {v v' : Finset J}

omit [DecidableEq J] in
theorem isMatching_empty : IsMatching edge places fun _ => none :=
  ⟨fun _ _ h => (nomatch h), fun _ _ _ h => (nomatch h)⟩

omit [DecidableEq J] in
theorem HeldOutside.mono {x : I} (h : HeldOutside m v' x) (hsub : v ⊆ v') : HeldOutside m v x := by
  obtain ⟨j, hj, hm⟩ := h
  exact ⟨j, fun hmem => hj (hsub hmem), hm⟩

/-- What a search that succeeded leaves: places in the set are as before, and outside it the item
has been added. -/
structure Placed (edge : I → J → Prop) (places : List J) (i : I) (m m' : J → Option I)
    (v : Finset J) : Prop where
  agrees : ∀ j ∈ v, m' j = m j
  edges : ∀ j x, m' j = some x → j ∈ places ∧ edge x j
  inj : ∀ j j' x, j ∉ v → j' ∉ v → m' j = some x → m' j' = some x → j = j'
  held : ∀ x, HeldOutside m' v x ↔ HeldOutside m v x ∨ x = i

/-- A search that succeeded with more places tried succeeded. -/
theorem Placed.mono (h : Placed edge places i m m' v') (hm : IsMatching edge places m)
    (hi : ¬ HeldOutside m v i) (hsub : v ⊆ v') : Placed edge places i m m' v := by
  -- a place outside `v` is outside `v'`, or it is as before
  have hfrom : ∀ {j x}, j ∉ v → m' j = some x → (j ∉ v' ∧ m' j = some x) ∨ (j ∈ v' ∧ m j = some x) := by
    intro j x hj hx
    by_cases hmem : j ∈ v'
    · exact .inr ⟨hmem, h.agrees j hmem ▸ hx⟩
    · exact .inl ⟨hmem, hx⟩
  have hapart : ∀ {j j' x}, j ∉ v' → m' j = some x → j' ∈ v' → j' ∉ v → m j' = some x → False := by
    intro j j' x hj hx hj' hv' hx'
    rcases (h.held x).mp ⟨j, hj, hx⟩ with ⟨k, hk, hkx⟩ | rfl
    · exact hk (hm.inj k j' x hkx hx' ▸ hj')
    · exact hi ⟨j', hv', hx'⟩
  refine ⟨fun j hj => h.agrees j (hsub hj), h.edges, fun j j' x hj hj' hx hx' => ?_, fun x => ?_⟩
  · rcases hfrom hj hx with ⟨hv, hx⟩ | ⟨hv, hx⟩ <;> rcases hfrom hj' hx' with ⟨hv', hx'⟩ | ⟨hv', hx'⟩
    · exact h.inj j j' x hv hv' hx hx'
    · exact (hapart hv hx hv' hj' hx').elim
    · exact (hapart hv' hx' hv hj hx).elim
    · exact hm.inj j j' x hx hx'
  · constructor
    · rintro ⟨j, hj, hx⟩
      rcases hfrom hj hx with ⟨hv, hx⟩ | ⟨-, hx⟩
      · exact ((h.held x).mp ⟨j, hv, hx⟩).imp_left (·.mono hsub)
      · exact .inl ⟨j, hj, hx⟩
    · rintro (⟨j, hj, hx⟩ | rfl)
      · by_cases hmem : j ∈ v'
        · exact ⟨j, hj, (h.agrees j hmem).trans hx⟩
        · exact ((h.held x).mpr (.inl ⟨j, hmem, hx⟩)).mono hsub
      · exact ((h.held x).mpr (.inr rfl)).mono hsub

/-- The item takes a place that was free, or that was left. -/
theorem Placed.take {j : J} {p : I} (h : Placed edge places p m m' (insert j v)) (hj : j ∉ v)
    (hheld : m j = some p) (hi : ¬ HeldOutside m v i) (hplace : j ∈ places ∧ edge i j) :
    Placed edge places i m (update m' j (some i)) v := by
  have hne : i ≠ p := fun heq => hi ⟨j, hj, heq ▸ hheld⟩
  have hfrom : ∀ {k x}, k ≠ j → update m' j (some i) k = some x → m' k = some x := by
    intro k x hk hx
    rwa [update_of_ne hk] at hx
  have houtside : ∀ {k}, k ≠ j → k ∉ v → k ∉ insert j v := by
    intro k hk hv
    simp [hk, hv]
  -- the item is not elsewhere
  have habsent : ∀ {k}, k ≠ j → k ∉ v → m' k ≠ some i := by
    intro k hk hv hx
    rcases (h.held i).mp ⟨k, houtside hk hv, hx⟩ with ⟨l, hl, hli⟩ | heq
    · exact hi ⟨l, fun hmem => hl (Finset.mem_insert_of_mem hmem), hli⟩
    · exact hne heq
  refine ⟨fun k hk => ?_, fun k x hx => ?_, fun k k' x hk hk' hx hx' => ?_, fun x => ?_⟩
  · have hkj : k ≠ j := fun heq => hj (heq ▸ hk)
    rw [update_of_ne hkj]
    exact h.agrees k (Finset.mem_insert_of_mem hk)
  · by_cases hkj : k = j
    · subst hkj
      rw [update_self, Option.some.injEq] at hx
      exact hx ▸ hplace
    · exact h.edges k x (hfrom hkj hx)
  · by_cases hkj : k = j <;> by_cases hkj' : k' = j
    · rw [hkj, hkj']
    · subst hkj
      rw [update_self, Option.some.injEq] at hx
      exact (habsent hkj' hk' (hx ▸ hfrom hkj' hx')).elim
    · subst hkj'
      rw [update_self, Option.some.injEq] at hx'
      exact (habsent hkj hk (hx' ▸ hfrom hkj hx)).elim
    · exact h.inj k k' x (houtside hkj hk) (houtside hkj' hk') (hfrom hkj hx) (hfrom hkj' hx')
  · constructor
    · rintro ⟨k, hk, hx⟩
      by_cases hkj : k = j
      · subst hkj
        rw [update_self, Option.some.injEq] at hx
        exact .inr hx.symm
      · rcases (h.held x).mp ⟨k, houtside hkj hk, hfrom hkj hx⟩ with hold | rfl
        · exact .inl (hold.mono (Finset.subset_insert j v))
        · exact .inl ⟨j, hj, hheld⟩
    · rintro (⟨k, hk, hx⟩ | rfl)
      · -- what held a place still holds one, the item that moved included
        have hstill : HeldOutside m' (insert j v) x := by
          by_cases hkj : k = j
          · subst hkj
            exact (h.held x).mpr (.inr (Option.some.inj (hx.symm.trans hheld)))
          · exact (h.held x).mpr (.inl ⟨k, houtside hkj hk, hx⟩)
        obtain ⟨l, hl, hlx⟩ := hstill
        have hlj : l ≠ j := fun heq => hl (heq ▸ Finset.mem_insert_self j v)
        exact ⟨l, fun hmem => hl (Finset.mem_insert_of_mem hmem), by rwa [update_of_ne hlj]⟩
      · exact ⟨j, hj, update_self ..⟩

/-- The item takes a free place. -/
theorem Placed.takeFree {j : J} (hj : j ∉ v) (hfree : m j = none) (hm : IsMatching edge places m)
    (hi : ¬ HeldOutside m v i) (hplace : j ∈ places ∧ edge i j) :
    Placed edge places i m (update m j (some i)) v := by
  have hfrom : ∀ {k x}, k ≠ j → update m j (some i) k = some x → m k = some x := by
    intro k x hk hx
    rwa [update_of_ne hk] at hx
  refine ⟨fun k hk => ?_, fun k x hx => ?_, fun k k' x hk hk' hx hx' => ?_, fun x => ?_⟩
  · have hkj : k ≠ j := fun heq => hj (heq ▸ hk)
    rw [update_of_ne hkj]
  · by_cases hkj : k = j
    · subst hkj
      rw [update_self, Option.some.injEq] at hx
      exact hx ▸ hplace
    · exact hm.edges k x (hfrom hkj hx)
  · by_cases hkj : k = j <;> by_cases hkj' : k' = j
    · rw [hkj, hkj']
    · subst hkj
      rw [update_self, Option.some.injEq] at hx
      exact (hi ⟨k', hk', hx ▸ hfrom hkj' hx'⟩).elim
    · subst hkj'
      rw [update_self, Option.some.injEq] at hx'
      exact (hi ⟨k, hk, hx' ▸ hfrom hkj hx⟩).elim
    · exact hm.inj k k' x (hfrom hkj hx) (hfrom hkj' hx')
  · constructor
    · rintro ⟨k, hk, hx⟩
      by_cases hkj : k = j
      · subst hkj
        rw [update_self, Option.some.injEq] at hx
        exact .inr hx.symm
      · exact .inl ⟨k, hk, hfrom hkj hx⟩
    · rintro (⟨k, hk, hx⟩ | rfl)
      · have hkj : k ≠ j := by
          rintro rfl
          rw [hfree] at hx
          cases hx
        exact ⟨k, hk, by rwa [update_of_ne hkj]⟩
      · exact ⟨j, hj, update_self ..⟩

/-- A search that fails has tried all suitable places, and those of the items that hold them. -/
theorem Augments.stuck (h : Augments edge places i js m v (.stuck v')) :
    v ⊆ v' ∧ (∀ j ∈ js, edge i j → j ∈ v') ∧
      ∀ j ∈ v', j ∉ v → ∃ p, m j = some p ∧ ∀ k ∈ places, edge p k → k ∈ v' := by
  generalize hr : Outcome.stuck v' = r at h
  induction h generalizing v' with
  | nil =>
    cases hr
    exact ⟨Finset.Subset.refl _, by simp, fun j hj hnew => absurd hj hnew⟩
  | skip h _ ih =>
    obtain ⟨hsub, hedges, hclosed⟩ := ih hr
    refine ⟨hsub, fun k hk hedge => ?_, hclosed⟩
    rcases List.mem_cons.mp hk with rfl | hk
    · exact hsub (h.resolve_left fun hne => hne hedge)
    · exact hedges k hk hedge
  | free | move => cases hr
  | @stay i p j js m v w r hedge hnew hheld _ _ ihstay ihrest =>
    obtain ⟨hsub, hedges, hclosed⟩ := ihstay rfl
    obtain ⟨hsub', hedges', hclosed'⟩ := ihrest hr
    refine ⟨(Finset.subset_insert j v).trans (hsub.trans hsub'), fun k hk hedge => ?_,
      fun k hk hnew' => ?_⟩
    · rcases List.mem_cons.mp hk with rfl | hk
      · exact hsub' (hsub (Finset.mem_insert_self k v))
      · exact hedges' k hk hedge
    · by_cases hw : k ∈ w
      · by_cases hkj : k = j
        · subst hkj
          exact ⟨p, hheld, fun l hl hedge => hsub' (hedges l hl hedge)⟩
        · obtain ⟨q, hq, hall⟩ := hclosed k hw (by simp [hkj, hnew'])
          exact ⟨q, hq, fun l hl hedge => hsub' (hall l hl hedge)⟩
      · exact hclosed' k hk hw

/-- A search that succeeds adds the item. -/
theorem Augments.placed (h : Augments edge places i js m v (.placed m'))
    (hm : IsMatching edge places m) (hi : ¬ HeldOutside m v i) (hjs : js ⊆ places) :
    Placed edge places i m m' v := by
  generalize hr : Outcome.placed m' = r at h
  induction h generalizing m' with
  | nil => cases hr
  | skip _ _ ih => exact ih hm hi (fun k hk => hjs (List.mem_cons_of_mem _ hk)) hr
  | @free i j js m v hedge hnew hfree =>
    obtain rfl := Outcome.placed.inj hr
    exact .takeFree hnew hfree hm hi ⟨hjs List.mem_cons_self, hedge⟩
  | @move i p j js m w v hedge hnew hheld _ ih =>
    obtain rfl := Outcome.placed.inj hr
    have hp : ¬ HeldOutside m (insert j v) p := by
      rintro ⟨k, hk, hkp⟩
      exact hk (hm.inj k j p hkp hheld ▸ Finset.mem_insert_self k v)
    exact (ih hm hp (fun _ h => h) rfl).take hnew hheld hi ⟨hjs List.mem_cons_self, hedge⟩
  | @stay i p j js m v w r hedge hnew hheld hstay _ _ ihrest =>
    have hsub : v ⊆ w := (Finset.subset_insert j v).trans hstay.stuck.1
    exact (ihrest hm (fun hheld => hi (hheld.mono hsub))
      (fun k hk => hjs (List.mem_cons_of_mem _ hk)) hr).mono hm hi hsub

/-! ## From no place tried -/

omit [DecidableEq J] in
theorem heldOutside_empty {x : I} : HeldOutside m ∅ x ↔ Held m x := by simp [HeldOutside, Held]

theorem Augments.isMatching (h : Augments edge places i places m ∅ (.placed m'))
    (hm : IsMatching edge places m) (hi : ¬ Held m i) :
    IsMatching edge places m' ∧ ∀ x, Held m' x ↔ Held m x ∨ x = i := by
  have hplaced := h.placed hm (fun hout => hi (heldOutside_empty.mp hout)) fun _ hj => hj
  refine ⟨⟨hplaced.edges, fun j j' x => hplaced.inj j j' x (by simp) (by simp)⟩, fun x => ?_⟩
  rw [← heldOutside_empty, ← heldOutside_empty, hplaced.held]

/-- An assignment of different suitable places to all items. -/
structure IsAssignment (edge : I → J → Prop) (places : List J) (items : List I) (f : I → J) :
    Prop where
  suits : ∀ x ∈ items, f x ∈ places ∧ edge x (f x)
  inj : ∀ x ∈ items, ∀ y ∈ items, f x = f y → x = y

/-- All places of the set are held, by items that need places of the set. -/
def Closed (edge : I → J → Prop) (places : List J) (m : J → Option I) (v : Finset J) : Prop :=
  ∀ j ∈ v, ∃ p, m j = some p ∧ ∀ k ∈ places, edge p k → k ∈ v

omit [DecidableEq J] in
/-- One more item does not find its place in a closed set. -/
theorem Closed.no_place (hclosed : Closed edge places m v) (hm : IsMatching edge places m)
    (hi : ¬ Held m i) {items : List I} (hitem : i ∈ items) (hheld : ∀ x, Held m x → x ∈ items)
    {f : I → J} (hf : IsAssignment edge places items f) : f i ∉ v := by
  classical
  intro hplace
  let holder := fun j => (m j).getD i
  -- the items that need the places of `v`: one more than there are places
  have hinj : Set.InjOn holder v := by
    intro j hj j' hj' heq
    obtain ⟨p, hp, -⟩ := hclosed j hj
    obtain ⟨q, hq, -⟩ := hclosed j' hj'
    simp only [holder, hp, hq, Option.getD_some] at heq
    exact hm.inj j j' p hp (heq ▸ hq)
  have hfresh : i ∉ v.image holder := by
    intro hmem
    obtain ⟨j, hj, heq⟩ := Finset.mem_image.mp hmem
    obtain ⟨p, hp, -⟩ := hclosed j hj
    simp only [holder, hp, Option.getD_some] at heq
    exact hi ⟨j, heq ▸ hp⟩
  have hneeds : ∀ x ∈ insert i (v.image holder), x ∈ items ∧ f x ∈ v := by
    intro x hx
    rcases Finset.mem_insert.mp hx with rfl | hx
    · exact ⟨hitem, hplace⟩
    · obtain ⟨j, hj, rfl⟩ := Finset.mem_image.mp hx
      obtain ⟨p, hp, hall⟩ := hclosed j hj
      have heq : holder j = p := by simp only [holder, hp, Option.getD_some]
      have hmem : p ∈ items := hheld p ⟨j, hp⟩
      obtain ⟨hplace, hedge⟩ := hf.suits p hmem
      rw [heq]
      exact ⟨hmem, hall _ hplace hedge⟩
  have hcard : (insert i (v.image holder)).card ≤ v.card :=
    Finset.card_le_card_of_injOn f (fun x hx => (hneeds x hx).2) fun x hx y hy heq =>
      hf.inj x (hneeds x hx).1 y (hneeds y hy).1 heq
  rw [Finset.card_insert_of_notMem hfresh, Finset.card_image_of_injOn hinj] at hcard
  omega

/-- Where a search fails, there is no assignment of the item and those that hold places. -/
theorem Augments.stuck_no_assignment (h : Augments edge places i places m ∅ (.stuck v))
    (hm : IsMatching edge places m) (hi : ¬ Held m i) {items : List I} (hitem : i ∈ items)
    (hheld : ∀ x, Held m x → x ∈ items) (f : I → J) : ¬ IsAssignment edge places items f := by
  intro hf
  obtain ⟨-, hedges, hclosed⟩ := h.stuck
  have hv : Closed edge places m v := fun j hj => hclosed j hj (by simp)
  obtain ⟨hplace, hedge⟩ := hf.suits i hitem
  exact hv.no_place hm hi hitem hheld hf (hedges _ hplace hedge)

/-- A search that succeeds gives the item the first place that an assignment can give it: places
that were tried before, and those whose items do not move, are in closed sets. -/
theorem Augments.first (h : Augments edge places i js m v (.placed m'))
    (hclosed : Closed edge places m v) (hm : IsMatching edge places m) (hi : ¬ Held m i)
    {items : List I} (hitem : i ∈ items) (hheld : ∀ x, Held m x → x ∈ items) :
    ∃ before j after, js = before ++ j :: after ∧ m' j = some i ∧
      ∀ f, IsAssignment edge places items f → f i ∉ before := by
  generalize hr : Outcome.placed m' = r at h
  induction h generalizing m' with
  | nil => cases hr
  | @skip i j js m v r hskip _ ih =>
    obtain ⟨before, k, after, rfl, hk, hfirst⟩ := ih hclosed hm hi hitem hheld hr
    refine ⟨j :: before, k, after, rfl, hk, fun f hf hmem => ?_⟩
    rcases List.mem_cons.mp hmem with heq | hmem
    · rcases hskip with hno | hv
      · exact hno (heq ▸ (hf.suits i hitem).2)
      · exact hclosed.no_place hm hi hitem hheld hf (heq ▸ hv)
    · exact hfirst f hf hmem
  | @free i j js m v _ _ _ =>
    obtain rfl := Outcome.placed.inj hr
    exact ⟨[], j, js, rfl, update_self .., fun _ _ => List.not_mem_nil⟩
  | @move i p j js m m₁ v _ _ _ _ _ =>
    obtain rfl := Outcome.placed.inj hr
    exact ⟨[], j, js, rfl, update_self .., fun _ _ => List.not_mem_nil⟩
  | @stay i p j js m v w r _ _ hp hstay _ _ ihrest =>
    obtain ⟨hsub, hedges, hnew⟩ := hstay.stuck
    have hw : Closed edge places m w := by
      intro k hk
      by_cases hkj : k = j
      · exact hkj ▸ ⟨p, hp, hedges⟩
      by_cases hv : k ∈ v
      · obtain ⟨q, hq, hall⟩ := hclosed k hv
        exact ⟨q, hq, fun l hl hedge => hsub (Finset.mem_insert_of_mem (hall l hl hedge))⟩
      · exact hnew k hk (by simp [hkj, hv])
    obtain ⟨before, k, after, rfl, hk, hfirst⟩ := ihrest hw hm hi hitem hheld hr
    refine ⟨j :: before, k, after, rfl, hk, fun f hf hmem => ?_⟩
    rcases List.mem_cons.mp hmem with heq | hmem
    · exact hw.no_place hm hi hitem hheld hf (heq ▸ hsub (Finset.mem_insert_self j v))
    · exact hfirst f hf hmem

/-! ## A list of items -/

/-- The items of a list get places one after the other. -/
inductive Fills (edge : I → J → Prop) (places : List J) :
    List I → (J → Option I) → Option (J → Option I) → Prop where
  | nil {m : J → Option I} : Fills edge places [] m (some m)
  | placed {i : I} {items : List I} {m m' : J → Option I} {r : Option (J → Option I)}
      (h : Augments edge places i places m ∅ (.placed m')) (hrest : Fills edge places items m' r) :
      Fills edge places (i :: items) m r
  | stuck {i : I} {items : List I} {m : J → Option I} {v : Finset J}
      (h : Augments edge places i places m ∅ (.stuck v)) : Fills edge places (i :: items) m none

theorem Fills.isMatching {items : List I} (h : Fills edge places items m (some m'))
    (hm : IsMatching edge places m) (hnodup : items.Nodup) (hfresh : ∀ x ∈ items, ¬ Held m x) :
    IsMatching edge places m' ∧ ∀ x, Held m' x ↔ Held m x ∨ x ∈ items := by
  generalize hr : some m' = r at h
  induction h with
  | nil =>
    obtain rfl := Option.some.inj hr
    exact ⟨hm, by simp⟩
  | @placed i items m m₁ r h _ ih =>
    obtain ⟨hi, hnodup⟩ := List.nodup_cons.mp hnodup
    obtain ⟨hm₁, hheld₁⟩ := h.isMatching hm (hfresh i List.mem_cons_self)
    obtain ⟨hm', hheld'⟩ := ih hm₁ hnodup (fun x hx hheld => by
      rcases (hheld₁ x).mp hheld with hheld | rfl
      · exact hfresh x (List.mem_cons_of_mem i hx) hheld
      · exact hi hx) hr
    refine ⟨hm', fun x => ?_⟩
    rw [hheld', hheld₁, List.mem_cons, or_assoc]
  | stuck => cases hr

/-- The last item of a list that is filled has the first place that an assignment of all items can
give it. -/
theorem Fills.last {items : List I} (h : Fills edge places (items ++ [i]) m (some m'))
    (hm : IsMatching edge places m) (hnodup : (items ++ [i]).Nodup)
    (hfresh : ∀ x ∈ items ++ [i], ¬ Held m x) {all : List I} (hitems : items ++ [i] ⊆ all)
    (hheld : ∀ x, Held m x → x ∈ all) :
    ∃ before j after, places = before ++ j :: after ∧ m' j = some i ∧
      ∀ f, IsAssignment edge places all f → f i ∉ before := by
  induction items generalizing m with
  | nil =>
    cases h with
    | placed h hrest =>
      cases hrest
      exact h.first (fun j hj => absurd hj (Finset.notMem_empty j)) hm
        (hfresh i (List.mem_singleton_self i)) (hitems (List.mem_singleton_self i)) hheld
  | cons x items ih =>
    obtain ⟨hx, hnodup⟩ := List.nodup_cons.mp hnodup
    cases h with
    | placed h hrest =>
      obtain ⟨hm₁, hheld₁⟩ := h.isMatching hm (hfresh x List.mem_cons_self)
      refine ih hrest hm₁ hnodup (fun y hy hyheld => ?_)
        (fun y hy => hitems (List.mem_cons_of_mem x hy)) fun y hyheld => ?_
      · rcases (hheld₁ y).mp hyheld with hyheld | rfl
        · exact hfresh y (List.mem_cons_of_mem x hy) hyheld
        · exact hx hy
      · rcases (hheld₁ y).mp hyheld with hyheld | rfl
        · exact hheld y hyheld
        · exact hitems List.mem_cons_self

/-- Where a list cannot be filled, there is no assignment. -/
theorem Fills.no_assignment {items all : List I} (h : Fills edge places items m none)
    (hm : IsMatching edge places m) (hnodup : items.Nodup) (hfresh : ∀ x ∈ items, ¬ Held m x)
    (hitems : items ⊆ all) (hheld : ∀ x, Held m x → x ∈ all) (f : I → J) :
    ¬ IsAssignment edge places all f := by
  generalize hr : (none : Option (J → Option I)) = r at h
  induction h with
  | nil => cases hr
  | @placed i items m m₁ r h _ ih =>
    obtain ⟨hi, hnodup⟩ := List.nodup_cons.mp hnodup
    obtain ⟨hm₁, hheld₁⟩ := h.isMatching hm (hfresh i List.mem_cons_self)
    refine ih hm₁ hnodup (fun x hx hheld => ?_) (fun x hx => hitems (List.mem_cons_of_mem i hx))
      (fun x hx => ?_) hr
    · rcases (hheld₁ x).mp hheld with hheld | rfl
      · exact hfresh x (List.mem_cons_of_mem i hx) hheld
      · exact hi hx
    · rcases (hheld₁ x).mp hx with hx | rfl
      · exact hheld x hx
      · exact hitems List.mem_cons_self
  | stuck h =>
    exact h.stuck_no_assignment hm (hfresh _ List.mem_cons_self) (hitems List.mem_cons_self) hheld f

end Lib.Matching
