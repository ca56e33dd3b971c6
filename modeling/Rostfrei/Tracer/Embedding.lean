import Rostfrei.Lib.Matching
import Rostfrei.Tracer.Search

/-!
# What the search finds

`Embeds i j`: the expected tree below `i` embeds into the observed messages below `j`. As long as
the budget lasts, the search answers exactly this (`subtreeMatches_proceeds`), by the library's
theory of augmenting paths; what it remembers is then true (`Truthful`). Once the budget is spent,
every answer on the way back is no.
-/

namespace Rostfrei.Tracer.CompleteMatchSearch

open Lib Lib.Matching

variable {I J : Type} [DecidableEq I] [DecidableEq J] (S : CompleteMatchSearch I J)

/-! ## Embeddings -/

/-- The nodes agree, and the children of the expected one embed into different children of the
other. -/
inductive Embeds : I → J → Prop where
  | node {i : I} {j : J} {key id : String} (hmatch : S.nodeMatches i j = true)
      (hkey : S.expectedKey i = some key) (hid : S.observedId j = some id) (f : I → J)
      (hmem : ∀ c ∈ S.expectedChildren key, f c ∈ S.observedChildren id)
      (hsub : ∀ c ∈ S.expectedChildren key, Embeds c (f c))
      (hinj : ∀ c ∈ S.expectedChildren key, ∀ c' ∈ S.expectedChildren key, f c = f c' → c = c') :
      Embeds i j

/-- The children of two nodes can be assigned. -/
def Assignable (expected : List I) (observed : List J) : Prop :=
  ∃ f, IsAssignment S.Embeds observed expected f

variable {S}

omit [DecidableEq I] [DecidableEq J] in
theorem embeds_iff {i : I} {j : J} {key id : String} (hkey : S.expectedKey i = some key)
    (hid : S.observedId j = some id) :
    S.Embeds i j ↔ S.nodeMatches i j = true ∧
      S.Assignable (S.expectedChildren key) (S.observedChildren id) := by
  constructor
  · rintro (⟨hmatch, hkey', hid', f, hmem, hsub, hinj⟩)
    obtain rfl := Option.some.inj (hkey.symm.trans hkey')
    obtain rfl := Option.some.inj (hid.symm.trans hid')
    exact ⟨hmatch, f, fun c hc => ⟨hmem c hc, hsub c hc⟩, hinj⟩
  · rintro ⟨hmatch, f, hsuits, hinj⟩
    exact .node hmatch hkey hid f (fun c hc => (hsuits c hc).1) (fun c hc => (hsuits c hc).2) hinj

omit [DecidableEq I] [DecidableEq J] in
/-- More children than places cannot be assigned. -/
theorem not_assignable_of_length {expected : List I} {observed : List J} (hnodup : expected.Nodup)
    (h : observed.length < expected.length) : ¬ S.Assignable expected observed := by
  rintro ⟨f, hsuits, hinj⟩
  have hnodup' : (expected.map f).Nodup := hnodup.map_on hinj
  have hsub : expected.map f ⊆ observed := by
    intro j hj
    obtain ⟨c, hc, rfl⟩ := List.mem_map.mp hj
    exact (hsuits c hc).1
  have := (List.subperm_of_subset hnodup' hsub).length_le
  rw [List.length_map] at this
  omega

/-! ## States -/

/-- What is remembered is true. -/
def Truthful (S : CompleteMatchSearch I J) (s : SearchState I J) : Prop :=
  ∀ i j b, s.compatibility i j = some b → (b = true ↔ S.Embeds i j)

/-- A part of the search goes from a state with budget to another: either the budget was spent, and
the part failed, or all is true. -/
structure Proceeds (S : CompleteMatchSearch I J) (s s' : SearchState I J) (failed P : Prop) :
    Prop where
  le : s'.remainingSteps ≤ s.remainingSteps
  spent : s'.exhausted = true → s'.remainingSteps = 0 ∧ failed
  done : s'.exhausted = false → S.Truthful s' ∧ P

/-- A state in which the search goes on. -/
structure Running (S : CompleteMatchSearch I J) (s : SearchState I J) : Prop where
  exhausted : s.exhausted = false
  truthful : S.Truthful s

omit [DecidableEq I] [DecidableEq J] in
theorem Proceeds.running {s s' : SearchState I J} {failed P : Prop}
    (h : S.Proceeds s s' failed P) (he : s'.exhausted = false) : S.Running s' :=
  ⟨he, (h.done he).1⟩

omit [DecidableEq I] [DecidableEq J] in
theorem Running.proceeds {s : SearchState I J} {failed P : Prop} (h : S.Running s) (hP : P) :
    S.Proceeds s s failed P :=
  ⟨le_rfl, fun he => by simp [h.exhausted] at he, fun _ => ⟨h.truthful, hP⟩⟩

omit [DecidableEq I] [DecidableEq J] in
theorem Proceeds.imp {s s' : SearchState I J} {failed P failed' P' : Prop}
    (h : S.Proceeds s s' failed P) (hfailed : failed → failed') (hP : P → P') :
    S.Proceeds s s' failed' P' :=
  ⟨h.le, fun he => (h.spent he).imp_right hfailed, fun he => (h.done he).imp_right hP⟩

omit [DecidableEq I] [DecidableEq J] in
theorem Proceeds.trans {s s₁ s₂ : SearchState I J} {failed₁ P₁ failed P : Prop}
    (h : S.Proceeds s s₁ failed₁ P₁) (h' : S.Proceeds s₁ s₂ failed P) :
    S.Proceeds s s₂ failed P :=
  ⟨h'.le.trans h.le, h'.spent, h'.done⟩

omit [DecidableEq I] [DecidableEq J] in
theorem spendStep_zero {s : SearchState I J} (h : s.remainingSteps = 0) :
    s.spendStep = (false, { s with exhausted := true }) := by
  rw [SearchState.spendStep, if_pos h]

omit [DecidableEq I] [DecidableEq J] in
theorem spendStep_pos {s : SearchState I J} (h : s.remainingSteps ≠ 0) :
    s.spendStep = (true, { s with remainingSteps := s.remainingSteps - 1 }) := by
  rw [SearchState.spendStep, if_neg h]

omit [DecidableEq I] [DecidableEq J] in
/-- A step that is spent. -/
theorem Running.spend {s : SearchState I J} (h : S.Running s) :
    S.Running { s with remainingSteps := s.remainingSteps - 1 } := ⟨h.exhausted, h.truthful⟩

omit [DecidableEq I] [DecidableEq J] in
/-- The budget is spent. -/
theorem proceeds_spent {s : SearchState I J} {failed P : Prop} (h : s.remainingSteps = 0)
    (hfailed : failed) : S.Proceeds s { s with exhausted := true } failed P :=
  ⟨le_rfl, fun _ => ⟨h, hfailed⟩, fun he => by cases he⟩

/-- A true answer may be remembered. -/
theorem Truthful.record {s : SearchState I J} (h : S.Truthful s) {i : I} {j : J} {b : Bool}
    (hb : b = true ↔ S.Embeds i j) : S.Truthful (s.record i j b) := by
  intro i' j' b' hb'
  simp only [SearchState.record] at hb'
  split at hb'
  · next heq =>
    obtain ⟨rfl, rfl⟩ := heq
    rw [← Option.some.inj hb']
    exact hb
  · exact h i' j' b' hb'

/-! ## Siblings -/

section Siblings

variable {subtree : I → J → SearchState I J → Bool × SearchState I J}
  {again : I → (J → Option I) → Finset J → SearchState I J → Augmented I J} {fuel : Nat}
  {places : List J}

/-- The comparison of subtrees, for budgets below `fuel`. -/
def Answers (S : CompleteMatchSearch I J)
    (subtree : I → J → SearchState I J → Bool × SearchState I J) (fuel : Nat) : Prop :=
  ∀ i j s, s.remainingSteps < fuel → S.Running s →
    S.Proceeds s (subtree i j s).2 ((subtree i j s).1 = false)
      ((subtree i j s).1 = true ↔ S.Embeds i j)

/-- The outcome of a search for a place. -/
def outcome (r : Augmented I J) : Outcome I J :=
  if r.found then .placed r.matched else .stuck r.visited

/-- The search for a place, for budgets below `fuel`. -/
def Searches (S : CompleteMatchSearch I J)
    (augment : I → (J → Option I) → Finset J → SearchState I J → Augmented I J) (places : List J)
    (fuel : Nat) : Prop :=
  ∀ i m v s, s.remainingSteps < fuel → S.Running s →
    S.Proceeds s (augment i m v s).state ((augment i m v s).found = false)
      (Augments S.Embeds places i places m v (outcome (augment i m v s)) ∧
        ((augment i m v s).found = false → (augment i m v s).matched = m))

omit [DecidableEq I] in
/-- With a spent budget the loop fails. -/
theorem augmentLoop_spent {i : I} (js : List J) {m : J → Option I} {v : Finset J}
    {s : SearchState I J} (hsteps : s.remainingSteps = 0) (hspent : s.exhausted = true) :
    (augmentLoop subtree again i js m v s).found = false ∧
      (augmentLoop subtree again i js m v s).state.remainingSteps = 0 ∧
      (augmentLoop subtree again i js m v s).state.exhausted = true := by
  cases js with
  | nil => exact ⟨rfl, hsteps, hspent⟩
  | cons j js =>
    rw [augmentLoop, spendStep_zero hsteps]
    exact ⟨rfl, hsteps, rfl⟩

omit [DecidableEq I] in
theorem augmentLoop_proceeds (hsubtree : S.Answers subtree fuel)
    (hagain : S.Searches again places fuel) {i : I} (js : List J) {m : J → Option I} {v : Finset J}
    {s : SearchState I J} (hsteps : s.remainingSteps ≤ fuel) (hrun : S.Running s) :
    S.Proceeds s (augmentLoop subtree again i js m v s).state
      ((augmentLoop subtree again i js m v s).found = false)
      (Augments S.Embeds places i js m v (outcome (augmentLoop subtree again i js m v s)) ∧
        ((augmentLoop subtree again i js m v s).found = false →
          (augmentLoop subtree again i js m v s).matched = m)) := by
  induction js generalizing m v s with
  | nil => exact hrun.proceeds ⟨.nil, fun _ => rfl⟩
  | cons j js ih =>
    by_cases hzero : s.remainingSteps = 0
    · rw [augmentLoop, spendStep_zero hzero]
      exact proceeds_spent hzero rfl
    rw [augmentLoop, spendStep_pos hzero]
    -- one step is spent, and the subtrees are compared
    dsimp only
    set s₁ : SearchState I J := { s with remainingSteps := s.remainingSteps - 1 } with hs₁
    have hlt : s₁.remainingSteps < fuel := by simp only [hs₁]; omega
    have hspend : s₁.remainingSteps ≤ s.remainingSteps := by simp only [hs₁]; omega
    have hsub := hsubtree i j s₁ hlt hrun.spend
    rcases hanswer : subtree i j s₁ with ⟨b, s₂⟩
    rw [hanswer] at hsub
    -- the rest of the loop, from a state where all is true or the budget is spent
    have hgo : ∀ {m' v' s₃}, s₃.remainingSteps ≤ s₂.remainingSteps →
        (s₃.exhausted = true → s₃.remainingSteps = 0) → (s₃.exhausted = false → S.Truthful s₃) →
        (s₃.exhausted = false → ∀ r, Augments S.Embeds places i js m' v' r →
          Augments S.Embeds places i (j :: js) m v r) → (s₃.exhausted = false → m' = m) →
        S.Proceeds s (augmentLoop subtree again i js m' v' s₃).state
          ((augmentLoop subtree again i js m' v' s₃).found = false)
          (Augments S.Embeds places i (j :: js) m v
              (outcome (augmentLoop subtree again i js m' v' s₃)) ∧
            ((augmentLoop subtree again i js m' v' s₃).found = false →
              (augmentLoop subtree again i js m' v' s₃).matched = m)) := by
      intro m' v' s₃ hle hspent htrue hstep hsame
      have hle₃ : s₃.remainingSteps ≤ s.remainingSteps := hle.trans (hsub.le.trans hspend)
      cases he : s₃.exhausted with
      | true =>
        obtain ⟨hfound, hzero, hex⟩ :=
          @augmentLoop_spent _ _ _ subtree again i js m' v' s₃ (hspent he) he
        exact ⟨by omega, fun _ => ⟨hzero, hfound⟩, fun hfalse => by simp [hex] at hfalse⟩
      | false =>
        have hrest := ih (m := m') (v := v') (s := s₃) (hle₃.trans hsteps) ⟨he, htrue he⟩
        refine ⟨hrest.le.trans hle₃, hrest.spent, fun hdone => ?_⟩
        obtain ⟨htruth, haug, hm⟩ := hrest.done hdone
        exact ⟨htruth, hstep he _ haug, fun hf => (hm hf).trans (hsame he)⟩
    have hspent₂ : s₂.exhausted = true → s₂.remainingSteps = 0 := fun he => (hsub.spent he).1
    have htrue₂ : s₂.exhausted = false → S.Truthful s₂ := fun he => (hsub.done he).1
    cases b with
    | false =>
      exact hgo le_rfl hspent₂ htrue₂
        (fun he r hr => .skip (.inl fun hemb => by simpa using (hsub.done he).2.mpr hemb) hr)
        fun _ => rfl
    | true =>
      have he₂ : s₂.exhausted = false := by
        cases he : s₂.exhausted with
        | true => simpa using (hsub.spent he).2
        | false => rfl
      have hemb : S.Embeds i j := (hsub.done he₂).2.mp rfl
      dsimp only
      split
      · next hmem => exact hgo le_rfl hspent₂ htrue₂ (fun _ r hr => .skip (.inr hmem) hr) fun _ => rfl
      next hnew =>
      rcases hheld : m j with _ | p
      · refine ⟨hsub.le.trans hspend, fun he => by simp [he₂] at he, fun _ => ⟨htrue₂ he₂, ?_, ?_⟩⟩
        · exact .free hemb hnew hheld
        · exact fun hf => by cases hf
      -- the item that holds the place looks for another
      have hprev := hagain p m (insert j v) s₂ (lt_of_le_of_lt hsub.le hlt) ⟨he₂, htrue₂ he₂⟩
      dsimp only
      set r := again p m (insert j v) s₂
      split
      · next hfound =>
        refine ⟨hprev.le.trans (hsub.le.trans hspend), fun he => ?_, fun he => ?_⟩
        · simp [hfound] at hprev
          exact absurd (hprev.spent he).2 (by simp)
        · obtain ⟨htruth, haug, -⟩ := hprev.done he
          rw [outcome, if_pos hfound] at haug
          refine ⟨htruth, ?_, fun hf => by simp [hfound] at hf⟩
          rw [outcome, if_pos hfound]
          exact .move hemb hnew hheld haug
      · next hfound =>
        refine hgo hprev.le (fun he => (hprev.spent he).1) (fun he => (hprev.done he).1)
          (fun he w hw => ?_) fun he => (hprev.done he).2.2 (by simpa using hfound)
        obtain ⟨-, haug, hsame⟩ := hprev.done he
        rw [outcome, if_neg hfound] at haug
        rw [hsame (by simpa using hfound)] at hw
        exact .stay hemb hnew hheld haug hw

omit [DecidableEq I] in
/-- The loop over the siblings. -/
theorem fillSiblings_proceeds (hagain : S.Searches again places fuel) (items : List I)
    {m : J → Option I} {s : SearchState I J} (hsteps : s.remainingSteps < fuel)
    (hrun : S.Running s) :
    S.Proceeds s (fillSiblings again items m s).2 ((fillSiblings again items m s).1 = none)
      (Fills S.Embeds places items m (fillSiblings again items m s).1) := by
  induction items generalizing m s with
  | nil => exact hrun.proceeds .nil
  | cons i items ih =>
    have hsearch := hagain i m ∅ s hsteps hrun
    rw [fillSiblings]
    set r := again i m ∅ s
    split
    · next hfound =>
      have he : r.state.exhausted = false := by
        cases he : r.state.exhausted with
        | true => simpa [hfound] using (hsearch.spent he).2
        | false => rfl
      obtain ⟨htruth, haug, -⟩ := hsearch.done he
      rw [outcome, if_pos hfound] at haug
      have hrest := ih (m := r.matched) (lt_of_le_of_lt hsearch.le hsteps) ⟨he, htruth⟩
      exact hsearch.trans (hrest.imp id fun hfills => .placed haug hfills)
    · next hfound =>
      refine ⟨hsearch.le, fun he => ⟨(hsearch.spent he).1, rfl⟩, fun he => ?_⟩
      obtain ⟨htruth, haug, -⟩ := hsearch.done he
      rw [outcome, if_neg hfound] at haug
      exact ⟨htruth, .stuck haug⟩

/-- Every expected sibling with an observed one of its own. -/
structure Pairs (S : CompleteMatchSearch I J) (expected : List I) (observed : List J)
    (pairs : List (I × J)) : Prop where
  perm : (pairs.map Prod.fst).Perm expected
  nodup : (pairs.map Prod.snd).Nodup
  embeds : ∀ p ∈ pairs, p.2 ∈ observed ∧ S.Embeds p.1 p.2

/-- The first expected sibling has the first observed one that an assignment can give it. -/
def FirstServed (S : CompleteMatchSearch I J) (expected : List I) (observed : List J)
    (pairs : List (I × J)) : Prop :=
  ∀ i rest, expected = i :: rest → ∃ before j after, observed = before ++ j :: after ∧
    (i, j) ∈ pairs ∧ ∀ f, IsAssignment S.Embeds observed expected f → f i ∉ before

/-- What `sibling_assignment` answers. -/
def Assigns (S : CompleteMatchSearch I J) (expected : List I) (observed : List J) :
    Option (List (I × J)) → Prop
  | none => ¬ S.Assignable expected observed
  | some pairs => S.Pairs expected observed pairs ∧ S.FirstServed expected observed pairs

omit [DecidableEq I] [DecidableEq J] in
theorem Pairs.of_perm {expected : List I} {observed : List J} {pairs pairs' : List (I × J)}
    (h : S.Pairs expected observed pairs) (hperm : pairs'.Perm pairs) :
    S.Pairs expected observed pairs' :=
  ⟨(hperm.map _).trans h.perm, ((hperm.map _).nodup_iff).mpr h.nodup,
    fun p hp => h.embeds p (hperm.mem_iff.mp hp)⟩

omit [DecidableEq I] [DecidableEq J] in
theorem mem_pairs {observed : List J} {m : J → Option I} (hm : IsMatching S.Embeds observed m)
    (p : I × J) : p ∈ (observed.filterMap fun j => (m j).map (·, j)) ↔ m p.2 = some p.1 := by
  obtain ⟨i, j⟩ := p
  simp only [List.mem_filterMap, Option.map_eq_some_iff, Prod.mk.injEq]
  constructor
  · rintro ⟨j', -, i', hi', rfl, rfl⟩
    exact hi'
  · exact fun h => ⟨j, (hm.edges j i h).1, i, h, rfl, rfl⟩

omit [DecidableEq I] [DecidableEq J] in
/-- A matching of all siblings, read as pairs. -/
theorem pairs_of_isMatching {expected : List I} {observed : List J} {m : J → Option I}
    (hm : IsMatching S.Embeds observed m) (hheld : ∀ x, Held m x ↔ x ∈ expected)
    (hexpected : expected.Nodup) (hobserved : observed.Nodup) :
    S.Pairs expected observed (observed.filterMap fun j => (m j).map (·, j)) := by
  have hmem := mem_pairs hm
  have hnodup : (observed.filterMap fun j => (m j).map (·, j)).Nodup := by
    refine hobserved.filterMap fun j j' p hj hj' => ?_
    simp only [Option.mem_def, Option.map_eq_some_iff] at hj hj'
    obtain ⟨i, -, rfl⟩ := hj
    obtain ⟨i', -, heq⟩ := hj'
    exact (congrArg Prod.snd heq).symm
  refine ⟨?_, ?_, fun p hp => hm.edges p.2 p.1 ((hmem p).mp hp)⟩
  · refine (List.perm_ext_iff_of_nodup (hnodup.map_on ?_) hexpected).mpr fun x => ?_
    · rintro ⟨i, j⟩ hp ⟨i', j'⟩ hp' rfl
      rw [hmem] at hp hp'
      rw [hm.inj j j' i hp hp']
    · rw [← hheld, List.mem_map]
      constructor
      · rintro ⟨p, hp, rfl⟩
        exact ⟨p.2, (hmem p).mp hp⟩
      · rintro ⟨j, hj⟩
        exact ⟨(x, j), (hmem _).mpr hj, rfl⟩
  · refine hnodup.map_on ?_
    rintro ⟨i, j⟩ hp ⟨i', j'⟩ hp' rfl
    rw [hmem] at hp hp'
    exact Prod.ext (Option.some.inj (hp.symm.trans hp')) rfl

omit [DecidableEq I] in
theorem siblingAssignment_proceeds
    {augment : List J → I → (J → Option I) → Finset J → SearchState I J → Augmented I J}
    {expected : List I} (hsearch : S.Searches (augment places) places fuel)
    (hexpected : expected.Nodup) (hplaces : places.Nodup) {s : SearchState I J}
    (hsteps : s.remainingSteps < fuel) (hrun : S.Running s) :
    S.Proceeds s (S.siblingAssignment augment expected places s).2
      ((S.siblingAssignment augment expected places s).1 = none)
      (S.Assigns expected places (S.siblingAssignment augment expected places s).1) := by
  rw [siblingAssignment]
  split
  · next hlength => exact hrun.proceeds (not_assignable_of_length hexpected hlength)
  have hfill := fillSiblings_proceeds (m := fun _ => none) hsearch expected.reverse hsteps hrun
  have hfresh : ∀ x ∈ expected.reverse, ¬ Held (fun _ : J => (none : Option I)) x :=
    fun x _ hheld => by simp [Held] at hheld
  have hnodup : expected.reverse.Nodup := List.nodup_reverse.mpr hexpected
  rcases hfilled : fillSiblings (augment places) expected.reverse (fun _ => none) s
    with ⟨_ | matched, s'⟩
  · rw [hfilled] at hfill
    refine hfill.imp (fun _ => rfl) fun hfills => ?_
    rintro ⟨f, hf⟩
    exact hfills.no_assignment isMatching_empty hnodup hfresh
      (fun x hx => List.mem_reverse.mp hx) (fun x hheld => by simp [Held] at hheld) f hf
  · rw [hfilled] at hfill
    refine hfill.imp (fun hnone => by cases hnone) fun hfills => ?_
    obtain ⟨hm, hheld⟩ := hfills.isMatching isMatching_empty hnodup hfresh
    refine ⟨(pairs_of_isMatching hm (fun x => ?_) hexpected hplaces).of_perm (sortBy_perm _ _),
      fun i rest hcons => ?_⟩
    · rw [hheld, List.mem_reverse]
      simp [Held]
    · -- the first sibling is the last that is placed
      subst hcons
      rw [List.reverse_cons] at hfills hnodup hfresh
      have hitems : rest.reverse ++ [i] ⊆ i :: rest := fun x hx => by simpa [or_comm] using hx
      obtain ⟨before, j, after, hsplit, hj, hfirst⟩ := hfills.last isMatching_empty hnodup hfresh
        hitems fun x hheld => by simp [Held] at hheld
      exact ⟨before, j, after, hsplit, mem_sortBy.mpr ((mem_pairs hm (i, j)).mpr hj), hfirst⟩

omit [DecidableEq I] [DecidableEq J] in
/-- Pairs are an assignment. -/
theorem Pairs.assignable {expected : List I} {observed : List J} {pairs : List (I × J)}
    (h : S.Pairs expected observed pairs) (j : J) : S.Assignable expected observed := by
  classical
  have hpair : ∀ c ∈ expected, ∃ o, (c, o) ∈ pairs := by
    intro c hc
    obtain ⟨p, hp, rfl⟩ := List.mem_map.mp (h.perm.mem_iff.mpr hc)
    exact ⟨p.2, hp⟩
  let f : I → J := fun c => if hc : ∃ o, (c, o) ∈ pairs then hc.choose else j
  have hf : ∀ c ∈ expected, (c, f c) ∈ pairs := by
    intro c hc
    have hex := hpair c hc
    simp only [f, dif_pos hex]
    exact hex.choose_spec
  refine ⟨f, fun c hc => h.embeds _ (hf c hc), fun c hc c' hc' heq => ?_⟩
  exact congrArg Prod.fst (List.inj_on_of_nodup_map h.nodup (hf c hc) (hf c' hc') heq)

end Siblings

/-! ## The search -/

/-- No child comes twice. -/
structure Distinct (S : CompleteMatchSearch I J) : Prop where
  expected : ∀ key, (S.expectedChildren key).Nodup
  observed : ∀ id, (S.observedChildren id).Nodup

/-- The answers of `subtree_matches` and `augment_sibling`. -/
theorem search_answers (hS : S.Distinct) (fuel : Nat) :
    S.Answers (S.subtreeMatches fuel) fuel ∧
      ∀ places : List J, S.Searches (S.augmentSibling fuel places) places fuel := by
  induction fuel with
  | zero => exact ⟨fun _ _ _ h => absurd h (by omega), fun _ _ _ _ _ h => absurd h (by omega)⟩
  | succ fuel ih =>
    obtain ⟨hanswers, hsearches⟩ := ih
    refine ⟨fun i j s hsteps hrun => ?_, fun places i m v s hsteps hrun => ?_⟩
    · rw [subtreeMatches]
      rcases hknown : s.compatibility i j with _ | answer
      swap
      · exact hrun.proceeds (hrun.truthful i j answer hknown)
      by_cases hzero : s.remainingSteps = 0
      · rw [spendStep_zero hzero]
        exact proceeds_spent hzero rfl
      rw [spendStep_pos hzero]
      dsimp only
      set s₁ : SearchState I J := { s with remainingSteps := s.remainingSteps - 1 } with hs₁
      have hrun₁ : S.Running s₁ := hrun.spend
      have hlt : s₁.remainingSteps < fuel := by simp only [hs₁]; omega
      have hspend : s₁.remainingSteps ≤ s.remainingSteps := by simp only [hs₁]; omega
      split
      · next hdiffer =>
        have hno : ¬ S.Embeds i j := by
          rintro ⟨hmatch⟩
          simp [hmatch] at hdiffer
        have hanswer : false = true ↔ S.Embeds i j := by simp [hno]
        exact ⟨hspend, fun he => absurd he (by simp [SearchState.record, hrun₁.exhausted]),
          fun _ => ⟨hrun₁.truthful.record hanswer, hanswer⟩⟩
      next hmatch =>
      split
      · next key id hkey hid =>
        have hsiblings := siblingAssignment_proceeds (hsearches (S.observedChildren id))
          (hS.expected key) (hS.observed id) hlt hrun₁
        set r := S.siblingAssignment (S.augmentSibling fuel) (S.expectedChildren key)
          (S.observedChildren id) s₁
        refine ⟨hsiblings.le.trans hspend, fun he => ?_, fun he => ?_⟩
        · obtain ⟨hzero, hnone⟩ := hsiblings.spent he
          exact ⟨hzero, by rw [hnone]; rfl⟩
        · obtain ⟨htruth, hassigns⟩ := hsiblings.done he
          have hanswer : r.1.isSome = true ↔ S.Embeds i j := by
            rw [embeds_iff hkey hid]
            rcases hr : r.1 with _ | pairs
            · rw [hr] at hassigns
              simp only [Option.isSome_none, Bool.false_eq_true, false_iff, not_and]
              exact fun _ => hassigns
            · rw [hr] at hassigns
              simp only [Option.isSome_some, true_iff]
              exact ⟨by simpa using hmatch, hassigns.1.assignable j⟩
          exact ⟨htruth.record hanswer, hanswer⟩
      · next hnone =>
        have hno : ¬ S.Embeds i j := by
          rintro ⟨-, hkey, hid⟩
          exact hnone _ _ hkey hid
        exact ⟨hspend, fun he => absurd he (by simp [hrun₁.exhausted]),
          fun _ => ⟨hrun₁.truthful, by simp [hno]⟩⟩
    · rw [augmentSibling]
      exact augmentLoop_proceeds hanswers (hsearches places) places (by omega) hrun

end Rostfrei.Tracer.CompleteMatchSearch
