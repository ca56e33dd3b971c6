import Rostfrei.Tracer.Embedding

/-!
# What the search writes down

`materialize` goes down the expected tree once more and writes an entry for each node. `Written`
says which entries: one for every node below, with the pairs of the sibling assignments
(`Written.entry`, `Written.exists_entry`), and no node has two (`Written.nodup`).

The whole search is complete with such entries, or incomplete where the root does not embed at any
observed root, or the budget was spent (`assignment_found`).
-/

namespace Rostfrei.Tracer.CompleteMatchSearch

open Lib Lib.Matching

variable {I J : Type} [DecidableEq I] [DecidableEq J] (S : CompleteMatchSearch I J)

/-- A child of a node that has a key. -/
def Child (i c : I) : Prop := ∃ key, S.expectedKey i = some key ∧ c ∈ S.expectedChildren key

/-- The expected nodes are trees of bounded depth. -/
structure Trees (S : CompleteMatchSearch I J) (depth : I → Nat) (bound : Nat) : Prop where
  distinct : S.Distinct
  child : ∀ i c, S.Child i c → depth c = depth i + 1
  parent : ∀ i i' c, S.Child i c → S.Child i' c → i = i'
  bounded : ∀ i key, S.expectedKey i = some key → depth i < bound

/-- The entries for a node and those below it. -/
inductive Written : I → J → List (I × J) → Prop where
  | node {i : I} {j : J} {key id : String} {pairs : List (I × J)} (below : I × J → List (I × J))
      (hmatch : S.nodeMatches i j = true) (hkey : S.expectedKey i = some key)
      (hid : S.observedId j = some id)
      (hpairs : S.Pairs (S.expectedChildren key) (S.observedChildren id) pairs)
      (hfirst : S.FirstServed (S.expectedChildren key) (S.observedChildren id) pairs)
      (hbelow : ∀ p ∈ pairs, Written p.1 p.2 (below p)) :
      Written i j ((i, j) :: pairs.flatMap below)

/-- `assignment.insert` for an entry. -/
def writeEntry (assignment : Finmap fun _ : String => String) (entry : I × J) :
    Finmap fun _ : String => String :=
  match S.expectedKey entry.1, S.observedId entry.2 with
  | some key, some id => assignment.insert key id
  | _, _ => assignment

variable {S}

/-! ## The entries -/

section Entries

variable {i c : I} {j o : J} {l : List (I × J)} {depth : I → Nat} {bound : Nat}

omit [DecidableEq I] [DecidableEq J]

theorem Written.head (h : S.Written i j l) : (i, j) ∈ l := by
  cases h
  exact List.mem_cons_self

/-- The nodes agree, and the children have the entries of a sibling assignment. -/
theorem Written.entry (h : S.Written i j l) (hmem : (c, o) ∈ l) :
    ∃ key id pairs, S.nodeMatches c o = true ∧ S.expectedKey c = some key ∧
      S.observedId o = some id ∧ S.Pairs (S.expectedChildren key) (S.observedChildren id) pairs ∧
      S.FirstServed (S.expectedChildren key) (S.observedChildren id) pairs ∧ pairs ⊆ l := by
  induction h with
  | @node i j key id pairs below hmatch hkey hid hpairs hfirst hbelow ih =>
    rcases List.mem_cons.mp hmem with heq | hmem
    · obtain ⟨rfl, rfl⟩ := Prod.ext_iff.mp heq
      refine ⟨key, id, pairs, hmatch, hkey, hid, hpairs, hfirst, fun p hp => ?_⟩
      exact List.mem_cons_of_mem _ (List.mem_flatMap.mpr ⟨p, hp, (hbelow p hp).head⟩)
    · obtain ⟨p, hp, hmem⟩ := List.mem_flatMap.mp hmem
      obtain ⟨key', id', pairs', hmatch', hkey', hid', hpairs', hfirst', hsub⟩ := ih p hp hmem
      refine ⟨key', id', pairs', hmatch', hkey', hid', hpairs', hfirst', fun q hq => ?_⟩
      exact List.mem_cons_of_mem _ (List.mem_flatMap.mpr ⟨p, hp, hsub hq⟩)

/-- The entries are of nodes below. -/
theorem Written.child_of_mem (h : S.Written i j l) (hmem : (c, o) ∈ l) :
    Relation.ReflTransGen S.Child i c := by
  induction h with
  | @node i j key id pairs below _ hkey _ hpairs _ _ ih =>
    rcases List.mem_cons.mp hmem with heq | hmem
    · obtain ⟨rfl, -⟩ := Prod.ext_iff.mp heq
      exact .refl
    · obtain ⟨p, hp, hmem⟩ := List.mem_flatMap.mp hmem
      have hchild : S.Child i p.1 := ⟨key, hkey, hpairs.perm.mem_iff.mp (List.mem_map_of_mem hp)⟩
      exact .head hchild (ih p hp hmem)

/-- Every node below has an entry. -/
theorem Written.exists_entry (h : S.Written i j l) (hbelow : Relation.ReflTransGen S.Child i c) :
    ∃ o, (c, o) ∈ l := by
  induction hbelow with
  | refl => exact ⟨j, h.head⟩
  | @tail b c _ hchild ih =>
    obtain ⟨o, ho⟩ := ih
    obtain ⟨key, id, pairs, -, hkey, -, hpairs, -, hsub⟩ := h.entry ho
    obtain ⟨key', hkey', hc⟩ := hchild
    obtain rfl := Option.some.inj (hkey.symm.trans hkey')
    obtain ⟨p, hp, rfl⟩ := List.mem_map.mp (hpairs.perm.mem_iff.mpr hc)
    exact ⟨p.2, hsub hp⟩

theorem Trees.le_of_below (hS : S.Trees depth bound) (h : Relation.ReflTransGen S.Child i c) :
    depth i ≤ depth c := by
  induction h with
  | refl => exact le_rfl
  | tail _ hchild ih => exact ih.trans (hS.child _ _ hchild ▸ Nat.le_succ _)

/-- Nodes of one depth have no node in common below them. -/
theorem Trees.eq_of_below (hS : S.Trees depth bound) {i' : I} (hdepth : depth i = depth i')
    (h : Relation.ReflTransGen S.Child i c) (h' : Relation.ReflTransGen S.Child i' c) : i = i' := by
  induction h with
  | refl =>
    rcases Relation.ReflTransGen.cases_tail h' with rfl | ⟨b, hb, hchild⟩
    · rfl
    · have hle := hS.le_of_below hb
      have := hS.child _ _ hchild
      omega
  | @tail b c hb hchild ih =>
    rcases Relation.ReflTransGen.cases_tail h' with rfl | ⟨b', hb', hchild'⟩
    · have hle := hS.le_of_below hb
      have := hS.child _ _ hchild
      omega
    · exact ih (hS.parent b b' c hchild hchild' ▸ hb')

/-- No node has two entries. -/
theorem Written.nodup (hS : S.Trees depth bound) (h : S.Written i j l) :
    (l.map Prod.fst).Nodup := by
  induction h with
  | @node i j key id pairs below _ hkey _ hpairs _ hbelow ih =>
    have hchild : ∀ p ∈ pairs, S.Child i p.1 := fun p hp =>
      ⟨key, hkey, hpairs.perm.mem_iff.mp (List.mem_map_of_mem hp)⟩
    have hdepth : ∀ p ∈ pairs, depth p.1 = depth i + 1 := fun p hp => hS.child _ _ (hchild p hp)
    have hmem : ∀ p ∈ pairs, ∀ c ∈ (below p).map Prod.fst, Relation.ReflTransGen S.Child p.1 c := by
      intro p hp c hc
      obtain ⟨e, he, rfl⟩ := List.mem_map.mp hc
      exact (hbelow p hp).child_of_mem he
    rw [List.map_cons, List.map_flatMap, List.nodup_cons]
    constructor
    · intro hi
      obtain ⟨p, hp, hc⟩ := List.mem_flatMap.mp hi
      have := hS.le_of_below (hmem p hp i hc)
      have := hdepth p hp
      omega
    · rw [List.nodup_flatMap]
      refine ⟨ih, ?_⟩
      have hfst : (pairs.map Prod.fst).Nodup := hpairs.perm.nodup_iff.mpr (hS.distinct.expected key)
      refine (List.pairwise_map.mp hfst).imp_of_mem fun {p q} hp hq hne => ?_
      intro c hcp hcq
      exact hne (hS.eq_of_below ((hdepth p hp).trans (hdepth q hq).symm) (hmem p hp c hcp)
        (hmem q hq c hcq))

end Entries

/-! ## The search -/

section Search

variable {i : I} {j : J} {depth : I → Nat} {bound fuel : Nat} {s : SearchState I J}

/-- The result of a part of the search that writes: entries, if the budget lasts. -/
def Writes (S : CompleteMatchSearch I J) (s : SearchState I J)
    (assignment : Finmap fun _ : String => String)
    (r : Bool × (Finmap fun _ : String => String) × SearchState I J)
    (Entries : List (I × J) → Prop) : Prop :=
  S.Proceeds s r.2.2 (r.1 = false)
    (r.1 = true ∧ ∃ l, Entries l ∧ r.2.1 = l.foldl S.writeEntry assignment)

/-- The pairs are written one after the other. -/
theorem materializeAll_writes
    {down : I → J → (Finmap fun _ : String => String) → SearchState I J →
      Bool × (Finmap fun _ : String => String) × SearchState I J} {pairs : List (I × J)}
    (hnodup : pairs.Nodup)
    (hdown : ∀ p ∈ pairs, ∀ assignment s, S.Running s →
      S.Writes s assignment (down p.1 p.2 assignment s) (S.Written p.1 p.2))
    (hrun : S.Running s) (assignment : Finmap fun _ : String => String) :
    S.Writes s assignment (materializeAll down pairs assignment s) fun l =>
      ∃ below : I × J → List (I × J), l = pairs.flatMap below ∧
        ∀ p ∈ pairs, S.Written p.1 p.2 (below p) := by
  induction pairs generalizing s assignment with
  | nil => exact hrun.proceeds ⟨rfl, [], ⟨fun _ => [], rfl, by simp⟩, rfl⟩
  | cons p pairs ih =>
    obtain ⟨hp, hnodup⟩ := List.nodup_cons.mp hnodup
    have hfirst := hdown p List.mem_cons_self assignment s hrun
    rw [materializeAll]
    rcases hresult : down p.1 p.2 assignment s with ⟨_ | _, assignment', s'⟩
    · rw [hresult] at hfirst
      refine ⟨hfirst.le, fun he => ⟨(hfirst.spent he).1, rfl⟩, fun he => ?_⟩
      cases (hfirst.done he).2.1
    · rw [hresult] at hfirst
      have he : s'.exhausted = false := by
        cases he : s'.exhausted with
        | true => cases (hfirst.spent he).2
        | false => rfl
      obtain ⟨htruth, -, l, hwritten, hassignment⟩ := hfirst.done he
      have hrest := ih hnodup (fun q hq => hdown q (List.mem_cons_of_mem p hq)) ⟨he, htruth⟩
        assignment'
      refine ⟨hrest.le.trans hfirst.le, hrest.spent, fun he' => ?_⟩
      obtain ⟨htruth', hok, l', ⟨below, rfl, hbelow⟩, hassignment'⟩ := hrest.done he'
      have hother : ∀ q ∈ pairs, Function.update below p l q = below q := fun q hq =>
        Function.update_of_ne (fun heq : q = p => hp (heq ▸ hq)) ..
      refine ⟨htruth', hok, l ++ pairs.flatMap below, ⟨Function.update below p l, ?_, ?_⟩, ?_⟩
      · rw [List.flatMap_cons, Function.update_self]
        congr 1
        exact (List.flatMap_congr hother).symm
      · intro q hq
        rcases List.mem_cons.mp hq with rfl | hq
        · rwa [Function.update_self]
        · rw [hother q hq]
          exact hbelow q hq
      · rw [List.foldl_append, ← hassignment]
        exact hassignment'

/-- Where the node embeds, `materialize` writes its entries. -/
theorem materialize_writes (hS : S.Trees depth bound) (hembeds : S.Embeds i j)
    (hfuel : bound ≤ fuel + depth i) (hrun : S.Running s)
    (assignment : Finmap fun _ : String => String) :
    S.Writes s assignment (S.materialize fuel i j assignment s) (S.Written i j) := by
  induction fuel generalizing i j assignment s with
  | zero =>
    obtain ⟨-, hkey, -⟩ := hembeds
    have := hS.bounded i _ hkey
    omega
  | succ fuel ih =>
    obtain ⟨key, id, hkey, hid⟩ : ∃ key id, S.expectedKey i = some key ∧ S.observedId j = some id := by
      obtain ⟨-, hkey, hid⟩ := hembeds
      exact ⟨_, _, hkey, hid⟩
    obtain ⟨hmatch, hassignable⟩ := (embeds_iff hkey hid).mp hembeds
    have hpair := siblingAssignment_proceeds
      ((search_answers hS.distinct (s.remainingSteps + 1)).2 (S.observedChildren id))
      (hS.distinct.expected key) (hS.distinct.observed id) (Nat.lt_succ_self _) hrun
    rw [materialize, hkey, hid]
    dsimp only
    change S.Proceeds s (S.pairChildren key id s).2 ((S.pairChildren key id s).1 = none)
      (S.Assigns _ _ (S.pairChildren key id s).1) at hpair
    rcases hresult : S.pairChildren key id s with ⟨_ | pairs, s'⟩
    · rw [hresult] at hpair
      refine ⟨hpair.le, fun he => ⟨(hpair.spent he).1, rfl⟩, fun he => ?_⟩
      exact absurd hassignable (hpair.done he).2
    · rw [hresult] at hpair
      have he : s'.exhausted = false := by
        cases he : s'.exhausted with
        | true => cases (hpair.spent he).2
        | false => rfl
      obtain ⟨htruth, hpairs, hfirst⟩ := hpair.done he
      have hdeeper : ∀ p ∈ pairs, depth p.1 = depth i + 1 := fun p hp =>
        hS.child _ _ ⟨key, hkey, hpairs.perm.mem_iff.mp (List.mem_map_of_mem hp)⟩
      have hall := materializeAll_writes (List.Nodup.of_map _ hpairs.nodup)
        (fun p hp a t ht => ih (hpairs.embeds p hp).2 (by rw [hdeeper p hp]; omega) ht a)
        ⟨he, htruth⟩ (assignment.insert key id)
      refine ⟨hall.le.trans hpair.le, hall.spent, fun he' => ?_⟩
      obtain ⟨htruth', hok, l, ⟨below, rfl, hbelow⟩, hassignment⟩ := hall.done he'
      refine ⟨htruth', hok, _, .node below hmatch hkey hid hpairs hfirst hbelow, ?_⟩
      rw [List.foldl_cons, hassignment, writeEntry, hkey, hid]

/-- What the search answers for an expected root. -/
def Finds (S : CompleteMatchSearch I J) (root : I) (observed : List J) :
    CompleteCausalAssignment → Prop
  | .complete assignment => ∃ j ∈ observed, ∃ l, S.Written root j l ∧
      assignment = l.foldl S.writeEntry ∅
  | .incomplete _ => ∀ j ∈ observed, ¬ S.Embeds root j
  | .exhausted => True

theorem tryRoots_finds (hS : S.Trees depth bound) (hfuel : bound ≤ fuel + depth i)
    (observed : List J) (hrun : S.Running s) : S.Finds i observed (S.tryRoots fuel i observed s) := by
  induction observed generalizing s with
  | nil => exact fun j hj => absurd hj (List.not_mem_nil)
  | cons j observed ih =>
    have hsubtree := (search_answers hS.distinct (s.remainingSteps + 1)).1 i j s
      (Nat.lt_succ_self _) hrun
    -- the roots after one that does not embed
    have hlater : ∀ s', S.Running s' → ¬ S.Embeds i j →
        S.Finds i (j :: observed) (S.tryRoots fuel i observed s') := by
      intro s' hrun' hno
      have hrest := ih hrun'
      cases hanswer : S.tryRoots fuel i observed s' with
      | complete assignment =>
        rw [hanswer] at hrest
        obtain ⟨k, hk, l, hl⟩ := hrest
        exact ⟨k, List.mem_cons_of_mem j hk, l, hl⟩
      | incomplete steps =>
        rw [hanswer] at hrest
        exact List.forall_mem_cons.mpr ⟨hno, hrest⟩
      | exhausted => trivial
    rw [tryRoots]
    rcases hanswer : S.subtreeMatches (s.remainingSteps + 1) i j s with ⟨_ | _, s'⟩
    · rw [hanswer] at hsubtree
      dsimp only
      split
      · trivial
      · next he =>
        have he : s'.exhausted = false := by simpa using he
        obtain ⟨htruth, hiff⟩ := hsubtree.done he
        exact hlater s' ⟨he, htruth⟩ (by simpa using hiff)
    · rw [hanswer] at hsubtree
      have he : s'.exhausted = false := by
        cases he : s'.exhausted with
        | true => cases (hsubtree.spent he).2
        | false => rfl
      obtain ⟨htruth, hiff⟩ := hsubtree.done he
      have hembeds : S.Embeds i j := hiff.mp rfl
      have hwrites := materialize_writes hS hembeds hfuel ⟨he, htruth⟩ ∅
      dsimp only
      rcases hresult : S.materialize fuel i j ∅ s' with ⟨_ | _, assignment, s''⟩
      · rw [hresult] at hwrites
        dsimp only
        split
        · trivial
        · next he' => cases (hwrites.done (by simpa using he')).2.1
      · rw [hresult] at hwrites
        have he' : s''.exhausted = false := by
          cases he' : s''.exhausted with
          | true => cases (hwrites.spent he').2
          | false => rfl
        obtain ⟨-, -, l, hl, hassignment⟩ := hwrites.done he'
        exact ⟨j, List.mem_cons_self, l, hl, hassignment⟩

/-- The search finds what it looks for, whatever the budget. -/
theorem assignment_found (hS : S.Trees depth bound) {roots : List I}
    (hroots : S.expectedRoots = i :: roots) (steps : Nat) (hfuel : bound ≤ fuel + depth i) :
    S.Finds i S.observedRoots (S.assignment steps fuel) := by
  rw [assignment, hroots]
  exact tryRoots_finds hS hfuel _ ⟨rfl, fun i j b h => by cases h⟩

end Search

end Rostfrei.Tracer.CompleteMatchSearch
