import Rostfrei.Tracer.Assignment
import Rostfrei.Tracer.Graph

/-!
# Complete assignments

What the search of `message_series.rs` decides, in terms of the messages: whether the expected tree
has a causal map into the observed messages (`CausalMap`). A map that is found serves siblings in
the order of their keys (`search_correct`).

The search works on positions in the two lists of nodes; `Fits` is what `Embeds` says of the nodes at
two positions (`fits_iff`).
-/

namespace Rostfrei.Tracer

open Lib Lib.Matching Messaging

/-! ## Maps of messages -/

section Maps

variable (expected : MessageGraphDefinition) (observed : ObservedMessageSeries)

/-- Different messages for different nodes: for the root one without a cause, for every other node one
that is caused by the message of its parent, and each is compatible with its node. -/
structure CausalMap (φ : ExpectedMessageNode → ObservedMessageNode) : Prop where
  mem : ∀ e ∈ expected.nodes.nodes, φ e ∈ observed.messages.nodes
  agrees : ∀ e ∈ expected.nodes.nodes, contentMatches e (φ e) observed = true
  root : ∀ e ∈ expected.nodes.nodes, e.parentKey = none → (φ e).causationId = none
  child : ∀ e ∈ expected.nodes.nodes, ∀ p ∈ expected.nodes.nodes, e.parentKey = some p.key →
    (φ e).causationId = some (φ p).messageId
  inj : ∀ e ∈ expected.nodes.nodes, ∀ e' ∈ expected.nodes.nodes, φ e = φ e' → e = e'

/-- The message is compatible with the node, and so on for their children: every expected child has
a message of its own that the message has caused. -/
inductive Fits : ExpectedMessageNode → ObservedMessageNode → Prop where
  | node {e : ExpectedMessageNode} {o : ObservedMessageNode}
      (f : ExpectedMessageNode → ObservedMessageNode) (he : e ∈ expected.nodes.nodes)
      (ho : o ∈ observed.messages.nodes) (hagrees : contentMatches e o observed = true)
      (hmem : ∀ c ∈ expected.nodes.nodes, c.parentKey = some e.key →
        f c ∈ observed.messages.nodes ∧ (f c).causationId = some o.messageId)
      (hfits : ∀ c ∈ expected.nodes.nodes, c.parentKey = some e.key → Fits c (f c))
      (hinj : ∀ c ∈ expected.nodes.nodes, ∀ c' ∈ expected.nodes.nodes, c.parentKey = some e.key →
        c'.parentKey = some e.key → f c = f c' → c = c') : Fits e o

/-- A complete assignment of the children of a node among the messages that a message has caused. -/
structure SiblingAssignment (parent : ExpectedMessageNode) (cause : ObservedMessageNode)
    (f : ExpectedMessageNode → ObservedMessageNode) : Prop where
  caused : ∀ c ∈ expected.nodes.nodes, c.parentKey = some parent.key →
    f c ∈ observed.messages.nodes ∧ (f c).causationId = some cause.messageId
  fits : ∀ c ∈ expected.nodes.nodes, c.parentKey = some parent.key → Fits expected observed c (f c)
  inj : ∀ c ∈ expected.nodes.nodes, ∀ c' ∈ expected.nodes.nodes, c.parentKey = some parent.key →
    c'.parentKey = some parent.key → f c = f c' → c = c'

variable {expected observed}

theorem fits_iff {e : ExpectedMessageNode} {o : ObservedMessageNode} :
    Fits expected observed e o ↔ e ∈ expected.nodes.nodes ∧ o ∈ observed.messages.nodes ∧
      contentMatches e o observed = true ∧ ∃ f, SiblingAssignment expected observed e o f := by
  constructor
  · rintro ⟨f, he, ho, hagrees, hmem, hfits, hinj⟩
    exact ⟨he, ho, hagrees, f, hmem, hfits, hinj⟩
  · rintro ⟨he, ho, hagrees, f, hmem, hfits, hinj⟩
    exact .node f he ho hagrees hmem hfits hinj

/-- An accepted graph is a tree. -/
theorem MessageGraphDefinition.tree (expected : MessageGraphDefinition) :
    MessageTree expected.nodes.nodes := by
  obtain ⟨path, hvalid⟩ := expected.valid
  exact validateGraph_eq_nil_iff.mp hvalid

/-- Below every node a causal map is a complete assignment of the children. -/
theorem CausalMap.fits {φ : ExpectedMessageNode → ObservedMessageNode}
    (hφ : CausalMap expected observed φ) {e : ExpectedMessageNode}
    (he : e ∈ expected.nodes.nodes) : Fits expected observed e (φ e) := by
  obtain ⟨d, hle, hd⟩ := expected.tree.depth e he
  -- from the deepest nodes up
  obtain ⟨n, hn⟩ : ∃ n, n = maximumExpectedGraphDepth - d := ⟨_, rfl⟩
  induction n using Nat.strong_induction_on generalizing e d with
  | _ n ih =>
    refine fits_iff.mpr ⟨he, hφ.mem e he, hφ.agrees e he, φ, fun c hc hkey =>
      ⟨hφ.mem c hc, hφ.child c hc e he hkey⟩, fun c hc hkey => ?_,
      fun c hc c' hc' _ _ heq => hφ.inj c hc c' hc' heq⟩
    obtain ⟨d', hle', hd'⟩ := expected.tree.depth c hc
    have hdeeper : d' = d + 1 :=
      hd'.unique expected.nodes.ids_nodup (.child ⟨hc, he, hkey⟩ hd)
    exact ih (maximumExpectedGraphDepth - d') (by omega) hc d' hle' hd' rfl

end Maps

/-! ## Positions -/

theorem mem_positions {α : Type} {nodes : List α} {condition : α → Bool} {i : Nat} :
    i ∈ positions nodes condition ↔ ∃ node, nodes[i]? = some node ∧ condition node = true := by
  simp only [positions, List.mem_filter, List.mem_range, Option.any_eq_true]
  exact ⟨fun ⟨_, h⟩ => h, fun ⟨node, hi, hc⟩ =>
    ⟨(List.getElem?_eq_some_iff.mp hi).1, node, hi, hc⟩⟩

theorem nodup_positions {α : Type} {nodes : List α} {condition : α → Bool} :
    (positions nodes condition).Nodup := List.nodup_range.filter _

namespace CompleteMatchSearch

variable [Crates] {expected : MessageGraphDefinition} {observed : ObservedMessageSeries}
  {i c : Nat} {e : ExpectedMessageNode} {o : ObservedMessageNode} {key id : String}

theorem expectedKey_new (hi : expected.nodes.nodes[i]? = some e) :
    (new expected observed).expectedKey i = some e.key := by simp [new, hi]

theorem observedId_new {j : Nat} (hj : observed.messages.nodes[j]? = some o) :
    (new expected observed).observedId j = some o.messageId := by simp [new, hj]

theorem nodeMatches_new {j : Nat} (hi : expected.nodes.nodes[i]? = some e)
    (hj : observed.messages.nodes[j]? = some o) :
    (new expected observed).nodeMatches i j = contentMatches e o observed := by simp [new, hi, hj]

theorem mem_expectedChildren_new : c ∈ (new expected observed).expectedChildren key ↔
    ∃ node, expected.nodes.nodes[c]? = some node ∧ node.parentKey = some key := by
  simp [new, mem_positions]

theorem mem_observedChildren_new {j : Nat} : j ∈ (new expected observed).observedChildren id ↔
    ∃ node, observed.messages.nodes[j]? = some node ∧ node.causationId = some id := by
  simp [new, mem_positions]

theorem mem_observedRoots_new {j : Nat} : j ∈ (new expected observed).observedRoots ↔
    ∃ node, observed.messages.nodes[j]? = some node ∧ node.causationId = none := by
  simp [new, mem_positions]

/-- A child, as the parent relation of the graph has it. -/
theorem child_new : (new expected observed).Child i c ↔
    ∃ parent child, expected.nodes.nodes[i]? = some parent ∧ expected.nodes.nodes[c]? = some child ∧
      child.parentKey = some parent.key := by
  constructor
  · rintro ⟨key, hkey, hc⟩
    obtain ⟨child, hchild, hparent⟩ := mem_expectedChildren_new.mp hc
    obtain ⟨parent, hi, rfl⟩ := Option.map_eq_some_iff.mp (show _ = some key from hkey)
    exact ⟨parent, child, hi, hchild, hparent⟩
  · rintro ⟨parent, child, hi, hc, hparent⟩
    exact ⟨parent.key, expectedKey_new hi, mem_expectedChildren_new.mpr ⟨child, hc, hparent⟩⟩

/-- The positions of an accepted graph are a tree. -/
theorem trees_new (expected : MessageGraphDefinition) (observed : ObservedMessageSeries) :
    ∃ depth, (new expected observed).Trees depth expected.nodes.nodes.length := by
  have hacyclic := MessageSeries.acyclic_of_atDepth fun node hnode => by
    obtain ⟨d, -, hd⟩ := expected.tree.depth node hnode
    exact ⟨d, hd⟩
  obtain ⟨depth, hbound, hchild⟩ := exists_depths expected.nodes.parentIndexes_lt fun i hi =>
    grounded_of_findCycles expected.nodes.parentIndexes_lt
      (expected.nodes.findCycles_eq_nil.mpr hacyclic) hi
  rw [expected.nodes.length_parentIndexes] at hbound hchild
  refine ⟨depth, ⟨fun key => ?_, fun id => ?_⟩, fun i c h => ?_, fun i i' c h h' => ?_,
    fun i key hkey => ?_⟩
  · exact (sortBy_perm _ _).nodup_iff.mpr nodup_positions
  · exact (sortBy_perm _ _).nodup_iff.mpr nodup_positions
  · obtain ⟨parent, child, hi, hc, hparent⟩ := child_new.mp h
    exact hchild c (List.getElem?_eq_some_iff.mp hc).1 i
      (expected.nodes.parentOf_parentIndexes.mpr ⟨child, parent, hc, hi, hparent⟩)
  · obtain ⟨parent, child, hi, hc, hparent⟩ := child_new.mp h
    obtain ⟨parent', child', hi', hc', hparent'⟩ := child_new.mp h'
    obtain rfl := Option.some.inj (hc.symm.trans hc')
    exact MessageSeries.index_unique hi hi' (Option.some.inj (hparent.symm.trans hparent'))
  · obtain ⟨node, hi, -⟩ := Option.map_eq_some_iff.mp (show _ = some key from hkey)
    exact hbound i (List.getElem?_eq_some_iff.mp hi).1

/-- A complete assignment of children, by positions. -/
theorem exists_isAssignment {f : ExpectedMessageNode → ObservedMessageNode} {R : Nat → Nat → Prop}
    (hcaused : ∀ c ∈ expected.nodes.nodes, c.parentKey = some key →
      f c ∈ observed.messages.nodes ∧ (f c).causationId = some id)
    (hR : ∀ (i j : Nat) (c : ExpectedMessageNode), c.parentKey = some key → expected.nodes.nodes[i]? = some c →
      observed.messages.nodes[j]? = some (f c) → R i j)
    (hinj : ∀ c ∈ expected.nodes.nodes, ∀ c' ∈ expected.nodes.nodes, c.parentKey = some key →
      c'.parentKey = some key → f c = f c' → c = c') :
    ∃ g, IsAssignment R ((new expected observed).observedChildren id)
        ((new expected observed).expectedChildren key) g ∧
      ∀ (i : Nat) (c : ExpectedMessageNode), expected.nodes.nodes[i]? = some c →
        c.parentKey = some key → observed.messages.nodes[g i]? = some (f c) := by
  have hposition : ∀ i : Nat, ∃ j : Nat, ∀ c : ExpectedMessageNode,
      expected.nodes.nodes[i]? = some c → c.parentKey = some key →
      observed.messages.nodes[j]? = some (f c) := by
    intro i
    rcases hi : expected.nodes.nodes[i]? with _ | c
    · exact ⟨0, fun c hc => by cases hc⟩
    by_cases hkey : c.parentKey = some key
    · obtain ⟨j, hj⟩ := List.mem_iff_getElem?.mp (hcaused c (List.mem_of_getElem? hi) hkey).1
      exact ⟨j, fun c' hc' _ => Option.some.inj hc' ▸ hj⟩
    · exact ⟨0, fun c' hc' hkey' => absurd (Option.some.inj hc' ▸ hkey') hkey⟩
  choose g hg using hposition
  refine ⟨g, ⟨fun i hi => ?_, fun i hi i' hi' heq => ?_⟩, hg⟩
  · obtain ⟨c, hc, hkey⟩ := mem_expectedChildren_new.mp hi
    exact ⟨mem_observedChildren_new.mpr ⟨f c, hg i c hc hkey,
      (hcaused c (List.mem_of_getElem? hc) hkey).2⟩, hR i (g i) c hkey hc (hg i c hc hkey)⟩
  · obtain ⟨c, hc, hkey⟩ := mem_expectedChildren_new.mp hi
    obtain ⟨c', hc', hkey'⟩ := mem_expectedChildren_new.mp hi'
    have hsame : f c = f c' := by
      have h := hg i c hc hkey
      rw [heq, hg i' c' hc' hkey'] at h
      exact (Option.some.inj h).symm
    have := hinj c (List.mem_of_getElem? hc) c' (List.mem_of_getElem? hc') hkey hkey' hsame
    exact MessageSeries.index_unique hc hc' (congrArg ExpectedMessageNode.key this)

/-- Nodes that fit embed at their positions. -/
theorem embeds_of_fits (h : Fits expected observed e o) :
    ∀ {i j : Nat}, expected.nodes.nodes[i]? = some e → observed.messages.nodes[j]? = some o →
      (new expected observed).Embeds i j := by
  induction h with
  | @node e o f he ho hagrees hmem hfits hinj ih =>
    intro i j hi hj
    obtain ⟨g, hg, -⟩ := exists_isAssignment (R := (new expected observed).Embeds) hmem
      (fun (i j : Nat) c hkey hc hcause => ih c (List.mem_of_getElem? hc) hkey hc hcause) hinj
    exact (embeds_iff (expectedKey_new hi) (observedId_new hj)).mpr
      ⟨by rw [nodeMatches_new hi hj, hagrees], g, hg⟩

/-- What embeds at two positions fits. -/
theorem fits_of_embeds {i j : Nat} (h : (new expected observed).Embeds i j) :
    ∀ {e : ExpectedMessageNode} {o : ObservedMessageNode}, expected.nodes.nodes[i]? = some e →
      observed.messages.nodes[j]? = some o → Fits expected observed e o := by
  induction h with
  | @node i j key id hmatch hkey hid f hmem _ hinj ih =>
    intro e o hi hj
    obtain rfl := Option.some.inj (hkey.symm.trans (expectedKey_new hi))
    obtain rfl := Option.some.inj (hid.symm.trans (observedId_new hj))
    -- the message that a child is given
    have hmessage : ∀ c : ExpectedMessageNode, ∃ o' : ObservedMessageNode, ∀ k : Nat,
        expected.nodes.nodes[k]? = some c → c.parentKey = some e.key →
          observed.messages.nodes[f k]? = some o' ∧ o'.causationId = some o.messageId := by
      intro c
      by_cases hc : ∃ k : Nat, expected.nodes.nodes[k]? = some c ∧ c.parentKey = some e.key
      · obtain ⟨k, hk, hparent⟩ := hc
        obtain ⟨o', ho', hcause⟩ := mem_observedChildren_new.mp
          (hmem k (mem_expectedChildren_new.mpr ⟨c, hk, hparent⟩))
        exact ⟨o', fun k' hk' _ => MessageSeries.index_unique hk hk' rfl ▸ ⟨ho', hcause⟩⟩
      · exact ⟨o, fun k hk hparent => absurd ⟨k, hk, hparent⟩ hc⟩
    choose g hg using hmessage
    refine .node g (List.mem_of_getElem? hi) (List.mem_of_getElem? hj)
      (by rwa [nodeMatches_new hi hj] at hmatch) (fun c hc hparent => ?_) (fun c hc hparent => ?_)
      fun c hc c' hc' hparent hparent' heq => ?_
    · obtain ⟨k, hk⟩ := List.mem_iff_getElem?.mp hc
      exact ⟨List.mem_of_getElem? (hg c k hk hparent).1, (hg c k hk hparent).2⟩
    · obtain ⟨k, hk⟩ := List.mem_iff_getElem?.mp hc
      exact ih k (mem_expectedChildren_new.mpr ⟨c, hk, hparent⟩) hk (hg c k hk hparent).1
    · obtain ⟨k, hk⟩ := List.mem_iff_getElem?.mp hc
      obtain ⟨k', hk'⟩ := List.mem_iff_getElem?.mp hc'
      have hsame : f k = f k' := MessageSeries.index_unique (hg c k hk hparent).1
        (hg c' k' hk' hparent').1 (congrArg ObservedMessageNode.messageId heq)
      have := hinj k (mem_expectedChildren_new.mpr ⟨c, hk, hparent⟩) k'
        (mem_expectedChildren_new.mpr ⟨c', hk', hparent'⟩) hsame
      subst this
      exact Option.some.inj (hk.symm.trans hk')

/-! ## What is written -/

section Written

variable {r j : Nat} {l : List (Nat × Nat)}

omit [Crates] in
/-- Entries in the assignment: one for every key that is written. -/
theorem lookup_writeEntry {S : CompleteMatchSearch Nat Nat}
    (assignment : Finmap fun _ : String => String)
    (hnodup : (l.map fun entry => S.expectedKey entry.1).Nodup)
    (hdefined : ∀ entry ∈ l, ∃ key id, S.expectedKey entry.1 = some key ∧
      S.observedId entry.2 = some id) (key : String) :
    (∀ entry ∈ l, S.expectedKey entry.1 = some key →
        (l.foldl S.writeEntry assignment).lookup key = S.observedId entry.2) ∧
      ((∀ entry ∈ l, S.expectedKey entry.1 ≠ some key) →
        (l.foldl S.writeEntry assignment).lookup key = assignment.lookup key) := by
  induction l generalizing assignment with
  | nil => exact ⟨fun _ h => absurd h List.not_mem_nil, fun _ => rfl⟩
  | cons first l ih =>
    rw [List.map_cons, List.nodup_cons] at hnodup
    obtain ⟨hfresh, hnodup⟩ := hnodup
    obtain ⟨k, id, hk, hid⟩ := hdefined first List.mem_cons_self
    have hwrite : S.writeEntry assignment first = assignment.insert k id := by
      rw [writeEntry, hk, hid]
    obtain ⟨hthere, hother⟩ := ih (assignment.insert k id) hnodup
      (fun entry hentry => hdefined entry (List.mem_cons_of_mem _ hentry))
    rw [List.foldl_cons, hwrite]
    refine ⟨fun entry hentry hkey => ?_, fun hnone => ?_⟩
    · rcases List.mem_cons.mp hentry with rfl | hentry
      · obtain rfl := Option.some.inj (hk.symm.trans hkey)
        rw [hother fun other hmem hsame => hfresh (List.mem_map.mpr ⟨other, hmem, hsame.trans hk.symm⟩),
          Finmap.lookup_insert, hid]
      · exact hthere entry hentry hkey
    · have hne : key ≠ k := fun heq => hnone first List.mem_cons_self (heq ▸ hk)
      rw [hother fun entry hentry => hnone entry (List.mem_cons_of_mem _ hentry),
        Finmap.lookup_insert_of_ne _ hne]

/-- The node at a position of the list is below the root. -/
theorem below_root {root : ExpectedMessageNode} (hroot : expected.nodes.nodes[r]? = some root)
    (h : Relation.ReflTransGen (CausedBy expected.nodes.nodes) e root) :
    ∀ {i : Nat}, expected.nodes.nodes[i]? = some e →
      Relation.ReflTransGen (new expected observed).Child r i := by
  induction h using Relation.ReflTransGen.head_induction_on with
  | refl =>
    intro i hi
    rw [MessageSeries.index_unique hi hroot rfl]
  | @head e parent hcaused _ ih =>
    intro i hi
    obtain ⟨k, hk⟩ := List.mem_iff_getElem?.mp hcaused.2.1
    exact (ih hk).tail (child_new.mpr ⟨parent, e, hk, hi, hcaused.2.2⟩)

/-- The message of an entry. -/
theorem exists_message {i k : Nat} (h : (new expected observed).Written r j l)
    (hmem : (i, k) ∈ l) : ∃ e o, expected.nodes.nodes[i]? = some e ∧
      observed.messages.nodes[k]? = some o ∧ contentMatches e o observed = true := by
  obtain ⟨key, id, pairs, hmatch, hkey, hid, -⟩ := h.entry hmem
  obtain ⟨e, he, -⟩ := Option.map_eq_some_iff.mp (show _ = some key from hkey)
  obtain ⟨o, ho, -⟩ := Option.map_eq_some_iff.mp (show _ = some id from hid)
  exact ⟨e, o, he, ho, by rwa [nodeMatches_new he ho] at hmatch⟩

/-- The map is the one of the entries. -/
def MapsBy (expected : MessageGraphDefinition) (observed : ObservedMessageSeries)
    (φ : ExpectedMessageNode → ObservedMessageNode) (l : List (Nat × Nat)) : Prop :=
  ∀ i e, expected.nodes.nodes[i]? = some e → ∃ k, (i, k) ∈ l ∧
    observed.messages.nodes[k]? = some (φ e)

theorem exists_mapsBy (h : (new expected observed).Written r j l) {root : ExpectedMessageNode}
    (hroot : expected.nodes.nodes[r]? = some root) (hcause : root.parentKey = none) :
    ∃ φ, MapsBy expected observed φ l := by
  obtain ⟨root', hroot', -, -, -, hone, hreach⟩ := expected.tree.root
  obtain rfl := hone root (List.mem_of_getElem? hroot) hcause
  obtain ⟨-, first, -, -, -⟩ := exists_message h h.head
  have hmessage : ∀ e, ∃ o, ∀ i, expected.nodes.nodes[i]? = some e → ∃ k, (i, k) ∈ l ∧
      observed.messages.nodes[k]? = some o := by
    intro e
    by_cases he : e ∈ expected.nodes.nodes
    · obtain ⟨i, hi⟩ := List.mem_iff_getElem?.mp he
      obtain ⟨k, hk⟩ := h.exists_entry (below_root hroot (hreach e he) hi)
      obtain ⟨-, o, -, ho, -⟩ := exists_message h hk
      exact ⟨o, fun i' hi' => MessageSeries.index_unique hi hi' rfl ▸ ⟨k, hk, ho⟩⟩
    · exact ⟨first, fun i hi => absurd (List.mem_of_getElem? hi) he⟩
  choose φ hφ using hmessage
  exact ⟨φ, fun i e hi => hφ e i hi⟩

section Maps

variable {φ : ExpectedMessageNode → ObservedMessageNode} (h : (new expected observed).Written r j l)
  (hφ : MapsBy expected observed φ l)
include h hφ

/-- An entry is of a node and its message. -/
theorem entry_mapsBy {i k : Nat} {e : ExpectedMessageNode} (hi : expected.nodes.nodes[i]? = some e)
    (hmem : (i, k) ∈ l) : observed.messages.nodes[k]? = some (φ e) := by
  obtain ⟨depth, hS⟩ := trees_new expected observed
  obtain ⟨k', hk', ho⟩ := hφ i e hi
  have hsame : k = k' :=
    congrArg Prod.snd (List.inj_on_of_nodup_map (h.nodup hS) hmem hk' rfl)
  rwa [hsame]

/-- The sibling assignment that was written for the children of a node. -/
theorem exists_pairs {p : ExpectedMessageNode} (hp : p ∈ expected.nodes.nodes) :
    ∃ pairs, (new expected observed).Pairs ((new expected observed).expectedChildren p.key)
        ((new expected observed).observedChildren (φ p).messageId) pairs ∧
      (new expected observed).FirstServed ((new expected observed).expectedChildren p.key)
        ((new expected observed).observedChildren (φ p).messageId) pairs ∧
      ∀ i k c, (i, k) ∈ pairs → expected.nodes.nodes[i]? = some c →
        observed.messages.nodes[k]? = some (φ c) := by
  obtain ⟨i, hi⟩ := List.mem_iff_getElem?.mp hp
  obtain ⟨k, hmem, hk⟩ := hφ i p hi
  obtain ⟨key, id, pairs, -, hkey, hid, hpairs, hfirst, hsub⟩ := h.entry hmem
  obtain rfl := Option.some.inj (hkey.symm.trans (expectedKey_new hi))
  obtain rfl := Option.some.inj (hid.symm.trans (observedId_new hk))
  exact ⟨pairs, hpairs, hfirst, fun i k c hmem hc => entry_mapsBy h hφ hc (hsub hmem)⟩

theorem caused_mapsBy {c p : ExpectedMessageNode} (hc : c ∈ expected.nodes.nodes)
    (hp : p ∈ expected.nodes.nodes) (hparent : c.parentKey = some p.key) :
    (φ c).causationId = some (φ p).messageId := by
  obtain ⟨pairs, hpairs, -, hmap⟩ := exists_pairs h hφ hp
  obtain ⟨i, hi⟩ := List.mem_iff_getElem?.mp hc
  obtain ⟨⟨i', k⟩, hpair, rfl⟩ := List.mem_map.mp (hpairs.perm.mem_iff.mpr
    (mem_expectedChildren_new.mpr ⟨c, hi, hparent⟩))
  obtain ⟨o, ho, hcause⟩ := mem_observedChildren_new.mp (hpairs.embeds _ hpair).1
  have := hmap i' k c hpair hi
  rwa [Option.some.inj (ho.symm.trans this)] at hcause

/-- Siblings have different messages. -/
theorem siblings_mapsBy {c c' p : ExpectedMessageNode} (hc : c ∈ expected.nodes.nodes)
    (hc' : c' ∈ expected.nodes.nodes) (hp : p ∈ expected.nodes.nodes)
    (hparent : c.parentKey = some p.key) (hparent' : c'.parentKey = some p.key)
    (heq : φ c = φ c') : c = c' := by
  obtain ⟨pairs, hpairs, -, hmap⟩ := exists_pairs h hφ hp
  obtain ⟨i, hi⟩ := List.mem_iff_getElem?.mp hc
  obtain ⟨i', hi'⟩ := List.mem_iff_getElem?.mp hc'
  obtain ⟨⟨_, k⟩, hpair, rfl⟩ := List.mem_map.mp (hpairs.perm.mem_iff.mpr
    (mem_expectedChildren_new.mpr ⟨c, hi, hparent⟩))
  obtain ⟨⟨_, k'⟩, hpair', rfl⟩ := List.mem_map.mp (hpairs.perm.mem_iff.mpr
    (mem_expectedChildren_new.mpr ⟨c', hi', hparent'⟩))
  have hsame : k = k' := MessageSeries.index_unique (hmap _ k c hpair hi) (hmap _ k' c' hpair' hi')
    (congrArg ObservedMessageNode.messageId heq)
  have := List.inj_on_of_nodup_map hpairs.nodup hpair hpair' hsame
  obtain ⟨rfl, -⟩ := Prod.ext_iff.mp this
  exact Option.some.inj (hi.symm.trans hi')

/-- What is written is a causal map. -/
theorem causalMap_of_written {root : ExpectedMessageNode}
    (hroot : expected.nodes.nodes[r]? = some root) (hcause : root.parentKey = none)
    (hj : j ∈ (new expected observed).observedRoots) : CausalMap expected observed φ := by
  obtain ⟨root', -, -, -, -, hone, -⟩ := expected.tree.root
  have huncaused : ∀ e ∈ expected.nodes.nodes, e.parentKey = none → (φ e).causationId = none := by
    intro e he hnone
    obtain rfl : e = root :=
      (hone e he hnone).trans (hone root (List.mem_of_getElem? hroot) hcause).symm
    obtain ⟨o, ho, hnone⟩ := mem_observedRoots_new.mp hj
    rwa [Option.some.inj (ho.symm.trans (entry_mapsBy h hφ hroot h.head))] at hnone
  have hmem : ∀ e ∈ expected.nodes.nodes, φ e ∈ observed.messages.nodes ∧
      contentMatches e (φ e) observed = true := by
    intro e he
    obtain ⟨i, hi⟩ := List.mem_iff_getElem?.mp he
    obtain ⟨k, hk, ho⟩ := hφ i e hi
    obtain ⟨e', o, he', ho', hagrees⟩ := exists_message h hk
    obtain rfl := Option.some.inj (hi.symm.trans he')
    obtain rfl := Option.some.inj (ho.symm.trans ho')
    exact ⟨List.mem_of_getElem? ho, hagrees⟩
  have hcaused := fun e he p hp hparent => @caused_mapsBy _ expected observed r j l φ h hφ e p he hp hparent
  refine ⟨fun e he => (hmem e he).1, fun e he => (hmem e he).2, huncaused, hcaused,
    fun e he e' he' heq => ?_⟩
  -- nodes with one message have parents with one message
  obtain ⟨d, -, hd⟩ := expected.tree.depth e he
  induction hd generalizing e' with
  | @root e _ hnone =>
    by_cases hnone' : e'.parentKey = none
    · exact (hone e he hnone).trans (hone e' he' hnone').symm
    · obtain ⟨d', -, hd'⟩ := expected.tree.depth e' he'
      cases hd' with
      | root _ hcause' => exact absurd hcause' hnone'
      | @child _ parent' _ hcaused' _ =>
        have hlink := hcaused e' he' parent' hcaused'.2.1 hcaused'.2.2
        rw [← heq, huncaused e he hnone] at hlink
        cases hlink
  | @child e parent _ hlink hparent ih =>
    have hfirst := hcaused e he parent hlink.2.1 hlink.2.2
    obtain ⟨d', -, hd'⟩ := expected.tree.depth e' he'
    cases hd' with
    | root _ hnone =>
      rw [heq, huncaused e' he' hnone] at hfirst
      cases hfirst
    | @child _ parent' _ hlink' _ =>
      have hsecond := hcaused e' he' parent' hlink'.2.1 hlink'.2.2
      rw [heq, hsecond, Option.some.injEq] at hfirst
      have hsame : φ parent = φ parent' := observed.messages.eq_of_messageId
        (hmem parent hlink.2.1).1 (hmem parent' hlink'.2.1).1 hfirst.symm
      obtain rfl := ih hlink.2.1 parent' hlink'.2.1 hsame
      exact siblings_mapsBy h hφ he he' hlink.2.1 hlink.2.2 hlink'.2.2 heq

/-- The child with the least key has the first message that an assignment can give it. -/
theorem first_mapsBy {p c : ExpectedMessageNode} (hp : p ∈ expected.nodes.nodes)
    (hc : c ∈ expected.nodes.nodes) (hparent : c.parentKey = some p.key)
    (hleast : ∀ c' ∈ expected.nodes.nodes, c'.parentKey = some p.key → c.key ≤ c'.key)
    {f : ExpectedMessageNode → ObservedMessageNode}
    (hf : SiblingAssignment expected observed p (φ p) f) :
    observedOrder observed (φ c) ≤ observedOrder observed (f c) := by
  obtain ⟨pairs, hpairs, hfirst, hmap⟩ := exists_pairs h hφ hp
  obtain ⟨i, hi⟩ := List.mem_iff_getElem?.mp hc
  have hmem : i ∈ (new expected observed).expectedChildren p.key :=
    mem_expectedChildren_new.mpr ⟨c, hi, hparent⟩
  -- the child is the first of the sorted children
  obtain ⟨rest, hchildren⟩ : ∃ rest, (new expected observed).expectedChildren p.key = i :: rest := by
    rcases hlist : (new expected observed).expectedChildren p.key with _ | ⟨i', rest⟩
    · rw [hlist] at hmem
      cases hmem
    · have hsorted : ((new expected observed).expectedChildren p.key).Pairwise
          (KeyOrder fun i => ((expected.nodes.nodes[i]?).map ExpectedMessageNode.key).getD "") :=
        pairwise_sortBy _ _
      obtain ⟨c', hc', hparent'⟩ := mem_expectedChildren_new.mp
        (hlist ▸ List.mem_cons_self : i' ∈ (new expected observed).expectedChildren p.key)
      rw [hlist] at hmem hsorted
      rcases List.mem_cons.mp hmem with rfl | hlater
      · exact ⟨rest, rfl⟩
      · have hle := (List.pairwise_cons.mp hsorted).1 i hlater
        simp only [KeyOrder, hc', hi, Option.map_some, Option.getD_some] at hle
        have hkeys := le_antisymm hle (hleast c' (List.mem_of_getElem? hc') hparent')
        exact ⟨rest, by rw [MessageSeries.index_unique hc' hi hkeys]⟩
  obtain ⟨before, k, after, hsplit, hpair, hserved⟩ := hfirst i rest hchildren
  have hk := hmap i k c hpair hi
  obtain ⟨g, hg, hmessage⟩ := exists_isAssignment (R := (new expected observed).Embeds) hf.caused
    (fun (a b : Nat) c' hkey' ha hb => embeds_of_fits
      (hf.fits c' (List.mem_of_getElem? ha) hkey') ha hb) hf.inj
  have hplace := (hg.suits i hmem).1
  have hnot := hserved g hg
  have hsorted : ((new expected observed).observedChildren (φ p).messageId).Pairwise
      (KeyOrder fun i => ((observed.messages.nodes[i]?).map (observedOrder observed)).getD
        (toLex ([], ""))) := pairwise_sortBy _ _
  rw [hsplit] at hplace hsorted
  rcases List.mem_append.mp hplace with hbefore | hplace
  · exact absurd hbefore hnot
  rcases List.mem_cons.mp hplace with hsame | hafter
  · have := hmessage i c hi hparent
    rw [hsame, hk] at this
    rw [Option.some.inj this]
  · have hle := (List.pairwise_cons.mp (List.pairwise_append.mp hsorted).2.1).1 _ hafter
    simpa only [KeyOrder, hk, hmessage i c hi hparent, Option.map_some, Option.getD_some] using hle

/-- The assignment has the message of every node under its key. -/
theorem lookup_mapsBy (key : String) :
    (l.foldl (new expected observed).writeEntry ∅).lookup key =
      (expected.nodes.get key).map fun e => (φ e).messageId := by
  obtain ⟨depth, hS⟩ := trees_new expected observed
  have hdefined : ∀ entry ∈ l, ∃ key id, (new expected observed).expectedKey entry.1 = some key ∧
      (new expected observed).observedId entry.2 = some id := by
    rintro ⟨i, k⟩ hentry
    obtain ⟨key, id, -, -, hkey, hid, -⟩ := h.entry hentry
    exact ⟨key, id, hkey, hid⟩
  have hkeys : (l.map fun entry => (new expected observed).expectedKey entry.1).Nodup := by
    refine (List.Nodup.of_map _ (h.nodup hS)).map_on ?_
    rintro ⟨i, k⟩ hentry ⟨i', k'⟩ hentry' heq
    obtain ⟨e, -, he, -⟩ := exists_message h hentry
    obtain ⟨e', -, he', -⟩ := exists_message h hentry'
    rw [expectedKey_new he, expectedKey_new he'] at heq
    exact List.inj_on_of_nodup_map (h.nodup hS) hentry hentry'
      (MessageSeries.index_unique he he' (Option.some.inj heq))
  obtain ⟨hthere, hother⟩ := lookup_writeEntry ∅ hkeys hdefined key
  rcases hget : expected.nodes.get key with _ | e
  · rw [hother fun entry hentry hkey => ?_]
    · rfl
    obtain ⟨e, -, he, -⟩ := exists_message h hentry
    rw [expectedKey_new he, Option.some.injEq] at hkey
    exact expected.nodes.get_eq_none.mp hget e (List.mem_of_getElem? he) hkey
  · obtain ⟨he, rfl⟩ := expected.nodes.get_eq_some.mp hget
    obtain ⟨i, hi⟩ := List.mem_iff_getElem?.mp he
    obtain ⟨k, hk, ho⟩ := hφ i e hi
    rw [hthere (i, k) hk (expectedKey_new hi), observedId_new ho]
    rfl

end Maps

end Written

end CompleteMatchSearch

/-! ## The answers -/

variable [Crates]

/-- A causal map that is found: the assignment names the message of every node, and nothing else;
the children of a node are all assigned, and the one with the least key has the first message, by
content and identity, that any complete assignment of the children can give it. -/
structure FoundMap (expected : MessageGraphDefinition) (observed : ObservedMessageSeries)
    (φ : ExpectedMessageNode → ObservedMessageNode) (assignment : Finmap fun _ : String => String) :
    Prop where
  causal : CausalMap expected observed φ
  entries : ∀ key, assignment.lookup key = (expected.nodes.get key).map fun e => (φ e).messageId
  siblings : ∀ p ∈ expected.nodes.nodes, SiblingAssignment expected observed p (φ p) φ
  first : ∀ p ∈ expected.nodes.nodes, ∀ c ∈ expected.nodes.nodes, c.parentKey = some p.key →
    (∀ c' ∈ expected.nodes.nodes, c'.parentKey = some p.key → c.key ≤ c'.key) →
    ∀ f, SiblingAssignment expected observed p (φ p) f →
      observedOrder observed (φ c) ≤ observedOrder observed (f c)

end Rostfrei.Tracer
