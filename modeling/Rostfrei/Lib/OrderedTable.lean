import Mathlib

/-!
# Tables with a queue of their keys

A table of values by key, and the queue of its keys in the order in which they came. In a
`Consistent` table the queue lists the keys, each of them once.
-/

namespace Lib

universe u v

variable {κ : Type u} {α : Type v}

structure OrderedTable (κ : Type u) (α : Type v) where
  records : AList fun _ : κ => α
  insertionOrder : List κ

namespace OrderedTable

def empty : OrderedTable κ α := ⟨∅, []⟩

/-- The number of records. -/
def length (t : OrderedTable κ α) : Nat := t.records.keys.length

/-- The first key goes to the end of the queue. -/
def rotate (t : OrderedTable κ α) : OrderedTable κ α :=
  { t with insertionOrder := t.insertionOrder.tail ++ t.insertionOrder.head?.toList }

def Consistent (t : OrderedTable κ α) : Prop := t.insertionOrder.Perm t.records.keys

variable {t : OrderedTable κ α} {k l : κ} {a b : α} {p : α → Bool}

theorem Consistent.nodup (h : t.Consistent) : t.insertionOrder.Nodup :=
  h.nodup_iff.mpr t.records.keys_nodup

theorem Consistent.length_eq (h : t.Consistent) : t.insertionOrder.length = t.length :=
  List.Perm.length_eq h

theorem consistent_empty : (empty : OrderedTable κ α).Consistent := .refl _

@[simp] theorem length_rotate : t.rotate.length = t.length := rfl

theorem Consistent.rotate (h : t.Consistent) : t.rotate.Consistent := by
  refine List.Perm.trans ?_ h
  rw [OrderedTable.rotate]
  cases t.insertionOrder with
  | nil => exact .refl _
  | cons k order => exact List.perm_append_comm

variable [DecidableEq κ]

def get? (t : OrderedTable κ α) (k : κ) : Option α := t.records.lookup k

/-- A new record at the end of the queue. -/
def push (t : OrderedTable κ α) (k : κ) (a : α) : OrderedTable κ α :=
  ⟨t.records.insert k a, t.insertionOrder ++ [k]⟩

def remove (t : OrderedTable κ α) (k : κ) : OrderedTable κ α :=
  ⟨t.records.erase k, t.insertionOrder.filter (· ≠ k)⟩

/-- The records that pass a test. -/
def retain (t : OrderedTable κ α) (p : α → Bool) : OrderedTable κ α :=
  let records : AList fun _ : κ => α :=
    ⟨t.records.entries.filter fun e => p e.2, t.records.nodupKeys.sublist List.filter_sublist⟩
  ⟨records, t.insertionOrder.filter (· ∈ records.keys)⟩

@[simp] theorem get?_empty : (empty : OrderedTable κ α).get? k = none := rfl

@[simp] theorem get?_push_self : (t.push k a).get? k = some a := AList.lookup_insert _

theorem get?_push_of_ne (h : l ≠ k) : (t.push k a).get? l = t.get? l := AList.lookup_insert_ne h

@[simp] theorem get?_remove_self : (t.remove k).get? k = none := AList.lookup_erase _ _

theorem get?_remove_of_ne (h : l ≠ k) : (t.remove k).get? l = t.get? l := AList.lookup_erase_ne h

@[simp] theorem get?_rotate : t.rotate.get? k = t.get? k := rfl

theorem get?_retain : (t.retain p).get? k = some a ↔ t.get? k = some a ∧ p a = true := by
  have hmem (s : AList fun _ : κ => α) : s.lookup k = some a ↔ ⟨k, a⟩ ∈ s.entries :=
    AList.mem_lookup_iff
  rw [get?, get?, hmem, hmem, retain]
  simp

theorem mem_keys : k ∈ t.records.keys ↔ (t.get? k).isSome := by
  rw [get?, AList.lookup_isSome, AList.mem_keys]

theorem get?_eq_none : t.get? k = none ↔ k ∉ t.records.keys := by
  rw [mem_keys, Option.isSome_iff_ne_none, not_not]

theorem mem_values : a ∈ t.records.entries.map (·.2) ↔ ∃ k, t.get? k = some a := by
  have hmem (k : κ) : t.get? k = some a ↔ ⟨k, a⟩ ∈ t.records.entries := AList.mem_lookup_iff
  constructor
  · intro h
    obtain ⟨⟨k, b⟩, he, rfl⟩ := List.mem_map.mp h
    exact ⟨k, (hmem k).mpr he⟩
  · rintro ⟨k, hk⟩
    exact List.mem_map.mpr ⟨⟨k, a⟩, (hmem k).mp hk, rfl⟩

/-- The queue lists the keys. -/
theorem Consistent.mem (h : t.Consistent) : k ∈ t.insertionOrder ↔ (t.get? k).isSome :=
  h.mem_iff.trans mem_keys

theorem Consistent.push (h : t.Consistent) (hk : t.get? k = none) : (t.push k a).Consistent := by
  rw [get?_eq_none] at hk
  rw [Consistent, OrderedTable.push, AList.keys_insert, List.erase_of_not_mem hk]
  exact List.perm_append_comm.trans (h.cons k)

theorem length_push (hk : t.get? k = none) : (t.push k a).length = t.length + 1 := by
  rw [get?_eq_none] at hk
  rw [length, OrderedTable.push, AList.keys_insert, List.erase_of_not_mem hk, List.length_cons,
    length]

theorem Consistent.remove (h : t.Consistent) : (t.remove k).Consistent := by
  rw [Consistent, OrderedTable.remove, AList.keys_erase,
    t.records.keys_nodup.erase_eq_filter]
  refine (h.filter _).trans (.of_eq (List.filter_congr fun l _ => ?_))
  exact decide_not.trans (congrArg _ (beq_eq_decide l k).symm)

theorem length_remove (hk : (t.get? k).isSome) : (t.remove k).length + 1 = t.length := by
  rw [length, OrderedTable.remove, AList.keys_erase, List.length_erase_of_mem (mem_keys.mpr hk)]
  exact Nat.sub_add_cancel (List.length_pos_of_mem (mem_keys.mpr hk))

theorem length_remove_le : (t.remove k).length ≤ t.length := by
  rw [length, OrderedTable.remove, AList.keys_erase]
  exact List.length_erase_le

/-- The first key of the queue is taken out. -/
theorem remove_head (h : t.Consistent) {order : List κ} (horder : t.insertionOrder = k :: order) :
    ⟨t.records.erase k, order⟩ = t.remove k := by
  have hnodup := h.nodup
  rw [horder, List.nodup_cons] at hnodup
  rw [OrderedTable.remove, horder]
  congr 1
  rw [List.filter_cons_of_neg (by simp)]
  exact (List.filter_eq_self.mpr fun l hl => by
    simpa using ne_of_mem_of_not_mem hl hnodup.1).symm

/-- A removed key leaves no gap in a table that has just got it. -/
theorem remove_push (h : t.Consistent) (hk : t.get? k = none) : (t.push k a).remove k = t := by
  have hkeys := get?_eq_none.mp hk
  have horder : k ∉ t.insertionOrder := fun hmem => hkeys (h.mem_iff.mp hmem)
  rw [push, remove, List.filter_append]
  congr 1
  · rw [AList.insert_of_notMem (by rwa [AList.mem_keys])]
    exact AList.ext (by simp [AList.erase, List.kerase])
  · simp only [ne_eq, decide_not, List.filter_cons, decide_true, Bool.not_true,
      Bool.false_eq_true, if_false, List.filter_nil, List.append_nil]
    exact List.filter_eq_self.mpr fun l hl => by simpa using ne_of_mem_of_not_mem hl horder

theorem Consistent.retain (h : t.Consistent) : (t.retain p).Consistent := by
  rw [Consistent, OrderedTable.retain]
  refine (List.perm_ext_iff_of_nodup (h.nodup.filter _) (AList.keys_nodup _)).mpr fun k => ?_
  rw [List.mem_filter, decide_eq_true_eq, and_iff_right_of_imp]
  intro hk
  rw [h.mem_iff]
  exact (List.filter_sublist.map _).subset hk

theorem length_retain_le : (t.retain p).length ≤ t.length := by
  exact (List.filter_sublist.map _).length_le

end OrderedTable

end Lib
