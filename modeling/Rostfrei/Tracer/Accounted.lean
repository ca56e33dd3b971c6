import Rostfrei.Concrete
import Rostfrei.Tracer.Hub

/-!
# What the hub promises

`Accounted` is about the budgets: a budget is the sum of what its open records retain. `Linked` is
about the numbers of records in the table, in the subscriptions and in the calls. Each step keeps
both (`Correlations.invariant`), and `correlations_sound` says what follows from them.
-/

namespace Rostfrei.Tracer

open Lib Messaging

/-! ## Budgets -/

/-- What an open record retains of the budget of a mode. -/
def CorrelationRecord.openBytes (mode : OperationMode) (record : CorrelationRecord) : Nat :=
  if record.closed = false ∧ mode.SharesBudget record.mode then record.evidence.retainedBytes else 0

namespace CorrelationHub

variable {hub : CorrelationHub} {i j : Nat} {record record' : CorrelationRecord}
  {mode other : OperationMode} {budget : RawEvidenceBudget}

structure Accounted (hub : CorrelationHub) : Prop where
  retained : ∀ mode,
    (hub.rawEvidenceBudget mode).retainedBytes = hub.arena.total (CorrelationRecord.openBytes mode)
  maximum : ∀ mode,
    (hub.rawEvidenceBudget mode).maximumBytes = maximumRawEvidenceBytesPerCapability
  bounded : ∀ mode,
    (hub.rawEvidenceBudget mode).retainedBytes ≤ maximumRawEvidenceBytesPerCapability
  closed : ∀ i record, hub.arena.get? i = some record → record.closed = true →
    record.evidence = .empty

theorem rawEvidenceBudget_set :
    (hub.setRawEvidenceBudget mode budget).rawEvidenceBudget other =
      if other.SharesBudget mode then budget else hub.rawEvidenceBudget other := by
  cases mode <;> cases other <;> simp [setRawEvidenceBudget, rawEvidenceBudget,
    OperationMode.SharesBudget]

theorem rawEvidenceBudget_congr (h : other.SharesBudget mode) :
    hub.rawEvidenceBudget other = hub.rawEvidenceBudget mode := by
  cases mode <;> cases other <;> simp_all [rawEvidenceBudget, OperationMode.SharesBudget]

@[simp] theorem rawEvidenceBudget_setRecord :
    (hub.setRecord i record).rawEvidenceBudget mode = hub.rawEvidenceBudget mode := by
  cases mode <;> rfl

@[simp] theorem arena_setRawEvidenceBudget :
    (hub.setRawEvidenceBudget mode budget).arena = hub.arena := by
  cases mode <;> rfl

@[simp] theorem table_setRawEvidenceBudget :
    (hub.setRawEvidenceBudget mode budget).table = hub.table := by
  cases mode <;> rfl

@[simp] theorem maximumCorrelations_setRawEvidenceBudget :
    (hub.setRawEvidenceBudget mode budget).maximumCorrelations = hub.maximumCorrelations := by
  cases mode <;> rfl

namespace Accounted

theorem new (maximumCorrelations : Nat) : (CorrelationHub.new maximumCorrelations).Accounted where
  retained mode := by cases mode <;> rfl
  maximum mode := by cases mode <;> rfl
  bounded mode := by cases mode <;> exact Nat.zero_le _
  closed _ _ h := by cases h

/-- What a record retains of its budget, also if it is closed. -/
theorem openBytes_eq (h : hub.Accounted) (hget : hub.arena.get? i = some record) :
    record.openBytes mode =
      if mode.SharesBudget record.mode then record.evidence.retainedBytes else 0 := by
  rw [CorrelationRecord.openBytes]
  cases hclosed : record.closed with
  | false => simp
  | true => simp [h.closed i record hget hclosed, CorrelationEvidenceState.empty]

/-- Another record with the same bytes. -/
theorem setRecord (h : hub.Accounted) (hget : hub.arena.get? i = some record)
    (hbytes : ∀ mode, record'.openBytes mode = record.openBytes mode)
    (hclosed : record'.closed = true → record'.evidence = .empty) :
    (hub.setRecord i record').Accounted where
  retained mode := by
    have := @Arena.total_set _ _ _ record' _ (CorrelationRecord.openBytes mode) hget
    rw [hbytes mode] at this
    rw [rawEvidenceBudget_setRecord, h.retained mode]
    exact (Nat.add_right_cancel this).symm
  maximum mode := by rw [rawEvidenceBudget_setRecord, h.maximum mode]
  bounded mode := by
    rw [rawEvidenceBudget_setRecord]
    exact h.bounded mode
  closed j other hother := by
    by_cases hij : i = j
    · subst hij
      rw [CorrelationHub.setRecord, Arena.get?_set_self hget] at hother
      rwa [← Option.some.inj hother]
    · rw [CorrelationHub.setRecord, Arena.get?_set_of_ne hij] at hother
      exact h.closed j other hother

/-- A record that retains `bytes` afterwards, with a budget that says so. -/
theorem charge (h : hub.Accounted) (hget : hub.arena.get? i = some record) {hub' : CorrelationHub}
    {bytes : Nat}
    (hbudget : ∀ other, hub'.rawEvidenceBudget other =
      if other.SharesBudget record.mode then budget else hub.rawEvidenceBudget other)
    (hmaximum : budget.maximumBytes = maximumRawEvidenceBytesPerCapability)
    (hbounded : budget.retainedBytes ≤ maximumRawEvidenceBytesPerCapability)
    (hretained : budget.retainedBytes + record.evidence.retainedBytes =
      (hub.rawEvidenceBudget record.mode).retainedBytes + bytes)
    (htotal : ∀ mode, hub'.arena.total (CorrelationRecord.openBytes mode) +
        record.openBytes mode =
      hub.arena.total (CorrelationRecord.openBytes mode) +
        if mode.SharesBudget record.mode then bytes else 0)
    (hclosed : ∀ j other, hub'.arena.get? j = some other → other.closed = true →
      other.evidence = .empty) : hub'.Accounted where
  retained mode := by
    have hmode := htotal mode
    have hbefore := h.retained mode
    rw [h.openBytes_eq hget] at hmode
    rw [hbudget mode]
    by_cases hshares : mode.SharesBudget record.mode
    · rw [rawEvidenceBudget_congr hshares] at hbefore
      simp only [hshares, if_true] at hmode ⊢
      omega
    · simp only [hshares, if_false, Nat.add_zero] at hmode ⊢
      rw [hbefore, hmode]
  maximum mode := by
    rw [hbudget mode]
    split
    · exact hmaximum
    · exact h.maximum mode
  bounded mode := by
    rw [hbudget mode]
    split
    · exact hbounded
    · exact h.bounded mode
  closed := hclosed

theorem retainedBytes_le (h : hub.Accounted) (hget : hub.arena.get? i = some record) :
    record.evidence.retainedBytes ≤ (hub.rawEvidenceBudget record.mode).retainedBytes := by
  have hle := @Arena.le_total _ _ _ _ (CorrelationRecord.openBytes record.mode) hget
  rw [h.openBytes_eq hget, if_pos (show record.mode.SharesBudget record.mode from Iff.rfl)] at hle
  rwa [h.retained record.mode]

/-- Evidence of an open record is replaced by other evidence. -/
theorem replace (h : hub.Accounted) (hget : hub.arena.get? i = some record)
    (hopen : record.closed = false) {evidence : CorrelationEvidenceState}
    (hreplace : (hub.rawEvidenceBudget record.mode).replace record.evidence.retainedBytes
      evidence.retainedBytes = .ok budget) :
    ((hub.setRawEvidenceBudget record.mode budget).setRecord i
      { record with evidence := evidence }).Accounted := by
  obtain ⟨hmaximum, hbounded, hretained⟩ := RawEvidenceBudget.replace_eq_ok hreplace
  refine h.charge hget (fun other => by rw [rawEvidenceBudget_setRecord, rawEvidenceBudget_set])
    (hmaximum.trans (h.maximum _)) ((h.maximum record.mode) ▸ hbounded) hretained
    (fun mode => ?_) fun j other hother hclosed => ?_
  · have := @Arena.total_set _ _ _ { record with evidence := evidence } _
      (CorrelationRecord.openBytes mode) hget
    refine Eq.trans (congrArg (fun arena : Arena CorrelationRecord =>
      arena.total _ + _) ?_) (this.trans ?_)
    · simp only [CorrelationHub.setRecord, arena_setRawEvidenceBudget]
    · simp only [CorrelationRecord.openBytes, hopen, true_and]
  · simp only [CorrelationHub.setRecord, arena_setRawEvidenceBudget] at hother
    by_cases hij : i = j
    · subst hij
      rw [Arena.get?_set_self hget] at hother
      obtain rfl := Option.some.inj hother
      simp [hopen] at hclosed
    · rw [Arena.get?_set_of_ne hij] at hother
      exact h.closed j other hother hclosed

/-- A record that retains nothing afterwards. -/
theorem release (h : hub.Accounted) (hget : hub.arena.get? i = some record) {hub' : CorrelationHub}
    (hbudget : ∀ other, hub'.rawEvidenceBudget other =
      if other.SharesBudget record.mode then
        (hub.rawEvidenceBudget record.mode).release record.evidence.retainedBytes
      else hub.rawEvidenceBudget other)
    (htotal : ∀ mode, hub'.arena.total (CorrelationRecord.openBytes mode) +
      record.openBytes mode = hub.arena.total (CorrelationRecord.openBytes mode))
    (hclosed : ∀ j other, hub'.arena.get? j = some other → other.closed = true →
      other.evidence = .empty) : hub'.Accounted :=
  @charge _ _ _ _ h hget _ 0 hbudget (h.maximum record.mode)
    ((Nat.sub_le _ _).trans (h.bounded record.mode))
    (Nat.sub_add_cancel (h.retainedBytes_le hget)) (fun mode => by rw [htotal, ite_self]; rfl)
    hclosed

theorem closeLocked (h : hub.Accounted) (hget : hub.arena.get? i = some record) :
    (hub.closeLocked i record).Accounted := by
  refine h.release hget (fun other => ?_) (fun mode => ?_) fun j other hother hclosed => ?_
  · rw [CorrelationHub.closeLocked, rawEvidenceBudget_setRecord, rawEvidenceBudget_set]
  · have := @Arena.total_set _ _ _ record.close _ (CorrelationRecord.openBytes mode) hget
    rw [CorrelationHub.closeLocked, CorrelationHub.setRecord, arena_setRawEvidenceBudget, this]
    rfl
  · simp only [CorrelationHub.closeLocked, CorrelationHub.setRecord,
      arena_setRawEvidenceBudget] at hother
    by_cases hij : i = j
    · subst hij
      rw [Arena.get?_set_self hget] at hother
      rw [← Option.some.inj hother, CorrelationRecord.close]
    · rw [Arena.get?_set_of_ne hij] at hother
      exact h.closed j other hother hclosed

theorem dropRecord (h : hub.Accounted) (hget : hub.arena.get? i = some record) :
    (hub.dropRecord i record).Accounted := by
  refine h.release hget (fun other => rawEvidenceBudget_set) (fun mode => Arena.total_free hget)
    fun j other hother hclosed => ?_
  simp only [CorrelationHub.dropRecord] at hother
  by_cases hij : i = j
  · subst hij
    rw [Arena.get?_free_self hget] at hother
    cases hother
  · rw [Arena.get?_free_of_ne hij] at hother
    exact h.closed j other hother hclosed

end Accounted

theorem setRawEvidenceBudget_self :
    hub.setRawEvidenceBudget mode (hub.rawEvidenceBudget mode) = hub := by
  cases mode <;> rfl

open CorrelationEvidenceState in
/-- An insertion into a record changes nothing, or it replaces the evidence of an open record. -/
theorem insertInto_cases [Crates] {hub' : CorrelationHub}
    {insertion : CorrelationEvidenceState → RawEvidenceBudget →
      Except CorrelationError MessageSeriesInsertOutcome ×
        CorrelationEvidenceState × RawEvidenceBudget}
    {result : Except CorrelationError MessageSeriesInsertOutcome} (hinsertion : Insertion insertion)
    (hget : hub.arena.get? i = some record)
    (h : hub.insertInto i record insertion = (result, hub')) :
    hub' = hub ∨
      record.closed = false ∧ ∃ evidence budget,
        record.evidence.Replaces (hub.rawEvidenceBudget record.mode) evidence budget ∧
        hub' = (hub.setRawEvidenceBudget record.mode budget).setRecord i
          { record with evidence := evidence } ∧
        ((result = .ok .inserted ∧ record.evidence.observed.Extends evidence.observed) ∨
          ∃ error, result = .error (observationError error) ∧
            evidence.observed = record.evidence.observed) := by
  rw [insertInto] at h
  split at h
  · exact .inl (Prod.mk.inj h).2.symm
  · next hopen =>
    obtain ⟨⟨result', evidence, budget⟩, hresult⟩ :
      ∃ r, insertion record.evidence (hub.rawEvidenceBudget record.mode) = r := ⟨_, rfl⟩
    rw [hresult] at h
    obtain ⟨rfl, rfl⟩ := Prod.mk.inj h
    obtain ⟨rfl, rfl⟩ | ⟨hreplaces, hcases⟩ := hinsertion.cases hresult
    · refine .inl ?_
      rw [setRawEvidenceBudget_self, CorrelationHub.setRecord, Arena.set_self hget]
    · exact .inr ⟨Bool.not_eq_true _ ▸ hopen, evidence, budget, hreplaces, rfl, hcases⟩

end CorrelationHub

/-! ## Numbers of records -/

namespace Correlations

variable {s s' : Correlations} {i j : Nat} {record record' : CorrelationRecord} {label : HubStep}

structure Linked (s : Correlations) : Prop where
  consistent : s.hub.table.Consistent
  length : s.hub.table.length ≤ s.hub.maximumCorrelations
  registered : ∀ correlationId i, s.hub.table.get? correlationId = some i →
    ∃ record, s.hub.arena.get? i = some record ∧ record.correlationId = correlationId ∧
      record.closed = false
  closing : ∀ i ∈ s.closing, (s.hub.arena.get? i).isSome
  closing_not_registered : ∀ correlationId i, s.hub.table.get? correlationId = some i →
    i ∉ s.closing
  subscribed : ∀ i ∈ s.subscriptions, (s.hub.arena.get? i).isSome
  subscribers : ∀ i record, s.hub.arena.get? i = some record →
    record.subscribers = s.subscriptions.count i

namespace Linked

theorem new (maximumCorrelations : Nat) : (Correlations.new maximumCorrelations).Linked where
  consistent := OrderedTable.consistent_empty
  length := Nat.zero_le _
  registered _ _ h := by cases h
  closing _ h := by cases h
  closing_not_registered _ _ h := by cases h
  subscribed _ h := by cases h
  subscribers _ _ h := by cases h

theorem isSome_set (hget : s.hub.arena.get? i = some record)
    (harena : s'.hub.arena = s.hub.arena.set i record') (h : (s.hub.arena.get? j).isSome) :
    (s'.hub.arena.get? j).isSome := by
  rw [harena]
  by_cases hij : i = j
  · rw [← hij, Arena.get?_set_self hget]
    rfl
  · rwa [Arena.get?_set_of_ne hij]

/-- A step on one record, with no more in the table and among the records to be closed. -/
theorem setRecord (h : s.Linked) (hget : s.hub.arena.get? i = some record)
    (harena : s'.hub.arena = s.hub.arena.set i record')
    (hconsistent : s'.hub.table.Consistent)
    (hlength : s'.hub.table.length ≤ s'.hub.maximumCorrelations)
    (htable : ∀ correlationId j, s'.hub.table.get? correlationId = some j →
      s.hub.table.get? correlationId = some j ∧ (j = i → record'.closed = record.closed))
    (hid : record'.correlationId = record.correlationId)
    (hclosing : s'.closing ⊆ s.closing)
    (hsubscribed : s'.subscriptions ⊆ i :: s.subscriptions)
    (hself : record'.subscribers = s'.subscriptions.count i)
    (hothers : ∀ j, j ≠ i → s'.subscriptions.count j = s.subscriptions.count j) : s'.Linked where
  consistent := hconsistent
  length := hlength
  registered correlationId j hj := by
    obtain ⟨hj, hclosed⟩ := htable correlationId j hj
    obtain ⟨other, hother, hother_id, hopen⟩ := h.registered correlationId j hj
    rw [harena]
    by_cases hij : i = j
    · subst hij
      obtain rfl := Option.some.inj (hget.symm.trans hother)
      exact ⟨record', Arena.get?_set_self hget, hid.trans hother_id, (hclosed rfl).trans hopen⟩
    · exact ⟨other, (Arena.get?_set_of_ne hij).trans hother, hother_id, hopen⟩
  closing j hj := isSome_set hget harena (h.closing j (hclosing hj))
  closing_not_registered correlationId j hj hmem :=
    h.closing_not_registered correlationId j (htable correlationId j hj).1 (hclosing hmem)
  subscribed j hj := by
    rcases List.mem_cons.mp (hsubscribed hj) with rfl | hmem
    · exact isSome_set hget harena (by rw [hget]; rfl)
    · exact isSome_set hget harena (h.subscribed j hmem)
  subscribers j other hother := by
    rw [harena] at hother
    by_cases hij : i = j
    · subst hij
      rw [Arena.get?_set_self hget] at hother
      rw [← Option.some.inj hother, hself]
    · rw [Arena.get?_set_of_ne hij] at hother
      rw [h.subscribers j other hother, hothers j (Ne.symm hij)]

/-- A step on one record that only changes what is in it. -/
theorem update (h : s.Linked) (hget : s.hub.arena.get? i = some record)
    (hid : record'.correlationId = record.correlationId) (hclosed : record'.closed = record.closed)
    (hself : record'.subscribers = record.subscribers) {hub : CorrelationHub}
    (htable : hub.table = s.hub.table) (hmaximum : hub.maximumCorrelations = s.hub.maximumCorrelations)
    (harena : hub.arena = s.hub.arena.set i record') : Linked { s with hub := hub } :=
  h.setRecord hget harena (htable ▸ h.consistent) (by rw [htable, hmaximum]; exact h.length)
    (fun _ _ hj => ⟨htable ▸ hj, fun _ => hclosed⟩) hid (fun _ hj => hj)
    (fun _ hj => List.mem_cons_of_mem _ hj) (hself.trans (h.subscribers i record hget))
    fun _ _ => rfl

/-- A new record, under a new key. -/
theorem register (h : s.Linked) {correlationId : String} {hub : CorrelationHub}
    (hkey : s.hub.table.get? correlationId = none)
    (hroom : s.hub.table.length < s.hub.maximumCorrelations)
    (hid : record.correlationId = correlationId) (hopen : record.closed = false)
    (hfresh : record.subscribers = 0)
    (htable : hub.table = s.hub.table.push correlationId s.hub.arena.next)
    (hmaximum : hub.maximumCorrelations = s.hub.maximumCorrelations)
    (harena : hub.arena = s.hub.arena.alloc record) : Linked { s with hub := hub } where
  consistent := htable ▸ h.consistent.push hkey
  length := by
    rw [htable, hmaximum, OrderedTable.length_push hkey]
    exact hroom
  registered other j hj := by
    rw [htable] at hj
    rw [harena]
    by_cases hother : other = correlationId
    · subst hother
      rw [OrderedTable.get?_push_self, Option.some.injEq] at hj
      exact ⟨record, hj ▸ Arena.get?_alloc_next, hid, hopen⟩
    · rw [OrderedTable.get?_push_of_ne hother] at hj
      obtain ⟨record, hget, hrecord⟩ := h.registered other j hj
      exact ⟨record, Arena.get?_alloc hget, hrecord⟩
  closing j hj := by
    obtain ⟨record, hget⟩ := Option.isSome_iff_exists.mp (h.closing j hj)
    rw [harena, Arena.get?_alloc hget]
    rfl
  closing_not_registered other j hj hmem := by
    rw [htable] at hj
    by_cases hother : other = correlationId
    · subst hother
      rw [OrderedTable.get?_push_self, Option.some.injEq] at hj
      have := h.closing j hmem
      rw [← hj, Arena.get?_next] at this
      cases this
    · rw [OrderedTable.get?_push_of_ne hother] at hj
      exact h.closing_not_registered other j hj hmem
  subscribed j hj := by
    obtain ⟨record, hget⟩ := Option.isSome_iff_exists.mp (h.subscribed j hj)
    rw [harena, Arena.get?_alloc hget]
    rfl
  subscribers j other hother := by
    rw [harena] at hother
    by_cases hnext : j = s.hub.arena.next
    · subst hnext
      rw [Arena.get?_alloc_next, Option.some.injEq] at hother
      rw [← hother, hfresh, List.count_eq_zero_of_not_mem]
      intro hmem
      have := h.subscribed _ hmem
      rw [Arena.get?_next] at this
      cases this
    · rw [Arena.get?_alloc_of_ne hnext] at hother
      exact h.subscribers j other hother

/-- A record that nothing refers to. -/
theorem drop (h : s.Linked) (hget : s.hub.arena.get? i = some record) (hshared : ¬ s.Shared i)
    {hub : CorrelationHub} (htable : hub.table = s.hub.table)
    (hmaximum : hub.maximumCorrelations = s.hub.maximumCorrelations)
    (harena : hub.arena = s.hub.arena.free i) : Linked { s with hub := hub } where
  consistent := htable ▸ h.consistent
  length := by
    rw [htable, hmaximum]
    exact h.length
  registered correlationId j hj := by
    rw [htable] at hj
    have hij : i ≠ j := by
      rintro rfl
      exact hshared (.inr (.inr (OrderedTable.mem_values.mpr ⟨correlationId, hj⟩)))
    rw [harena, Arena.get?_free_of_ne hij]
    exact h.registered correlationId j hj
  closing j hj := by
    have hij : i ≠ j := by
      rintro rfl
      exact hshared (.inr (.inl hj))
    rw [harena, Arena.get?_free_of_ne hij]
    exact h.closing j hj
  closing_not_registered correlationId j hj :=
    h.closing_not_registered correlationId j (htable ▸ hj)
  subscribed j hj := by
    have hij : i ≠ j := by
      rintro rfl
      exact hshared (.inl hj)
    rw [harena, Arena.get?_free_of_ne hij]
    exact h.subscribed j hj
  subscribers j other hother := by
    rw [harena] at hother
    by_cases hij : i = j
    · subst hij
      rw [Arena.get?_free_self hget] at hother
      cases hother
    · rw [Arena.get?_free_of_ne hij] at hother
      exact h.subscribers j other hother

/-- Only the records of `Dispatch` stay in the table. -/
theorem retainDispatch (h : s.Linked) : Linked { s with
    hub := s.hub.retainDispatchCorrelations.2
    closing := s.hub.retainDispatchCorrelations.1 ++ s.closing } where
  consistent := h.consistent.retain
  length := OrderedTable.length_retain_le.trans h.length
  registered correlationId j hj := h.registered correlationId j (OrderedTable.get?_retain.mp hj).1
  closing j hj := by
    rcases List.mem_append.mp hj with hremoved | hmem
    · obtain ⟨correlationId, hkey⟩ := OrderedTable.mem_values.mp (List.mem_filter.mp hremoved).1
      obtain ⟨record, hget, -⟩ := h.registered correlationId j hkey
      exact Option.isSome_iff_exists.mpr ⟨record, hget⟩
    · exact h.closing j hmem
  closing_not_registered correlationId j hj hmem := by
    obtain ⟨hkey, hdispatch⟩ := OrderedTable.get?_retain.mp hj
    rcases List.mem_append.mp hmem with hremoved | hclosing
    · have := (List.mem_filter.mp hremoved).2
      simp [hdispatch] at this
    · exact h.closing_not_registered correlationId j hkey hclosing
  subscribed := h.subscribed
  subscribers := h.subscribers

/-- An inactive record leaves the table and is closed. -/
theorem removeIfInactive (h : s.Linked) {correlationId : String}
    (hkey : s.hub.table.get? correlationId = some i) (hget : s.hub.arena.get? i = some record)
    {hub : CorrelationHub} (htable : hub.table = s.hub.table.remove correlationId)
    (hmaximum : hub.maximumCorrelations = s.hub.maximumCorrelations)
    (harena : hub.arena = s.hub.arena.set i record.close) : Linked { s with hub := hub } := by
  refine h.setRecord hget harena (htable ▸ h.consistent.remove) ?_ (fun other j hj => ?_) rfl
    (fun _ hj => hj) (fun _ hj => List.mem_cons_of_mem _ hj) (h.subscribers i record hget)
    fun _ _ => rfl
  · rw [htable, hmaximum]
    exact OrderedTable.length_remove_le.trans h.length
  · rw [htable] at hj
    by_cases hother : other = correlationId
    · rw [hother, OrderedTable.get?_remove_self] at hj
      cases hj
    · rw [OrderedTable.get?_remove_of_ne hother] at hj
      refine ⟨hj, ?_⟩
      rintro rfl
      obtain ⟨_, hget₁, hid₁, -⟩ := h.registered _ _ hkey
      obtain ⟨_, hget₂, hid₂, -⟩ := h.registered _ _ hj
      obtain rfl := Option.some.inj (hget₁.symm.trans hget₂)
      exact absurd (hid₂.symm.trans hid₁) hother

end Linked

/-! ## Steps -/

structure Invariant (s : Correlations) : Prop where
  accounted : s.hub.Accounted
  linked : s.Linked

/-- A step on an open or closed record that keeps its evidence bytes. -/
theorem Invariant.update (h : s.Invariant) (hget : s.hub.arena.get? i = some record)
    (hid : record'.correlationId = record.correlationId) (hmode : record'.mode = record.mode)
    (hclosed : record'.closed = record.closed)
    (hbytes : record'.evidence.retainedBytes = record.evidence.retainedBytes)
    (hevidence : record.closed = true → record'.evidence = record.evidence)
    (hself : record'.subscribers = record.subscribers) :
    Invariant { s with hub := s.hub.setRecord i record' } where
  accounted := by
    refine h.accounted.setRecord hget (fun mode => ?_) fun hclosed' => ?_
    · rw [CorrelationRecord.openBytes, CorrelationRecord.openBytes, hclosed, hmode, hbytes]
    · rw [hclosed] at hclosed'
      rw [hevidence hclosed', h.accounted.closed i record hget hclosed']
  linked := h.linked.update hget hid hclosed hself rfl rfl rfl

variable [Crates]

open CorrelationEvidenceState in
theorem Invariant.insertInto (h : s.Invariant) (hget : s.hub.arena.get? i = some record)
    {insertion : CorrelationEvidenceState → RawEvidenceBudget →
      Except CorrelationError MessageSeriesInsertOutcome ×
        CorrelationEvidenceState × RawEvidenceBudget}
    (hinsertion : Insertion insertion) :
    Invariant { s with hub := (s.hub.insertInto i record insertion).2 } := by
  obtain hsame | ⟨hopen, evidence, budget, hreplaces, hhub, -⟩ :=
    CorrelationHub.insertInto_cases hinsertion hget (Prod.mk.eta).symm
  · rw [hsame]
    exact h
  · rw [hhub]
    refine ⟨h.accounted.replace hget hopen hreplaces.budget, ?_⟩
    exact @Linked.update _ _ _ { record with evidence := evidence } h.linked hget rfl rfl rfl _
      (by simp [CorrelationHub.setRecord]) (by simp [CorrelationHub.setRecord])
      (by simp [CorrelationHub.setRecord])

omit [Crates] in
theorem Invariant.subscribeWith (h : s.Invariant)
    {subscribe : CorrelationRecord → Except CorrelationError CorrelationRecord}
    (hsubscribe : ∀ record record', subscribe record = .ok record' →
      record' = { record with subscribers := record.subscribers + 1 })
    (hstep : s.subscribeWith i subscribe = some s') : s'.Invariant := by
  obtain ⟨record, hget, rfl⟩ := Option.map_eq_some_iff.mp hstep
  split
  · next record' hok =>
    obtain rfl := hsubscribe record record' hok
    refine ⟨?_, ?_⟩
    · exact h.accounted.setRecord hget (fun _ => rfl) (h.accounted.closed i record hget)
    · refine h.linked.setRecord hget rfl h.linked.consistent h.linked.length
        (fun _ _ hj => ⟨hj, fun _ => rfl⟩) rfl (fun _ hj => hj) (fun _ hj => hj) ?_ fun j hj => ?_
      · rw [List.count_cons_self, h.linked.subscribers i record hget]
      · exact List.count_cons_of_ne (Ne.symm hj)
  · exact h

theorem Invariant.register (h : s.Invariant) {correlationId operationId context command : String}
    {mode : OperationMode} {schemaVersion : UInt32} {hub : CorrelationHub}
    (hok : s.hub.registerCommand correlationId mode operationId context command schemaVersion =
      .ok hub) : Invariant { s with hub := hub } := by
  rw [CorrelationHub.registerCommand, bind_unit_eq_ok, bind_unit_eq_ok, bind_unit_eq_ok,
    rejectIf_eq_ok, rejectIf_eq_ok] at hok
  obtain ⟨-, hkey, hroom, hok⟩ := hok
  obtain ⟨record, hnew, hhub⟩ := bind_eq_ok.mp hok
  obtain rfl := pure_eq_ok.mp hhub
  obtain ⟨event, -, hrecord⟩ := bind_eq_ok.mp hnew
  obtain rfl := pure_eq_ok.mp hrecord
  refine ⟨?_, h.linked.register (by simpa using hkey) (Nat.not_le.mp hroom) rfl rfl rfl rfl rfl rfl⟩
  exact
    { retained := fun mode => by
        simp only [Arena.total_alloc, CorrelationRecord.openBytes, CorrelationEvidenceState.empty,
          ite_self, Nat.add_zero]
        exact h.accounted.retained mode
      maximum := h.accounted.maximum
      bounded := h.accounted.bounded
      closed := fun j other hother hclosed => by
        by_cases hnext : j = s.hub.arena.next
        · subst hnext
          rw [Arena.get?_alloc_next, Option.some.injEq] at hother
          rw [← hother] at hclosed
          cases hclosed
        · rw [Arena.get?_alloc_of_ne hnext] at hother
          exact h.accounted.closed j other hother hclosed }

omit [Crates] in
theorem Invariant.close (h : s.Invariant) (hget : s.hub.arena.get? i = some record)
    (hclosing : i ∈ s.closing) :
    Invariant { s with hub := s.hub.closeLocked i record, closing := s.closing.erase i } := by
  refine ⟨h.accounted.closeLocked hget, ?_⟩
  have harena : (s.hub.closeLocked i record).arena = s.hub.arena.set i record.close := by
    simp [CorrelationHub.closeLocked, CorrelationHub.setRecord]
  refine h.linked.setRecord hget harena
    (by simpa [CorrelationHub.closeLocked, CorrelationHub.setRecord] using h.linked.consistent)
    (by simpa [CorrelationHub.closeLocked, CorrelationHub.setRecord] using h.linked.length)
    (fun correlationId j hj => ?_) rfl List.erase_subset (fun _ hj => List.mem_cons_of_mem _ hj)
    (h.linked.subscribers i record hget) fun _ _ => rfl
  simp only [CorrelationHub.closeLocked, CorrelationHub.setRecord,
    CorrelationHub.table_setRawEvidenceBudget] at hj
  refine ⟨hj, ?_⟩
  rintro rfl
  exact absurd hclosing (h.linked.closing_not_registered correlationId j hj)

omit [Crates] in
theorem Invariant.removeIfInactive (h : s.Invariant) (correlationId : String) :
    Invariant { s with hub := (s.hub.removeIfInactive correlationId).2 } := by
  rw [CorrelationHub.removeIfInactive]
  split
  · exact h
  · next i hkey =>
    split
    · exact h
    · next record hget =>
      split
      · exact h
      · refine ⟨?_, h.linked.removeIfInactive hkey hget ?_ ?_ ?_⟩
        · exact CorrelationHub.Accounted.closeLocked
            { retained := h.accounted.retained
              maximum := h.accounted.maximum
              bounded := h.accounted.bounded
              closed := h.accounted.closed } hget
        all_goals simp [CorrelationHub.closeLocked, CorrelationHub.setRecord]

theorem append_eq (record : CorrelationRecord) (kind : CorrelationEventKind) :
    ∃ state, (record.append kind).2 = { record with state := state } := by
  rw [CorrelationRecord.append]
  split
  · exact ⟨record.state, rfl⟩
  · exact ⟨_, rfl⟩

omit [Crates] in
theorem retainObservationFailure_eq_ok {failure : CorrelationObservationFailure}
    (h : record.retainObservationFailure failure = .ok record') :
    record.closed = false ∧ ∃ failure revision, record' = { record with evidence :=
      { record.evidence with failure := failure, revision := revision } } := by
  rw [CorrelationRecord.retainObservationFailure, bind_unit_eq_ok, rejectIf_eq_ok,
    Bool.not_eq_true] at h
  exact ⟨h.1, _, _, (pure_eq_ok.mp h.2).symm⟩

omit [Crates] in
theorem subscribeEvidence_eq_ok (h : record.subscribeEvidence = .ok record') :
    record' = { record with subscribers := record.subscribers + 1 } := by
  rw [CorrelationRecord.subscribeEvidence, bind_unit_eq_ok] at h
  exact (pure_eq_ok.mp h.2).symm

open CorrelationEvidenceState in
theorem Invariant.step (h : s.Invariant) (hstep : s.apply label = some s') :
    s'.Invariant := by
  cases label with
  | register correlationId mode operationId context command schemaVersion =>
    rw [apply] at hstep
    split at hstep
    · next hub hok =>
      obtain rfl := Option.some.inj hstep
      exact h.register hok
    · obtain rfl := Option.some.inj hstep
      exact h
  | insertMessage i message =>
    obtain ⟨record, hget, rfl⟩ := Option.map_eq_some_iff.mp hstep
    exact h.insertInto hget (.message message)
  | insertCommandOutcome i outcome =>
    obtain ⟨record, hget, rfl⟩ := Option.map_eq_some_iff.mp hstep
    exact h.insertInto hget (.commandOutcome outcome)
  | retainObservationFailure i failure =>
    obtain ⟨record, hget, rfl⟩ := Option.map_eq_some_iff.mp hstep
    split
    · next hok =>
      obtain ⟨hopen, failure, revision, rfl⟩ := retainObservationFailure_eq_ok hok
      exact h.update hget rfl rfl rfl rfl (fun hclosed => by simp [hopen] at hclosed) rfl
    · exact h
  | append i kind =>
    obtain ⟨record, hget, rfl⟩ := Option.map_eq_some_iff.mp hstep
    obtain ⟨state, hstate⟩ := append_eq record kind
    rw [hstate]
    exact h.update hget rfl rfl rfl rfl (fun _ => rfl) rfl
  | subscribe i after => exact h.subscribeWith (fun _ _ hok => (CorrelationRecord.subscribe_eq_ok hok).2) hstep
  | subscribeEvidence i => exact h.subscribeWith (fun _ _ hok => subscribeEvidence_eq_ok hok) hstep
  | unsubscribe i =>
    rw [apply] at hstep
    split at hstep
    · next hmem =>
      obtain ⟨record, hget, rfl⟩ := Option.map_eq_some_iff.mp hstep
      refine ⟨h.accounted.setRecord hget (fun _ => rfl) (h.accounted.closed i record hget), ?_⟩
      refine @Linked.setRecord _ _ _ _ record.unsubscribe h.linked hget rfl h.linked.consistent
        h.linked.length (fun _ _ hj => ⟨hj, fun _ => rfl⟩) rfl (fun _ hj => hj)
        (fun _ hj => List.mem_cons_of_mem _ (List.mem_of_mem_erase hj)) ?_ fun j hj => ?_
      · rw [List.count_erase_self, ← h.linked.subscribers i record hget,
          CorrelationRecord.unsubscribe]
      · exact List.count_erase_of_ne hj
    · cases hstep
  | removeIfInactive correlationId =>
    obtain rfl := Option.some.inj hstep
    exact h.removeIfInactive correlationId
  | retainDispatchCorrelations =>
    obtain rfl := Option.some.inj hstep
    exact ⟨⟨h.accounted.retained, h.accounted.maximum, h.accounted.bounded, h.accounted.closed⟩,
      h.linked.retainDispatch⟩
  | close i =>
    rw [apply] at hstep
    split at hstep
    · next hclosing =>
      obtain ⟨record, hget, rfl⟩ := Option.map_eq_some_iff.mp hstep
      exact h.close hget hclosing
    · cases hstep
  | drop i =>
    rw [apply] at hstep
    split at hstep
    · cases hstep
    · next hshared =>
      obtain ⟨record, hget, rfl⟩ := Option.map_eq_some_iff.mp hstep
      refine ⟨h.accounted.dropRecord hget, h.linked.drop hget hshared ?_ ?_ rfl⟩
      · exact CorrelationHub.table_setRawEvidenceBudget
      · exact CorrelationHub.maximumCorrelations_setRawEvidenceBudget

theorem invariant (maximumCorrelations : Nat) :
    (machine maximumCorrelations).Invariant Invariant where
  start _ h := h ▸ ⟨.new _, .new _⟩
  step _ _ _ h hstep := h.step hstep

/-! ## Observations that stay -/

/-- What an open record had observed, it still has. -/
structure Later (s s' : Correlations) : Prop where
  next : s.hub.arena.next ≤ s'.hub.arena.next
  observed : ∀ i record', s'.hub.arena.get? i = some record' → record'.closed = false →
    i < s.hub.arena.next → ∃ record, s.hub.arena.get? i = some record ∧ record.closed = false ∧
      record.evidence.observed.Extends record'.evidence.observed

omit [Crates] in
theorem Later.refl (s : Correlations) : s.Later s :=
  ⟨le_rfl, fun _ record hget hopen _ => ⟨record, hget, hopen, .refl _⟩⟩

omit [Crates] in
theorem Later.trans {s'' : Correlations} (h : s.Later s') (h' : s'.Later s'') : s.Later s'' := by
  refine ⟨h.next.trans h'.next, fun i record'' hget'' hopen'' hi => ?_⟩
  obtain ⟨record', hget', hopen', hextends'⟩ :=
    h'.observed i record'' hget'' hopen'' (hi.trans_le h.next)
  obtain ⟨record, hget, hopen, hextends⟩ := h.observed i record' hget' hopen' hi
  exact ⟨record, hget, hopen, hextends.trans hextends'⟩

omit [Crates] in
/-- What a step does to the records. -/
inductive Touches (s : Correlations) : Arena CorrelationRecord → Prop where
  | same : Touches s s.hub.arena
  | alloc (record : CorrelationRecord) : Touches s (s.hub.arena.alloc record)
  | set {i : Nat} {record : CorrelationRecord} (record' : CorrelationRecord)
      (hget : s.hub.arena.get? i = some record) (hmode : record'.mode = record.mode)
      (hopen : record'.closed = false → record.closed = false)
      (hextends : record'.closed = false →
        record.evidence.observed.Extends record'.evidence.observed) :
      Touches s (s.hub.arena.set i record')
  | free (i : Nat) (hshared : ¬ s.Shared i) : Touches s (s.hub.arena.free i)

omit [Crates] in
theorem Touches.later (h : s.Touches s'.hub.arena) : s.Later s' := by
  generalize harena : s'.hub.arena = arena at h
  cases h with
  | same =>
    refine ⟨harena ▸ le_rfl, fun i record hget hopen _ => ⟨record, ?_, hopen, .refl _⟩⟩
    rwa [harena] at hget
  | alloc record =>
    refine ⟨by simp [harena, Arena.next, Arena.alloc], fun i record hget hopen hi =>
      ⟨record, ?_, hopen, .refl _⟩⟩
    rwa [harena, Arena.get?_alloc_of_ne hi.ne] at hget
  | @set i record record' hget hmode hopen hextends =>
    refine ⟨by simp [harena, Arena.next, Arena.set], fun j other hother hother_open _ => ?_⟩
    rw [harena] at hother
    by_cases hij : i = j
    · subst hij
      rw [Arena.get?_set_self hget] at hother
      obtain rfl := Option.some.inj hother
      exact ⟨record, hget, hopen hother_open, hextends hother_open⟩
    · rw [Arena.get?_set_of_ne hij] at hother
      exact ⟨other, hother, hother_open, .refl _⟩
  | free i =>
    refine ⟨by simp [harena, Arena.next, Arena.free], fun j other hother hother_open _ => ?_⟩
    rw [harena] at hother
    rcases eq_or_ne i j with rfl | hij
    · rw [Arena.get?, Arena.free] at hother
      obtain ⟨hlt, hcell⟩ := List.getElem?_eq_some_iff.mp (Option.join_eq_some_iff.mp hother)
      simp at hcell
    · rw [Arena.get?_free_of_ne hij] at hother
      exact ⟨other, hother, hother_open, .refl _⟩

omit [Crates] in
theorem touches_subscribeWith
    {subscribe : CorrelationRecord → Except CorrelationError CorrelationRecord}
    (hsubscribe : ∀ record record', subscribe record = .ok record' →
      record' = { record with subscribers := record.subscribers + 1 })
    (hstep : s.subscribeWith i subscribe = some s') : s.Touches s'.hub.arena := by
  obtain ⟨record, hget, rfl⟩ := Option.map_eq_some_iff.mp hstep
  split
  · next record' hok =>
    obtain rfl := hsubscribe record record' hok
    exact .set _ hget rfl id fun _ => .refl _
  · exact .same

open CorrelationEvidenceState in
theorem touches_insertInto (hget : s.hub.arena.get? i = some record)
    {insertion : CorrelationEvidenceState → RawEvidenceBudget →
      Except CorrelationError MessageSeriesInsertOutcome ×
        CorrelationEvidenceState × RawEvidenceBudget}
    (hinsertion : Insertion insertion) :
    s.Touches (s.hub.insertInto i record insertion).2.arena := by
  obtain hsame | ⟨hopen, evidence, budget, -, hhub, hobserved⟩ :=
    CorrelationHub.insertInto_cases hinsertion hget (Prod.mk.eta).symm
  · rw [hsame]
    exact .same
  · rw [hhub, CorrelationHub.setRecord, CorrelationHub.arena_setRawEvidenceBudget]
    refine .set _ hget rfl id fun _ => ?_
    obtain ⟨-, hextends⟩ | ⟨_, -, hkept⟩ := hobserved
    · exact hextends
    · exact hkept ▸ .refl _

open CorrelationEvidenceState in
theorem touches (hstep : s.apply label = some s') : s.Touches s'.hub.arena := by
  cases label with
  | register correlationId mode operationId context command schemaVersion =>
    rw [apply] at hstep
    split at hstep
    · next hub hok =>
      obtain rfl := Option.some.inj hstep
      rw [CorrelationHub.registerCommand, bind_unit_eq_ok, bind_unit_eq_ok, bind_unit_eq_ok] at hok
      obtain ⟨record, -, hhub⟩ := bind_eq_ok.mp hok.2.2.2
      obtain rfl := pure_eq_ok.mp hhub
      exact .alloc record
    · obtain rfl := Option.some.inj hstep
      exact .same
  | insertMessage i message =>
    obtain ⟨record, hget, rfl⟩ := Option.map_eq_some_iff.mp hstep
    exact touches_insertInto hget (.message message)
  | insertCommandOutcome i outcome =>
    obtain ⟨record, hget, rfl⟩ := Option.map_eq_some_iff.mp hstep
    exact touches_insertInto hget (.commandOutcome outcome)
  | retainObservationFailure i failure =>
    obtain ⟨record, hget, rfl⟩ := Option.map_eq_some_iff.mp hstep
    split
    · next hok =>
      obtain ⟨hopen, failure, revision, rfl⟩ := retainObservationFailure_eq_ok hok
      exact .set _ hget rfl id fun _ => .refl _
    · exact .same
  | append i kind =>
    obtain ⟨record, hget, rfl⟩ := Option.map_eq_some_iff.mp hstep
    obtain ⟨state, hstate⟩ := append_eq record kind
    rw [hstate]
    exact .set _ hget rfl id fun _ => .refl _
  | subscribe i after =>
    exact touches_subscribeWith (fun _ _ hok => (CorrelationRecord.subscribe_eq_ok hok).2) hstep
  | subscribeEvidence i =>
    exact touches_subscribeWith (fun _ _ hok => subscribeEvidence_eq_ok hok) hstep
  | unsubscribe i =>
    rw [apply] at hstep
    split at hstep
    · obtain ⟨record, hget, rfl⟩ := Option.map_eq_some_iff.mp hstep
      exact .set record.unsubscribe hget rfl id fun _ => .refl _
    · cases hstep
  | removeIfInactive correlationId =>
    obtain rfl := Option.some.inj hstep
    rw [CorrelationHub.removeIfInactive]
    split
    · exact .same
    · split
      · exact .same
      · next hget =>
        split
        · exact .same
        · rw [CorrelationHub.closeLocked, CorrelationHub.setRecord,
            CorrelationHub.arena_setRawEvidenceBudget]
          exact .set _ hget rfl nofun nofun
  | retainDispatchCorrelations =>
    obtain rfl := Option.some.inj hstep
    exact .same
  | close i =>
    rw [apply] at hstep
    split at hstep
    · obtain ⟨record, hget, rfl⟩ := Option.map_eq_some_iff.mp hstep
      rw [CorrelationHub.closeLocked, CorrelationHub.setRecord,
        CorrelationHub.arena_setRawEvidenceBudget]
      exact .set _ hget rfl nofun nofun
    · cases hstep
  | drop i =>
    rw [apply] at hstep
    split at hstep
    · cases hstep
    · next hshared =>
      obtain ⟨record, hget, rfl⟩ := Option.map_eq_some_iff.mp hstep
      exact .free i hshared

omit [Crates] in
/-- The bytes of record `i` are released, once: none are left in a record of that number. -/
structure Releases (s : Correlations) (i : Nat) (s' : Correlations) : Prop where
  budget : ∀ record, s.hub.arena.get? i = some record → ∀ mode,
    (s'.hub.rawEvidenceBudget mode).retainedBytes +
      (if mode.SharesBudget record.mode then record.evidence.retainedBytes else 0) =
    (s.hub.rawEvidenceBudget mode).retainedBytes
  empty : ∀ record', s'.hub.arena.get? i = some record' →
    record'.closed = true ∧ record'.evidence = .empty

/-- What the hub promises in a state, and of what follows it. -/
structure Sound (maximumCorrelations : Nat) (s : Correlations) : Prop where
  retained : ∀ mode, (s.hub.rawEvidenceBudget mode).retainedBytes =
    s.hub.arena.total (CorrelationRecord.openBytes mode)
  bounded : ∀ mode,
    (s.hub.rawEvidenceBudget mode).retainedBytes ≤ maximumRawEvidenceBytesPerCapability
  close : ∀ i s', s.apply (.close i) = some s' → s.Releases i s'
  removed : ∀ correlationId i hub, s.hub.table.get? correlationId = some i →
    s.hub.removeIfInactive correlationId = (true, hub) → s.Releases i { s with hub := hub }
  drop : ∀ i s', s.apply (.drop i) = some s' → s.Releases i s'
  refused : ∀ i record insertion e hub, CorrelationEvidenceState.Insertion insertion →
    s.hub.arena.get? i = some record → s.hub.insertInto i record insertion = (.error e, hub) →
    e = .eventTooLarge ∨ e = .capacityExhausted → hub = s.hub
  conflict : ∀ i record insertion e hub, CorrelationEvidenceState.Insertion insertion →
    s.hub.arena.get? i = some record → s.hub.insertInto i record insertion = (.error e, hub) →
    ∃ record', hub.arena.get? i = some record' ∧
      record'.evidence.observed = record.evidence.observed
  first : ∀ labels s', (machine maximumCorrelations).Run s labels s' → s.Later s'
  active : ∀ correlationId i, s.hub.table.get? correlationId = some i → i ∈ s.subscriptions →
    s.hub.removeIfInactive correlationId = (false, s.hub)

omit [Crates] in
theorem Invariant.releases (h : s.Invariant) (hget : s.hub.arena.get? i = some record)
    (hbudget : ∀ other, s'.hub.rawEvidenceBudget other =
      if other.SharesBudget record.mode then
        (s.hub.rawEvidenceBudget record.mode).release record.evidence.retainedBytes
      else s.hub.rawEvidenceBudget other)
    (hempty : ∀ record', s'.hub.arena.get? i = some record' →
      record'.closed = true ∧ record'.evidence = .empty) : s.Releases i s' := by
  refine ⟨fun record' hget' mode => ?_, hempty⟩
  obtain rfl := Option.some.inj (hget.symm.trans hget')
  rw [hbudget mode]
  split
  · next hshares =>
    rw [CorrelationHub.rawEvidenceBudget_congr hshares]
    exact Nat.sub_add_cancel (h.accounted.retainedBytes_le hget)
  · rfl

omit [Crates] in
theorem Invariant.releases_closeLocked (h : s.Invariant)
    (hget : s.hub.arena.get? i = some record)
    (hbudget : ∀ mode, s'.hub.rawEvidenceBudget mode =
      (s.hub.closeLocked i record).rawEvidenceBudget mode)
    (harena : s'.hub.arena = (s.hub.closeLocked i record).arena) : s.Releases i s' := by
  refine h.releases hget (fun other => ?_) fun record' hrecord' => ?_
  · rw [hbudget, CorrelationHub.closeLocked, CorrelationHub.rawEvidenceBudget_setRecord,
      CorrelationHub.rawEvidenceBudget_set]
  · rw [harena, CorrelationHub.closeLocked, CorrelationHub.setRecord,
      CorrelationHub.arena_setRawEvidenceBudget, Arena.get?_set_self hget] at hrecord'
    rw [← Option.some.inj hrecord']
    exact ⟨rfl, rfl⟩

theorem Invariant.sound (h : s.Invariant) (maximumCorrelations : Nat) :
    s.Sound maximumCorrelations where
  retained := h.accounted.retained
  bounded := h.accounted.bounded
  close i s' hstep := by
    rw [apply] at hstep
    split at hstep
    · obtain ⟨record, hget, rfl⟩ := Option.map_eq_some_iff.mp hstep
      exact h.releases_closeLocked hget (fun _ => rfl) rfl
    · cases hstep
  removed correlationId i hub hkey hremove := by
    obtain ⟨record, hget, -, -⟩ := h.linked.registered correlationId i hkey
    simp only [CorrelationHub.removeIfInactive, hkey, hget] at hremove
    split at hremove
    · cases hremove
    · obtain ⟨-, rfl⟩ := Prod.mk.inj hremove
      refine h.releases_closeLocked hget (fun mode => ?_) ?_
      · cases hmode : record.mode <;> cases mode <;>
          simp [CorrelationHub.closeLocked, CorrelationHub.setRecord, hmode,
            CorrelationHub.setRawEvidenceBudget, CorrelationHub.rawEvidenceBudget]
      · simp [CorrelationHub.closeLocked, CorrelationHub.setRecord]
  drop i s' hstep := by
    rw [apply] at hstep
    split at hstep
    · cases hstep
    · obtain ⟨record, hget, rfl⟩ := Option.map_eq_some_iff.mp hstep
      refine h.releases hget (fun other => CorrelationHub.rawEvidenceBudget_set) fun record' hget' => ?_
      rw [CorrelationHub.dropRecord, Arena.get?_free_self hget] at hget'
      cases hget'
  refused i record insertion e hub hinsertion hget hresult he := by
    obtain hsame | ⟨-, _, _, -, -, ⟨hok, -⟩ | ⟨error, herror, -⟩⟩ :=
      CorrelationHub.insertInto_cases hinsertion hget hresult
    · exact hsame
    · cases hok
    · rw [Except.error.injEq, observationError] at herror
      rcases he with rfl | rfl <;> cases herror
  conflict i record insertion e hub hinsertion hget hresult := by
    obtain rfl | ⟨-, evidence, _, -, rfl, ⟨hok, -⟩ | ⟨_, -, hkept⟩⟩ :=
      CorrelationHub.insertInto_cases hinsertion hget hresult
    · exact ⟨record, hget, rfl⟩
    · cases hok
    · refine ⟨{ record with evidence := evidence }, ?_, hkept⟩
      rw [CorrelationHub.setRecord, CorrelationHub.arena_setRawEvidenceBudget,
        Arena.get?_set_self hget]
  first labels s' hrun :=
    hrun.keeps (fun _ _ _ hlater hstep => hlater.trans (touches hstep).later) (.refl s)
  active correlationId i hkey hmem := by
    obtain ⟨record, hget, -, -⟩ := h.linked.registered correlationId i hkey
    have hcount : record.subscribers > 0 := by
      rw [h.linked.subscribers i record hget]
      exact List.count_pos_iff.mpr hmem
    simp only [CorrelationHub.removeIfInactive, hkey, hget, if_pos hcount]

end Correlations

/-- Every state that the hub reaches keeps its promises. -/
theorem correlations_sound (maximumCorrelations : Nat) [Crates] {s : Correlations}
    (h : (Correlations.machine maximumCorrelations).Reachable s) : s.Sound maximumCorrelations :=
  ((Correlations.invariant maximumCorrelations).reachable h).sound maximumCorrelations

attribute [local instance] Crates.concrete in
/-- A correlation with one message and a subscription. -/
theorem correlations_sound_observed : ∃ s,
    [HubStep.register "order-1" .test "op-1" "sales" "place" 1,
      .insertMessage 0 (.command "command-1" "order-1" none 0 "place" 1 "sales" none),
      .subscribe 0 0].foldlM Correlations.apply (Correlations.new 1) = some s ∧
    0 < (s.hub.rawEvidenceBudget .test).retainedBytes ∧ s.Sound 1 := by
  have hrun : ([HubStep.register "order-1" .test "op-1" "sales" "place" 1,
      .insertMessage 0 (.command "command-1" "order-1" none 0 "place" 1 "sales" none),
      .subscribe 0 0].foldlM Correlations.apply (Correlations.new 1)).any (fun s =>
        0 < (s.hub.rawEvidenceBudget .test).retainedBytes) = true := by
    decide +kernel
  obtain ⟨s, hs, hretained⟩ := (Option.any_eq_true _ _).mp hrun
  exact ⟨s, hs, of_decide_eq_true hretained,
    correlations_sound 1 ⟨_, _, rfl, .of_foldlM (fun _ _ _ h => h) hs⟩⟩

end Rostfrei.Tracer
