import Rostfrei.Tracer.Gate

/-!
# Calls keep to the gate

Every program of `HostCall.code` is safe in `hostDiscipline`. `Gated` is what the one that holds the
gate knows all the time; blocks that start with all tasks in the list end so (`Covered`), and
`stop_in_scope` ends without a task that runs.

In `Gated t k n` the runtime stays closed after a failed reset, or in any case if `k`; with `n` no
reset has failed.
-/

namespace Rostfrei.Tracer

open Lib Lib.Program Host NatsRuntime

/-! ## Assertions -/

/-- The others do not spoil it. -/
def Stable (t : Nat) (I : HostWorld → Prop) : Prop := ∀ w w', HostRely t w w' → I w → I w'

/-- Neither the others nor operations that change nothing spoil it. -/
structure Assertion (t : Nat) (I : HostWorld → Prop) : Prop where
  stable : Stable t I
  same : ∀ w s e, SameCore w.shared s → Plain e → I w → I (w.note s e)

section Assertions

variable {t : Nat} {I J : HostWorld → Prop}

theorem Stable.and (hI : Stable t I) (hJ : Stable t J) : Stable t fun w => I w ∧ J w :=
  fun w w' hR h => ⟨hI w w' hR h.1, hJ w w' hR h.2⟩

theorem Assertion.and (hI : Assertion t I) (hJ : Assertion t J) : Assertion t fun w => I w ∧ J w :=
  ⟨hI.stable.and hJ.stable, fun w s e hs he h => ⟨hI.same w s e hs he h.1, hJ.same w s e hs he h.2⟩⟩

theorem Assertion.true : Assertion t fun _ => True := ⟨fun _ _ _ _ => trivial, fun _ _ _ _ _ _ => trivial⟩

end Assertions

structure Gated (t : Nat) (k n : Bool) (w : HostWorld) : Prop where
  writer : w.shared.writer = some t
  closed : k = true ∨ ResetFailed w.history → w.shared.Closed
  fresh : n = true → ¬ ResetFailed w.history

/-- As `Gated`, and all tasks that run are in the list. -/
def Scope (t : Nat) (k n : Bool) (w : HostWorld) : Prop := Gated t k n w ∧ w.shared.Covered

/-- As `Gated`, and only tasks of a list run. -/
def Stopping (t : Nat) (k n : Bool) (ids : List Nat) (w : HostWorld) : Prop :=
  Gated t k n w ∧ ∀ id, w.shared.Running id → id ∈ ids

/-- The runtime may have been opened, but not after a failed reset with `n`. -/
structure Opened (t : Nat) (n : Bool) (w : HostWorld) : Prop where
  writer : w.shared.writer = some t
  covered : w.shared.Covered
  fresh : n = true → ¬ ResetFailed w.history

/-- As `Scope`, and tasks of a backend may be started. -/
structure Ready (t : Nat) (k n : Bool) (backend : Nat) (w : HostWorld) : Prop where
  scope : Scope t k n w
  undrained : ¬ Drained w.history
  backend : w.shared.backend = backend

section Assertions

variable {t : Nat} {k n : Bool} {ids : List Nat} {b : Nat}

theorem Gated.assertion : Assertion t (Gated t k n) where
  stable w w' hR h := by
    have hfailed := hR.failed (.inl h.writer)
    refine ⟨hR.writes.mp h.writer, fun hk => ?_, fun hn => hfailed.not.mp (h.fresh hn)⟩
    obtain ⟨hrequired, havailable⟩ := h.closed (hk.imp_right hfailed.mpr)
    refine ⟨(hR.required h.writer).trans hrequired, Bool.eq_false_iff.mpr fun hav => ?_⟩
    rw [hR.available h.writer hav] at havailable
    cases havailable
  same w s e hs he h := by
    refine ⟨hs.writer.trans h.writer, fun hk => ?_, fun hn => he.resetFailed.not.mpr (h.fresh hn)⟩
    have hclosed := h.closed (hk.imp_right he.resetFailed.mp)
    rwa [HostState.Closed, Threads.World.shared_note, hs.flags]

theorem Stopping.assertion : Assertion t (Stopping t k n ids) where
  stable w w' hR h := ⟨Gated.assertion.stable w w' hR h.1, fun id hid =>
    h.2 id (hR.running h.1.writer id hid)⟩
  same w s e hs he h := ⟨Gated.assertion.same w s e hs he h.1, fun id hid =>
    h.2 id ((hs.running id).mp hid)⟩

theorem covered_stable {w w' : HostWorld} (hR : HostRely t w w') (hw : w.shared.writer = some t)
    (h : w.shared.Covered) : w'.shared.Covered :=
  fun id hid => hR.workers hw id hid (h id (hR.running hw id hid))

theorem covered_same {w : HostWorld} {s : HostState} (hs : SameCore w.shared s)
    (h : w.shared.Covered) : s.Covered := by
  intro id hid
  rw [hs.workers]
  exact h id ((hs.running id).mp hid)

theorem Scope.assertion : Assertion t (Scope t k n) where
  stable w w' hR h := ⟨Gated.assertion.stable w w' hR h.1, covered_stable hR h.1.writer h.2⟩
  same w s e hs he h := ⟨Gated.assertion.same w s e hs he h.1, covered_same hs h.2⟩

theorem Opened.assertion : Assertion t (Opened t n) where
  stable _ _ hR h := ⟨hR.writes.mp h.writer, covered_stable hR h.writer h.covered, fun hn =>
    (hR.failed (.inl h.writer)).not.mp (h.fresh hn)⟩
  same _ _ _ hs he h := ⟨hs.writer.trans h.writer, covered_same hs h.covered, fun hn =>
    he.resetFailed.not.mpr (h.fresh hn)⟩

theorem Ready.assertion : Assertion t (Ready t k n b) where
  stable _ _ hR h := ⟨Scope.assertion.stable _ _ hR h.scope, fun hd =>
    h.undrained (hR.undrained h.scope.1.writer hd), (hR.backend h.scope.1.writer).trans h.backend⟩
  same _ _ _ hs he h := ⟨Scope.assertion.same _ _ _ hs he h.scope, he.drained.not.mpr h.undrained,
    hs.backend.trans h.backend⟩

theorem Stopping.scope {w : HostWorld} (h : Stopping t k n [] w) : Scope t k n w :=
  ⟨h.1, fun id hid => absurd (h.2 id hid) List.not_mem_nil⟩

end Assertions

/-! ## Operations -/

section Operations

variable {config : NatsRuntimeConfig} {t : Nat} {c : HostCall} {w : HostWorld} {α β : Type}
  {I : HostWorld → Prop} {E : NatsHostError → HostWorld → Prop}

theorem Stable.lasting (hI : Stable t I) (h : I w) : (hostDiscipline config).Lasting t I w :=
  fun w' hR _ => hI w w' hR h

theorem safe_op {o : HostOp} {Q : o.Res → HostWorld → Prop} (hI : Stable t I) (h : I w)
    (hpermits : ∀ w, HostInv w → I w → HostPermits w t o)
    (hstep : ∀ w answer s, HostInv w → I w → w.shared.after t o answer = some s →
      (hostDiscipline config).Keeps t w (w.note s (.did t c o answer)) ∧
        (hostDiscipline config).Lasting t (Q answer) (w.note s (.did t c o answer))) :
    (hostDiscipline config).SafeE t c Q E (op o) w := by
  refine Discipline.SafeE.liftP (Discipline.Safe.perform o fun w₁ hR hI₁ => ?_)
  have h₁ := hI w w₁ hR h
  exact ⟨hpermits w₁ hI₁ h₁, fun answer s he => hstep w₁ answer s hI₁ h₁ he⟩

/-- An operation that changes nothing, and what its answer says. -/
theorem safe_observe {o : HostOp} (ho : o.Neutral) {Q : o.Res → HostWorld → Prop}
    (hI : Assertion t I) (h : I w) (hpermits : ∀ w, HostInv w → I w → HostPermits w t o)
    (hQ : ∀ answer, Stable t (Q answer))
    (hanswer : ∀ w answer s e, HostInv w → I w → w.shared.after t o answer = some s →
      SameCore w.shared s → Plain e → I (w.note s e) → Q answer (w.note s e)) :
    (hostDiscipline config).SafeE t c Q E (op o) w := by
  refine safe_op hI.stable h hpermits fun w₁ answer s hinv h₁ hafter => ?_
  have hsame := ho.same hafter
  have hplain : Plain (.did t c o answer) := by
    intro failed heq
    rw [heq] at ho
    exact ho
  refine ⟨(HostChange.of_same hinv hsame).keeps hinv hplain fun _ id => (hsame.running id).mp, ?_⟩
  exact (hQ answer).lasting (hanswer w₁ answer s _ hinv h₁ hafter hsame hplain
    (hI.same w₁ s _ hsame hplain h₁))

/-- What an operation that changes nothing keeps. -/
theorem safe_neutral {o : HostOp} (ho : o.Neutral) (hI : Assertion t I) (h : I w)
    (hpermits : ∀ w, HostInv w → I w → HostPermits w t o) :
    (hostDiscipline config).SafeE t c (fun _ => I) E (op o) w :=
  safe_observe ho hI h hpermits (fun _ => hI.stable) fun _ _ _ _ _ _ _ _ _ h => h

theorem safe_request {r : HostRequest} (hI : Assertion t I) (h : I w)
    (hE : ∀ e, ∀ w, I w → E e w) :
    (hostDiscipline config).SafeE t c (fun _ => I) E (Host.request r) w := by
  refine Discipline.SafeE.bind (Discipline.SafeE.mono
    (safe_neutral (o := .request r) (E := fun _ => I) trivial hI h fun _ _ _ => trivial)
    (fun answer w₁ _ h₁ => ?_) fun e w hinv he => hE e w (he.here hinv))
  cases answer with
  | true => exact Discipline.SafeE.pure h₁
  | false => exact Discipline.SafeE.throw fun w' hR hinv => hE _ w' (h₁ w' hR hinv)

/-- A block that holds a lock keeps what the block keeps. -/
theorem safe_withLock {l u : HostOp} (hlock : l.Neutral) (hunlock : u.Neutral)
    (hpermits : ∀ w, HostPermits w t l ∧ HostPermits w t u) {Q : α → HostWorld → Prop}
    {block : Host α} (hI : Assertion t I) (hQ : ∀ a, Assertion t (Q a))
    (hE : ∀ e, Assertion t (E e))
    (hblock : ∀ w, HostInv w → I w → (hostDiscipline config).SafeE t c Q E block w) (h : I w) :
    (hostDiscipline config).SafeE t c Q E (withLock l u block) w := by
  refine Discipline.Safe.bind (Discipline.Safe.perform l fun w₁ hR₁ hI₁ =>
    ⟨(hpermits w₁).1, fun answer s hafter => ?_⟩)
  have hplain : ∀ {o : HostOp} {answer : o.Res}, o.Neutral → Plain (.did t c o answer) := by
    intro o answer ho failed heq
    rw [heq] at ho
    exact ho
  have hsame := hlock.same hafter
  refine ⟨(HostChange.of_same hI₁ hsame).keeps hI₁ (hplain hlock) fun _ id => (hsame.running id).mp,
    fun w₂ hR₂ hI₂ => ?_⟩
  have h₂ := hI.stable _ _ hR₂ (hI.same _ _ _ hsame (hplain hlock) (hI.stable _ _ hR₁ h))
  refine Discipline.Safe.bind (Discipline.Safe.mono (hblock w₂ hI₂ h₂) fun r w₃ hI₃ hr => ?_)
  refine Discipline.Safe.bind (Discipline.Safe.perform u fun w₄ hR₄ hI₄ =>
    ⟨(hpermits w₄).2, fun answer s hafter => ?_⟩)
  have hsame := hunlock.same hafter
  refine ⟨(HostChange.of_same hI₄ hsame).keeps hI₄ (hplain hunlock)
    fun _ id => (hsame.running id).mp, fun w₅ hR₅ hI₅ => Discipline.Safe.pure fun w₆ hR₆ hI₆ => ?_⟩
  have hR := hR₅.trans hR₆
  cases r with
  | ok a =>
    exact (hQ a).stable _ _ hR ((hQ a).same _ _ _ hsame (hplain hunlock) (hr w₄ hR₄ hI₄))
  | error e =>
    exact (hE e).stable _ _ hR ((hE e).same _ _ _ hsame (hplain hunlock) (hr w₄ hR₄ hI₄))

section Locks

variable {Q : α → HostWorld → Prop} {block : Host α} (hI : Assertion t I)
  (hQ : ∀ a, Assertion t (Q a)) (hE : ∀ e, Assertion t (E e))
  (hblock : ∀ w, HostInv w → I w → (hostDiscipline config).SafeE t c Q E block w) (h : I w)
include hI hQ hE hblock h

theorem safe_withWorkers : (hostDiscipline config).SafeE t c Q E (withWorkers block) w :=
  safe_withLock (l := .lockWorkers) (u := .unlockWorkers) trivial trivial
    (fun _ => ⟨trivial, trivial⟩) hI hQ hE hblock h

theorem safe_withObserver : (hostDiscipline config).SafeE t c Q E (withObserver block) w :=
  safe_withLock (l := .lockObserver) (u := .unlockObserver) trivial trivial
    (fun _ => ⟨trivial, trivial⟩) hI hQ hE hblock h

theorem safe_withFixtures : (hostDiscipline config).SafeE t c Q E (withFixtures block) w :=
  safe_withLock (l := .lockFixtures) (u := .unlockFixtures) trivial trivial
    (fun _ => ⟨trivial, trivial⟩) hI hQ hE hblock h

end Locks

end Operations

/-! ## Blocks of the one that holds the gate -/

section Blocks

variable {config : NatsRuntimeConfig} {t : Nat} {c : HostCall} {w : HostWorld} {k m n : Bool}
  {α : Type} {E : NatsHostError → HostWorld → Prop}

/-- An operation of the one that holds the gate. -/
theorem safe_writer {o : HostOp} {I : HostWorld → Prop} {Q : o.Res → HostWorld → Prop}
    (hI : Stable t I) (h : I w)
    (ho : ∀ failed, o ≠ .releaseWrite failed) (hQ : ∀ answer, Stable t (Q answer))
    (hpermits : ∀ w, HostInv w → I w → HostPermits w t o)
    (hstep : ∀ w answer s, HostInv w → I w → w.shared.after t o answer = some s →
      HostChange t w.shared s ∧
        (Drained w.history → ∀ id, s.Running id → w.shared.Running id) ∧
        ∀ e, Plain e → Q answer (w.note s e)) :
    (hostDiscipline config).SafeE t c Q E (op o) w := by
  refine safe_op hI h hpermits fun w₁ answer s hinv h₁ hafter => ?_
  have hplain : Plain (.did t c o answer) := ho
  obtain ⟨hchange, hrunning, hpost⟩ := hstep w₁ answer s hinv h₁ hafter
  exact ⟨hchange.keeps hinv hplain hrunning, (hQ answer).lasting (hpost _ hplain)⟩

/-- The flags change, and nothing else that the discipline speaks of. -/
theorem HostChange.flags (hI : HostInv w) (hw : w.shared.writer = some t) {flag : HostFlag}
    {value : Bool} (hvalue : flag ≠ .shuttingDown) :
    HostChange t w.shared { w.shared with flags := Function.update w.shared.flags flag value } :=
  .of_writer hI hw rfl rfl hI.current
    (fun h => by simpa [Function.update_of_ne hvalue.symm] using h) fun _ h => h

/-- When a task is joined it has ended. -/
theorem safe_joins {ids : List Nat} (h : Stopping t m n ids w) :
    (hostDiscipline config).SafeE t c (fun _ => Stopping t m n []) (fun _ _ => False)
      (ids.forM Host.join) w := by
  induction ids generalizing w with
  | nil => exact Discipline.SafeE.pure (Stopping.assertion.stable.lasting h)
  | cons id ids ih =>
    refine Discipline.SafeE.seq (M := fun _ => Stopping t m n ids) (Discipline.SafeE.seq
      (M := fun _ => Stopping t m n ids) (safe_observe (o := .join id) trivial Stopping.assertion h
        (fun _ _ _ => trivial) (fun _ => Stopping.assertion.stable)
        fun w answer s e _ h hafter hsame he hnote => ?_)
      fun _ w _ h => Discipline.SafeE.pure (Stopping.assertion.stable.lasting h))
      fun _ w _ h => ih h
    simp only [HostState.after, ite_eq_iff, Option.some.injEq, reduceCtorEq, and_false, or_false]
      at hafter
    refine ⟨hnote.1, fun other hother => ?_⟩
    rcases List.mem_cons.mp (hnote.2 other hother) with rfl | hmem
    · -- the task that was joined does not run
      obtain ⟨task, hget, hnone⟩ := (hsame.running other).mp hother
      rw [hget, Option.bind_some, hnone] at hafter
      exact absurd hafter.1 (by simp)
    · exact hmem

/-- `stop_in_scope` leaves no task that runs. It closes the runtime, if a reset is required. -/
theorem safe_stopInScope (h : Scope t false n w)
    (hrequired : m = true → w.shared.flags .resetRequired = true) :
    (hostDiscipline config).SafeE t c (fun _ => Stopping t m n []) (fun _ _ => False) stopInScope
      w := by
  have hstart : Stable t fun w => Scope t false n w ∧
      (m = true → w.shared.flags .resetRequired = true) := fun w w' hR h =>
    ⟨Scope.assertion.stable w w' hR h.1, fun hm => (hR.required h.1.1.writer).trans (h.2 hm)⟩
  refine Discipline.SafeE.seq (M := fun _ => Scope t m n) (safe_writer (o := .store .available false)
    hstart ⟨h, hrequired⟩ (by simp) (fun _ => Scope.assertion.stable) (fun _ _ _ => trivial)
    fun w _ s hinv h hafter => ?_) fun _ w _ h => ?_
  · obtain rfl := Option.some.inj hafter
    refine ⟨.flags hinv h.1.1.writer (by simp), fun _ _ hid => hid, fun e he => ⟨⟨h.1.1.writer,
      fun hk => ⟨?_, by simp⟩, fun hn => he.resetFailed.not.mpr (h.1.1.fresh hn)⟩, h.1.2⟩⟩
    rcases hk with hm | hfailed
    · simpa using h.2 hm
    · simpa using (h.1.1.closed (.inr (he.resetFailed.mp hfailed))).1
  -- the list is taken
  refine Discipline.SafeE.seq (M := fun ids => Stopping t m n ids) (safe_withWorkers Scope.assertion
    (fun _ => Stopping.assertion) (fun _ => ⟨fun _ _ _ h => h, fun _ _ _ _ _ h => h⟩)
    (fun w _ h => ?_) h) fun ids w _ h => ?_
  · refine safe_writer (o := .takeWorkers) Scope.assertion.stable h (by simp)
      (fun _ => Stopping.assertion.stable) (fun _ _ _ => trivial) fun w ids s hinv h hafter => ?_
    simp only [HostState.after, ite_eq_iff, Option.some.injEq, reduceCtorEq, and_false, or_false]
      at hafter
    obtain ⟨rfl, rfl⟩ := hafter
    exact ⟨.of_writer hinv h.1.writer rfl rfl hinv.current (fun h => h) fun _ h => h,
      fun _ _ hid => hid, fun e he => ⟨⟨h.1.writer, fun hk =>
        h.1.closed (hk.imp_right he.resetFailed.mp), fun hn => he.resetFailed.not.mpr (h.1.fresh hn)⟩,
        h.2⟩⟩
  refine Discipline.SafeE.seq (M := fun _ => Stopping t m n ids) (Discipline.SafeE.forM
    (fun id _ w hinv h => ?_) (Stopping.assertion.stable.lasting h)) fun _ w _ h => safe_joins h
  -- an abort lets every task run
  refine safe_writer (o := .abort id) Stopping.assertion.stable (h.here hinv) (by simp)
    (fun _ => Stopping.assertion.stable) (fun _ _ _ => trivial) fun w _ s hinv h hafter => ?_
  obtain rfl := Option.some.inj hafter
  obtain ⟨hchange, hrunning⟩ := HostChange.abort hinv h.1.writer id
  exact ⟨hchange, fun _ => hrunning, fun e he => ⟨⟨h.1.writer, fun hk =>
    h.1.closed (hk.imp_right he.resetFailed.mp), fun hn => he.resetFailed.not.mpr (h.1.fresh hn)⟩,
    fun other hother => h.2 other (hrunning other hother)⟩⟩

/-! ## Starting -/

theorem safe_spawn {backend : Nat} {kind : WorkerKind} (h : Ready t k n backend w) :
    (hostDiscipline config).SafeE t c (fun _ => Ready t k n backend) E (Host.spawn backend kind) w := by
  refine Discipline.SafeE.seq (M := fun _ => Ready t k n backend) (safe_writer
    (o := .spawn kind backend) Ready.assertion.stable h (by simp) (fun _ => Ready.assertion.stable)
    (fun _ _ h => h.undrained) fun w id s hinv h hafter => ?_)
    fun _ w _ h => Discipline.SafeE.pure (Ready.assertion.stable.lasting h)
  simp only [HostState.after, ite_eq_iff, Option.some.injEq, reduceCtorEq, and_false, or_false]
    at hafter
  obtain ⟨rfl, rfl⟩ := hafter
  obtain rfl := h.backend
  obtain ⟨hchange, hcovered⟩ := HostChange.spawn hinv h.scope.1.writer kind
  exact ⟨hchange, fun hd => absurd hd h.undrained, fun e he => ⟨⟨⟨h.scope.1.writer, fun hk =>
    h.scope.1.closed (hk.imp_right he.resetFailed.mp), fun hn =>
      he.resetFailed.not.mpr (h.scope.1.fresh hn)⟩, hcovered h.scope.2⟩,
    he.drained.not.mpr h.undrained, rfl⟩⟩

/-- Two requests for each item. -/
theorem safe_requests {I : HostWorld → Prop} (hI : Assertion t I) (h : I w) (hE : ∀ e w, I w → E e w)
    (first second : HostRequest) : (hostDiscipline config).SafeE t c (fun _ => I) E (do
      Host.request first
      Host.request second) w :=
  Discipline.SafeE.seq (safe_request hI h hE) fun _ _ _ h => safe_request hI h hE

theorem safe_prepareIntegration {I : HostWorld → Prop} (hI : Assertion t I) (h : I w)
    (hE : ∀ e w, I w → E e w) (address : String) (binding : Option String) :
    (hostDiscipline config).SafeE t c (fun _ => I) E (prepareIntegration address binding) w := by
  have hthrow : ∀ e, (hostDiscipline config).SafeE (α := Unit) t c (fun _ => I) E
      (throwThe NatsHostError e) w := fun e =>
    Discipline.SafeE.throw fun w' hR _ => hE e w' (hI.stable w w' hR h)
  unfold prepareIntegration
  split
  · exact hthrow _
  · split
    · exact hthrow _
    · exact safe_requests hI h hE _ _

theorem safe_prepareIntegrations {I : HostWorld → Prop} (hI : Assertion t I) (h : I w)
    (hE : ∀ e w, I w → E e w) :
    (hostDiscipline config).SafeE t c (fun _ => I) E (prepareIntegrations config) w := by
  unfold prepareIntegrations
  split
  · exact Discipline.SafeE.throw fun w' hR _ => hE _ w' (hI.stable w w' hR h)
  · exact Discipline.SafeE.forM (fun _ _ w hinv h =>
      safe_prepareIntegration hI (h.here hinv) hE _ _) (hI.stable.lasting h)

theorem safe_prepareDomain {I : HostWorld → Prop} (hI : Assertion t I) (h : I w)
    (hE : ∀ e w, I w → E e w) :
    (hostDiscipline config).SafeE t c (fun _ => I) E (prepareDomain config) w := by
  unfold prepareDomain
  split
  · exact safe_requests hI h hE _ _
  · exact Discipline.SafeE.pure (hI.stable.lasting h)

/-- The store of the observation is the one of the backend. -/
theorem safe_prepareObserver {backend : Nat} (h : Ready t k n backend w)
    (hE : ∀ e w, Ready t k n backend w → E e w) (hEA : ∀ e, Assertion t (E e)) :
    (hostDiscipline config).SafeE t c (fun observation w => Ready t k n backend w ∧
      ∀ store, observation = some store → store = backend) E prepareObserver w := by
  refine Discipline.SafeE.seq (M := fun _ => Ready t k n backend) (safe_withObserver Ready.assertion
    (fun _ => Ready.assertion) hEA (fun w _ h => safe_neutral (o := .readObserver) trivial
      Ready.assertion h fun _ _ _ => trivial) h) fun observer w _ h => ?_
  rcases observer with _ | observer
  · exact Discipline.SafeE.pure fun w' hR _ => ⟨Ready.assertion.stable w w' hR h, by simp⟩
  have hstable : ∀ store, Stable t fun w => Ready t k n backend w ∧ store = backend :=
    fun store w w' hR h => ⟨Ready.assertion.stable w w' hR h.1, h.2⟩
  refine Discipline.SafeE.seq (M := fun store w => Ready t k n backend w ∧ store = backend)
    (Discipline.SafeE.seq (safe_request Ready.assertion h hE) fun _ w _ h =>
      Discipline.SafeE.seq (safe_request Ready.assertion h hE) fun _ w _ h =>
        safe_observe (o := .snapshot) trivial Ready.assertion h (fun _ _ _ => trivial) hstable
          fun w store s e _ h hafter _ _ hnote => ⟨hnote, ?_⟩)
    fun store w _ h => Discipline.SafeE.pure fun w' hR _ =>
      ⟨Ready.assertion.stable w w' hR h.1, fun other hother => Option.some.inj hother ▸ h.2⟩
  simp only [HostState.after, ite_eq_iff, reduceCtorEq, and_false, or_false] at hafter
  exact hafter.1.trans h.backend

/-- `start_in_scope` once it has seen that there is no shutdown. -/
theorem safe_startAll (hscope : Scope t k n w) (hundrained : ¬ Drained w.history) :
    (hostDiscipline config).SafeE t c (fun _ => Opened t n) (fun _ => Scope t k n)
      (startAll config) w := by
  have hstart : Assertion t fun w => Scope t k n w ∧ ¬ Drained w.history :=
    ⟨fun w w' hR h => ⟨Scope.assertion.stable w w' hR h.1, fun hd =>
        h.2 (hR.undrained h.1.1.writer hd)⟩,
      fun w s e hs he h => ⟨Scope.assertion.same w s e hs he h.1, he.drained.not.mpr h.2⟩⟩
  refine Discipline.SafeE.seq (M := fun backend => Ready t k n backend) (safe_observe (o := .snapshot)
    trivial hstart ⟨hscope, hundrained⟩ (fun _ _ _ => trivial) (fun _ => Ready.assertion.stable)
    fun w backend s e _ h hafter hsame _ hnote => ⟨hnote.1, hnote.2, ?_⟩) fun backend w _ h => ?_
  · simp only [HostState.after, ite_eq_iff, reduceCtorEq, and_false, or_false] at hafter
    exact hsame.backend.trans hafter.1.symm
  have hE : ∀ e : NatsHostError, ∀ w, Ready t k n backend w → Scope t k n w := fun _ _ h => h.scope
  have hlasting : ∀ {w}, Ready t k n backend w →
      (hostDiscipline config).Lasting t (Ready t k n backend) w := Ready.assertion.stable.lasting
  -- everything is prepared
  refine Discipline.SafeE.seq (M := fun _ => Ready t k n backend) (Discipline.SafeE.forM
    (fun _ _ w hinv h => safe_requests Ready.assertion (h.here hinv) hE _ _) (hlasting h))
    fun _ w _ h => ?_
  refine Discipline.SafeE.seq (safe_prepareIntegrations Ready.assertion h hE) fun _ w _ h => ?_
  refine Discipline.SafeE.seq (safe_prepareDomain Ready.assertion h hE) fun _ w _ h => ?_
  refine Discipline.SafeE.seq (safe_prepareObserver h hE fun _ => Scope.assertion)
    fun observation w _ h => ?_
  obtain ⟨h, hstore⟩ := h
  -- all tasks are spawned
  refine Discipline.SafeE.seq (M := fun _ => Ready t k n backend) (Discipline.SafeE.forM
    (fun _ _ w hinv h => safe_spawn (h.here hinv)) (hlasting h)) fun _ w _ h => ?_
  refine Discipline.SafeE.seq (M := fun _ => Ready t k n backend) (Discipline.SafeE.forM
    (fun _ _ w hinv h => safe_spawn (h.here hinv)) (hlasting h)) fun _ w _ h => ?_
  refine Discipline.SafeE.seq (M := fun _ => Ready t k n backend) ?_ fun _ w _ h => ?_
  · unfold spawnDomain
    split
    · exact safe_spawn h
    · exact Discipline.SafeE.pure (hlasting h)
  refine Discipline.SafeE.seq (M := fun _ => Ready t k n backend) ?_ fun _ w _ h => ?_
  · rcases observation with _ | store
    · exact Discipline.SafeE.pure (hlasting h)
    · obtain rfl := hstore store rfl
      exact safe_spawn h
  refine safe_writer (o := .store .available true) Ready.assertion.stable h (by simp)
    (fun _ => Opened.assertion.stable) (fun _ _ _ => trivial) fun w _ s hinv h hafter => ?_
  obtain rfl := Option.some.inj hafter
  exact ⟨.flags hinv h.scope.1.writer (by simp), fun _ _ hid => hid, fun e he =>
    ⟨h.scope.1.writer, h.scope.2, fun hn => he.resetFailed.not.mpr (h.scope.1.fresh hn)⟩⟩

theorem Scope.weaken (h : Scope t k n w) : Scope t false false w :=
  ⟨⟨h.1.writer, fun hk => h.1.closed (.inr (hk.resolve_left (by simp))), by simp⟩, h.2⟩

theorem Scope.opened (h : Scope t k n w) : Opened t n w := ⟨h.1.writer, h.2, h.1.fresh⟩

/-- Looking at tasks. -/
theorem safe_noneFinished {I : HostWorld → Prop} (hI : Assertion t I) (h : I w) (ids : List Nat) :
    (hostDiscipline config).SafeE t c (fun _ => I) E (noneFinished ids) w := by
  induction ids generalizing w with
  | nil => exact Discipline.SafeE.pure (hI.stable.lasting h)
  | cons id ids ih =>
    refine Discipline.SafeE.seq (M := fun _ => I) (safe_neutral (o := .isFinished id) trivial hI h
      fun _ _ _ => trivial) fun finished w _ h => ?_
    cases finished with
    | true => exact Discipline.SafeE.pure (hI.stable.lasting h)
    | false => exact ih h

/-- `start_in_scope` opens the runtime, or leaves it as it was. -/
theorem safe_startInScope (h : Scope t k n w) :
    (hostDiscipline config).SafeE t c (fun _ => Opened t n) (fun _ => Scope t k n)
      (startInScope config) w := by
  have hload : ∀ shutting : Bool, Stable t fun w => Scope t k n w ∧
      (shutting = false → ¬ Drained w.history) := fun shutting w w' hR h =>
    ⟨Scope.assertion.stable w w' hR h.1, fun hs hd => h.2 hs (hR.undrained h.1.1.writer hd)⟩
  refine Discipline.SafeE.seq (M := fun shutting w => Scope t k n w ∧
      (shutting = false → ¬ Drained w.history)) (safe_observe (o := .load .shuttingDown) trivial
    Scope.assertion h (fun _ _ _ => trivial) hload fun w shutting s e hinv h hafter _ he hnote =>
      ⟨hnote, fun hs hd => ?_⟩) fun shutting w _ h => ?_
  · -- a call that has drained the runtime began after the flag was stored
    simp only [HostState.after, ite_eq_iff, reduceCtorEq, and_false, or_false] at hafter
    rw [hinv.shutdown (he.drained.mp hd).shutdown, hs] at hafter
    cases hafter.1
  obtain ⟨hscope, hundrained⟩ := h
  cases shutting with
  | true => exact Discipline.SafeE.throw (Scope.assertion.stable.lasting hscope)
  | false =>
    have hassert : Assertion t fun w => Scope t k n w ∧ ¬ Drained w.history :=
      ⟨fun w w' hR h => ⟨Scope.assertion.stable w w' hR h.1, fun hd =>
          h.2 (hR.undrained h.1.1.writer hd)⟩,
        fun w s e hs he h => ⟨Scope.assertion.same w s e hs he h.1, he.drained.not.mpr h.2⟩⟩
    refine safe_withWorkers hassert (fun _ => Opened.assertion) (fun _ => Scope.assertion)
      (fun w _ h => ?_) ⟨hscope, hundrained rfl⟩
    refine Discipline.SafeE.seq (safe_neutral (o := .readWorkers) trivial hassert h
      fun _ _ _ => trivial) fun ids w _ h => ?_
    split
    · exact safe_startAll h.1 h.2
    refine Discipline.SafeE.seq (safe_noneFinished Scope.assertion h.1 ids) fun finished w _ h => ?_
    cases finished with
    | true => exact Discipline.SafeE.pure (Opened.assertion.stable.lasting h.opened)
    | false => exact Discipline.SafeE.throw (Scope.assertion.stable.lasting h)

/-- Applying a fixture keeps what such operations keep. -/
theorem safe_applyFixtureInScope {I : HostWorld → Prop} (hI : Assertion t I) (h : I w)
    (fixture : String) :
    (hostDiscipline config).SafeE t c (fun _ => I) (fun _ => I) (applyFixtureInScope fixture) w := by
  have hE : ∀ _ : NatsHostError, ∀ w, I w → I w := fun _ _ h => h
  refine Discipline.SafeE.seq (safe_request hI h hE) fun _ w _ h => ?_
  refine safe_withFixtures hI (fun _ => hI) (fun _ => hI) (fun w _ h => ?_) h
  refine Discipline.SafeE.seq (safe_neutral (o := .extendFixtures fixture) trivial hI h
    fun _ _ _ => trivial) fun _ w _ h => ?_
  exact Discipline.SafeE.seq (safe_neutral (o := .snapshot) trivial hI h fun _ _ _ => trivial)
    fun store w _ h => safe_request hI h hE

/-- Whoever passes `ensure_reset` with the gate knows that no reset has failed. -/
theorem safe_ensureReset (h : Scope t false false w) :
    (hostDiscipline config).SafeE t c (fun _ => Scope t false true) (fun _ => Scope t false false)
      ensureReset w := by
  refine Discipline.SafeE.seq (M := fun required w => Scope t false false w ∧
      (required = false → Scope t false true w)) (safe_observe (o := .load .resetRequired) trivial
    Scope.assertion h (fun _ _ _ => trivial) (fun required w w' hR h =>
      ⟨Scope.assertion.stable w w' hR h.1, fun hr => Scope.assertion.stable w w' hR (h.2 hr)⟩)
    fun w required s e hinv h hafter hsame he hnote =>
      ⟨hnote, fun hr => ⟨⟨hnote.1.writer, hnote.1.closed, fun _ hfailed => ?_⟩, hnote.2⟩⟩)
    fun required w _ h => ?_
  · simp only [HostState.after, ite_eq_iff, reduceCtorEq, and_false, or_false] at hafter
    have hclosed := h.1.closed (.inr (he.resetFailed.mp hfailed))
    rw [hr, hclosed.1] at hafter
    cases hafter.1
  · cases required with
    | true => exact Discipline.SafeE.throw (Scope.assertion.stable.lasting h.1)
    | false => exact Discipline.SafeE.pure (Scope.assertion.stable.lasting (h.2 rfl))

/-- The steps of a reset that hold the gate. -/
theorem safe_resetInScope (h : Scope t false false w) (fixture : String) :
    (hostDiscipline config).SafeE t c (fun _ => Opened t false) (fun _ => Scope t true false)
      (resetInScope config fixture) w := by
  have hstart : Stable t fun w => Scope t false false w ∧
      w.shared.flags .resetRequired = true := fun w w' hR h =>
    ⟨Scope.assertion.stable w w' hR h.1, (hR.required h.1.1.writer).trans h.2⟩
  refine Discipline.SafeE.seq (M := fun _ w => Scope t false false w ∧
      w.shared.flags .resetRequired = true) (safe_writer (o := .store .resetRequired true)
    Scope.assertion.stable h (by simp) (fun _ => hstart) (fun _ _ _ => trivial)
    fun w _ s hinv h hafter => ?_) fun _ w _ h => ?_
  · obtain rfl := Option.some.inj hafter
    refine ⟨.flags hinv h.1.writer (by simp), fun _ _ hid => hid, fun e he => ⟨⟨⟨h.1.writer,
      fun hk => ?_, by simp⟩, h.2⟩, by simp⟩⟩
    have hclosed := h.1.closed (hk.imp_right he.resetFailed.mp)
    exact ⟨by simp, by simpa using hclosed.2⟩
  have hE : ∀ _ : NatsHostError, ∀ w, Stopping t true false [] w → Scope t true false w :=
    fun _ _ h => h.scope
  refine Discipline.SafeE.seq (Discipline.SafeE.never (safe_stopInScope (m := true) h.1 fun _ => h.2))
    fun _ w _ h => ?_
  refine Discipline.SafeE.seq (Discipline.SafeE.never (safe_withFixtures Stopping.assertion
    (fun _ => Stopping.assertion) (fun _ => ⟨fun _ _ _ h => h, fun _ _ _ _ _ h => h⟩)
    (fun w _ h => safe_neutral (o := .clearFixtures) trivial Stopping.assertion h
      fun _ _ _ => trivial) h)) fun _ w _ h => ?_
  refine Discipline.SafeE.seq (M := fun _ => Stopping t true false []) (Discipline.SafeE.forM
    (fun _ _ w hinv h => safe_request Stopping.assertion (h.here hinv) hE)
    (Stopping.assertion.stable.lasting h)) fun _ w _ h => ?_
  refine Discipline.SafeE.seq (safe_request Stopping.assertion h hE) fun _ w _ h => ?_
  refine Discipline.SafeE.seq (safe_request Stopping.assertion h hE) fun _ w _ h => ?_
  refine Discipline.SafeE.seq (safe_neutral (o := .newBackend) trivial Stopping.assertion h
    fun _ _ _ => trivial) fun backend w _ h => ?_
  rcases backend with _ | backend
  · exact Discipline.SafeE.throw (Scope.assertion.stable.lasting h.scope)
  -- no task runs when the backend is replaced
  refine Discipline.SafeE.seq (M := fun _ => Scope t true false) (safe_writer
    (o := .replaceBackend backend) Stopping.assertion.stable h (by simp)
    (fun _ => Scope.assertion.stable) (fun _ _ _ => trivial) fun w _ s hinv h hafter => ?_)
    fun _ w _ h => ?_
  · obtain rfl := Option.some.inj hafter
    refine ⟨.of_writer hinv h.1.writer rfl rfl (fun task hmem hnone => ?_) (fun h => h) fun _ h => h,
      fun _ _ hid => hid, fun e he => ⟨⟨h.1.writer, fun hk =>
        h.1.closed (hk.imp_right he.resetFailed.mp), by simp⟩, h.scope.2⟩⟩
    obtain ⟨id, hid⟩ := List.mem_iff_getElem?.mp hmem
    exact absurd (h.2 id ⟨task, hid, hnone⟩) List.not_mem_nil
  refine Discipline.SafeE.seq (safe_applyFixtureInScope Scope.assertion h fixture) fun _ w _ h => ?_
  refine Discipline.SafeE.seq (safe_startInScope h) fun _ w _ h => ?_
  refine safe_writer (o := .store .resetRequired false) Opened.assertion.stable h (by simp)
    (fun _ => Opened.assertion.stable) (fun _ _ _ => trivial) fun w _ s hinv h hafter => ?_
  obtain rfl := Option.some.inj hafter
  exact ⟨.flags hinv h.writer (by simp), fun _ _ hid => hid, fun e he =>
    ⟨h.writer, h.covered, by simp⟩⟩

end Blocks

/-! ## The gate -/

section Calls

variable {config : NatsRuntimeConfig} {t : Nat} {c : HostCall} {w : HostWorld} {k n : Bool}
  {α : Type}

/-- What a block leaves lets the gate be released. -/
theorem Scope.canRelease {failed : Bool} (h : Scope t k n w)
    (hreset : ∀ fixture, c = .reset fixture → failed = true → k = true)
    (hstop : c = .stopWorkers → ∀ id, ¬ w.shared.Running id) : CanRelease t c failed w := by
  refine ⟨h.1.writer, h.2, fun hfailed => h.1.closed ?_, fun hc _ => hstop hc⟩
  rcases resetFailed_snoc.mp hfailed with ⟨u, fixture, heq⟩ | ⟨hfailed, -⟩
  · injection heq with _ hc hop
    exact .inl (hreset fixture hc (HostOp.releaseWrite.inj hop))
  · exact .inr hfailed

/-- After it was opened, the gate is released by a success. -/
theorem Opened.canRelease (h : Opened t n w) (hn : n = false → ∃ fixture, c = .reset fixture)
    (hc : c ≠ .stopWorkers) : CanRelease t c false w := by
  refine ⟨h.writer, h.covered, fun hfailed => ?_, fun hstop => absurd hstop hc⟩
  rcases resetFailed_snoc.mp hfailed with ⟨u, fixture, heq⟩ | ⟨hfailed, hnot⟩
  · injection heq with _ _ hop
    cases HostOp.releaseWrite.inj hop
  · cases n with
    | true => exact absurd hfailed (h.fresh rfl)
    | false =>
      obtain ⟨fixture, rfl⟩ := hn rfl
      exact absurd rfl (hnot t fixture)

/-- A block that holds the gate: it starts with the invariant's part, and gives it back. -/
theorem safe_withWrite {Q : α → HostWorld → Prop} {E : NatsHostError → HostWorld → Prop}
    {block : Host α} (hblock : ∀ w, HostInv w → Scope t false false w →
      (hostDiscipline config).SafeE t c Q E block w)
    (hok : ∀ a w, HostInv w → Q a w → CanRelease t c false w)
    (herror : ∀ e w, HostInv w → E e w → CanRelease t c true w) :
    (hostDiscipline config).SafeE t c
      (fun _ w => c = .stopWorkers → Late t w.history → Drained w.history)
      (fun _ w => c = .stopWorkers → Late t w.history → Drained w.history) (withWrite block) w := by
  refine Discipline.Safe.bind (Discipline.Safe.perform HostOp.acquireWrite fun w₁ hR₁ hI₁ =>
    ⟨trivial, fun answer s hafter => ?_⟩)
  change w₁.shared.after t .acquireWrite answer = some s at hafter
  simp only [HostState.after, ite_eq_iff, Option.some.injEq, reduceCtorEq, and_false, or_false]
    at hafter
  obtain ⟨⟨hwriter, hreaders⟩, rfl⟩ := hafter
  have hplain : Plain (.did t c .acquireWrite answer) := by simp [Plain]
  refine ⟨(HostChange.acquireWrite hI₁ hwriter hreaders).keeps hI₁ hplain fun _ _ hid => hid,
    fun w₂ hR₂ hI₂ => ?_⟩
  have hentered : Scope t false false w₂ := by
    refine Scope.assertion.stable _ _ hR₂ ⟨⟨rfl, fun hk => ?_, by simp⟩, hI₁.covered hwriter⟩
    exact hI₁.closed hwriter (hplain.resetFailed.mp (hk.resolve_left (by simp)))
  refine Discipline.Safe.bind (Discipline.Safe.mono (hblock w₂ hI₂ hentered) fun r w₃ hI₃ hr => ?_)
  refine Discipline.Safe.bind (Discipline.Safe.perform (HostOp.releaseWrite (!r.isOk))
    fun w₄ hR₄ hI₄ => ⟨trivial, fun answer s hafter => ?_⟩)
  obtain rfl := Option.some.inj hafter
  have hcan : CanRelease t c (!r.isOk) w₄ := by
    have hpost := hr w₄ hR₄ hI₄
    cases r with
    | ok a => exact hok a w₄ hI₄ hpost
    | error e => exact herror e w₄ hI₄ hpost
  refine ⟨hcan.keeps hI₄, fun w₅ hR₅ hI₅ => Discipline.Safe.pure fun w₆ hR₆ _ => ?_⟩
  have hR := hR₅.trans hR₆
  have hdrained : c = .stopWorkers → Late t w₆.history → Drained w₆.history := by
    rintro rfl hlate
    have hlate := hR.late.mpr hlate
    rw [Threads.World.history_note, late_snoc] at hlate
    exact hR.drained (drained_snoc.mpr (.inr ⟨t, _, rfl, hlate.resolve_right (by simp)⟩))
  cases r with
  | ok a => exact hdrained
  | error e => exact hdrained

/-! ## Invocations -/

theorem notLate_assertion : Assertion t fun w => ¬ Late t w.history :=
  ⟨fun _ _ hR h => hR.late.not.mp h, fun _ _ _ _ he h => he.late.not.mpr h⟩

/-- A reader of the gate that was admitted. -/
structure Admitted (t : Nat) (w : HostWorld) : Prop where
  reads : t ∈ w.shared.readers
  fresh : ¬ ResetFailed w.history

theorem Admitted.assertion : Assertion t (Admitted t) where
  stable _ _ hR h := ⟨hR.reads.mp h.reads, (hR.failed (.inr h.reads)).not.mp h.fresh⟩
  same _ _ _ hs he h := ⟨hs.readers ▸ h.reads, he.resetFailed.not.mpr h.fresh⟩

theorem reads_assertion : Assertion t fun w => t ∈ w.shared.readers :=
  ⟨fun _ _ hR h => hR.reads.mp h, fun _ _ _ hs _ h => hs.readers ▸ h⟩

/-- Nobody has the gate for itself while it is read. -/
theorem HostInv.writer_eq_none (hI : HostInv w) (h : t ∈ w.shared.readers) :
    w.shared.writer = none := by
  by_contra hw
  rw [hI.exclusive hw] at h
  exact Finset.notMem_empty t h

/-- Who finds the runtime available has not begun after a shutdown. -/
theorem safe_ensureAvailable {I J : HostWorld → Prop} (hI : Assertion t I) (hJ : Assertion t J)
    (hav : ∀ w, HostInv w → I w → w.shared.flags .available = true → J w) (h : I w) :
    (hostDiscipline config).SafeE t c (fun _ w => J w ∧ ¬ Late t w.history) (fun _ _ => True)
      ensureAvailable w := by
  have hunavailable : ∀ (e : NatsHostError) w, (hostDiscipline config).SafeE (α := Unit) t c
      (fun _ w => J w ∧ ¬ Late t w.history) (fun _ _ => True) (throwThe NatsHostError e) w :=
    fun e w => Discipline.SafeE.throw fun _ _ _ => trivial
  refine Discipline.SafeE.seq (M := fun available w => available = true → J w) (safe_observe
    (o := .load .available) trivial hI h (fun _ _ _ => trivial)
    (fun available w w' hR h hav => hJ.stable w w' hR (h hav))
    fun w available s e hinv h hafter hsame he _ hvalue => hJ.same w s e hsame he
      (hav w hinv h ?_)) fun available w _ h => ?_
  · simp only [HostState.after, ite_eq_iff, reduceCtorEq, and_false, or_false] at hafter
    exact hafter.1.trans hvalue
  cases available with
  | false => exact hunavailable _ w
  | true =>
    refine Discipline.SafeE.seq (M := fun shutting w => J w ∧ (shutting = false →
        ¬ Late t w.history)) (safe_observe (o := .load .shuttingDown) trivial hJ (h rfl)
      (fun _ _ _ => trivial) (fun shutting w w' hR h => ⟨hJ.stable w w' hR h.1, fun hs =>
        notLate_assertion.stable w w' hR (h.2 hs)⟩)
      fun w shutting s e hinv h hafter hsame he hnote => ⟨hnote, fun hs hlate => ?_⟩)
      fun shutting w _ h => ?_
    · simp only [HostState.after, ite_eq_iff, reduceCtorEq, and_false, or_false] at hafter
      rw [hs, hinv.shutdown (he.late.mp hlate).shutdown] at hafter
      cases hafter.1
    · cases shutting with
      | true => exact hunavailable _ w
      | false => exact Discipline.SafeE.pure ((hJ.and notLate_assertion).stable.lasting
          ⟨h.1, h.2 rfl⟩)

theorem safe_invoke (invocation : String) :
    (hostDiscipline config).SafeE t c (fun _ _ => True) (fun _ _ => True)
      (NatsRuntime.invoke invocation) w := by
  refine Discipline.SafeE.seq (safe_ensureAvailable Assertion.true Assertion.true
    (fun _ _ _ _ => trivial) trivial) fun _ w _ _ => ?_
  refine Discipline.Safe.bind (Discipline.Safe.perform HostOp.acquireRead fun w₁ hR₁ hI₁ =>
    ⟨trivial, fun answer s hafter => ?_⟩)
  change w₁.shared.after t .acquireRead answer = some s at hafter
  simp only [HostState.after, ite_eq_iff, Option.some.injEq, reduceCtorEq, and_false, or_false]
    at hafter
  obtain ⟨hwriter, rfl⟩ := hafter
  refine ⟨(HostChange.acquireRead hI₁ hwriter).keeps hI₁ (by simp [Plain]) fun _ _ hid => hid,
    fun w₂ hR₂ hI₂ => ?_⟩
  have hreads : t ∈ w₂.shared.readers := hR₂.reads.mp (Finset.mem_insert_self _ _)
  refine Discipline.Safe.bind (Discipline.Safe.mono
    (?hblock : (hostDiscipline config).SafeE t c (fun _ _ => True) (fun _ _ => True) _ w₂)
    fun r w₃ hI₃ _ => ?_)
  case hblock =>
    refine Discipline.SafeE.seq (safe_ensureAvailable (J := Admitted t) reads_assertion
      Admitted.assertion (fun w hinv h hav => ⟨h, fun hfailed => ?_⟩) hreads) fun _ w _ h => ?_
    · rw [(hinv.closed (hinv.writer_eq_none h) hfailed).2] at hav
      cases hav
    have hassert : Assertion t fun w => Admitted t w ∧ ¬ Late t w.history :=
      Admitted.assertion.and notLate_assertion
    refine Discipline.SafeE.seq (safe_neutral (o := .snapshot) trivial hassert h
      fun _ _ _ => trivial) fun backend w _ h => ?_
    refine Discipline.SafeE.seq (safe_neutral (o := .transport backend invocation) trivial hassert h
      fun w hinv h => ⟨hinv.writer_eq_none h.1.reads, h.1.fresh, h.2⟩) fun answer w _ _ => ?_
    cases answer with
    | ok receipt => exact Discipline.SafeE.pure fun _ _ _ => trivial
    | error error => exact Discipline.SafeE.throw fun _ _ _ => trivial
  refine Discipline.Safe.bind (Discipline.Safe.perform HostOp.releaseRead fun w₄ hR₄ hI₄ =>
    ⟨trivial, fun answer s hafter => ?_⟩)
  obtain rfl := Option.some.inj hafter
  refine ⟨(HostChange.releaseRead hI₄).keeps hI₄ (by simp [Plain]) fun _ _ hid => hid,
    fun w₅ _ _ => Discipline.Safe.pure fun w₆ _ _ => ?_⟩
  cases r <;> trivial

/-! ## The other calls -/

/-- A flag that anyone may store. -/
theorem safe_store {I J : HostWorld → Prop} {flag : HostFlag} {value : Bool}
    (hvalue : (flag = .available ∧ value = false) ∨ (flag = .shuttingDown ∧ value = true))
    (hI : Stable t I) (hJ : Stable t J) (h : I w)
    (hIJ : ∀ w e, Plain e → I w → J (w.note { w.shared with
      flags := Function.update w.shared.flags flag value } e)) :
    (hostDiscipline config).SafeE t c (fun _ => J) (fun _ _ => False) (Host.store flag value) w := by
  refine safe_op (o := .store flag value) hI h (fun _ _ _ => trivial)
    fun w answer s hinv h hafter => ?_
  obtain rfl := Option.some.inj hafter
  have hplain : Plain (.did t c (.store flag value) answer) := by simp [Plain]
  exact ⟨(HostChange.store hinv hvalue).keeps hinv hplain fun _ _ hid => hid,
    hJ.lasting (hIJ w _ hplain h)⟩

theorem safe_beginShutdown :
    (hostDiscipline config).SafeE t c (fun _ w => w.shared.flags .shuttingDown = true)
      (fun _ _ => False) NatsRuntime.beginShutdown w := by
  have hflag : Stable t fun w => w.shared.flags .shuttingDown = true :=
    fun _ _ hR h => hR.shuttingDown h
  refine Discipline.SafeE.seq (safe_store (.inr ⟨rfl, rfl⟩) Assertion.true.stable hflag trivial
    fun w e _ _ => by simp) fun _ w _ h => ?_
  exact safe_store (.inl ⟨rfl, rfl⟩) hflag hflag h fun w e _ h => by simpa using h

theorem safe_stopWorkers : (hostDiscipline config).SafeE t .stopWorkers
    (fun _ w => Late t w.history → Drained w.history)
    (fun _ w => Late t w.history → Drained w.history) NatsRuntime.stopWorkers w := by
  refine Discipline.SafeE.seq (Discipline.SafeE.never (safe_store (.inl ⟨rfl, rfl⟩)
    Assertion.true.stable Assertion.true.stable trivial fun _ _ _ _ => trivial)) fun _ w _ _ => ?_
  refine Discipline.SafeE.mono (safe_withWrite (E := fun _ _ => False)
    (fun w _ h => safe_stopInScope (m := false) h (by simp)) (fun _ w _ h => ?_) fun _ _ _ h => h.elim)
    (fun _ _ hI h => h.here hI rfl) fun _ _ hI h => h.here hI rfl
  exact h.scope.canRelease (by simp) fun _ id hid => absurd (h.2 id hid) List.not_mem_nil

theorem safe_startWorkers : (hostDiscipline config).SafeE t .startWorkers (fun _ _ => True)
    (fun _ _ => True) (NatsRuntime.startWorkers config) w := by
  refine Discipline.SafeE.mono (safe_withWrite (Q := fun _ => Opened t true)
    (E := fun _ => Scope t false false) (fun w _ h => ?_)
    (fun _ w _ h => h.canRelease (by simp) (by simp)) fun _ w _ h => h.canRelease (by simp) (by simp))
    (fun _ _ _ _ => trivial) fun _ _ _ _ => trivial
  refine Discipline.SafeE.seq (safe_ensureReset h) fun _ w _ h => ?_
  exact Discipline.SafeE.mono (safe_startInScope h) (fun _ _ hI h => h.here hI)
    fun _ _ hI h => (h.here hI).weaken

theorem safe_attachObserver (observer : String) :
    (hostDiscipline config).SafeE t (.attachObserver observer) (fun _ _ => True) (fun _ _ => True)
      (NatsRuntime.attachObserver config observer) w := by
  refine Discipline.SafeE.mono (safe_withWrite (Q := fun _ => Opened t true)
    (E := fun _ => Scope t false false) (fun w _ h => ?_)
    (fun _ w _ h => h.canRelease (by simp) (by simp)) fun _ w _ h => h.canRelease (by simp) (by simp))
    (fun _ _ _ _ => trivial) fun _ _ _ _ => trivial
  refine Discipline.SafeE.seq (safe_ensureReset h) fun _ w _ h => ?_
  refine Discipline.SafeE.seq (Discipline.SafeE.never (safe_stopInScope (m := false) h (by simp)))
    fun _ w _ h => ?_
  refine Discipline.SafeE.seq (Discipline.SafeE.never (safe_withObserver Stopping.assertion
    (fun _ => Stopping.assertion) (fun _ => ⟨fun _ _ _ h => h, fun _ _ _ _ _ h => h⟩)
    (fun w _ h => safe_neutral (o := .writeObserver observer) trivial Stopping.assertion h
      fun _ _ _ => trivial) h)) fun _ w _ h => ?_
  exact Discipline.SafeE.mono (safe_startInScope h.scope) (fun _ _ hI h => h.here hI)
    fun _ _ hI h => (h.here hI).weaken

theorem safe_applyFixture (fixture : String) :
    (hostDiscipline config).SafeE t (.applyFixture fixture) (fun _ _ => True) (fun _ _ => True)
      (NatsRuntime.applyFixture fixture) w :=
  Discipline.SafeE.mono (safe_withWrite (Q := fun _ => Scope t false false)
    (E := fun _ => Scope t false false)
    (fun w _ h => safe_applyFixtureInScope Scope.assertion h fixture)
    (fun _ w _ h => h.canRelease (by simp) (by simp)) fun _ w _ h => h.canRelease (by simp) (by simp))
    (fun _ _ _ _ => trivial) fun _ _ _ _ => trivial

theorem safe_resetScope (fixture : String) :
    (hostDiscipline config).SafeE t (.reset fixture) (fun _ _ => True) (fun _ _ => True)
      (resetScope config fixture) w := by
  unfold resetScope
  split
  · exact Discipline.SafeE.throw fun _ _ _ => trivial
  · exact Discipline.SafeE.mono (safe_withWrite (Q := fun _ => Opened t false)
      (E := fun _ => Scope t true false) (fun w _ h => safe_resetInScope h fixture)
      (fun _ w _ h => h.canRelease (fun _ => ⟨fixture, rfl⟩) (by simp))
      fun _ w _ h => h.canRelease (fun _ _ _ => rfl) (by simp))
      (fun _ _ _ _ => trivial) fun _ _ _ _ => trivial

/-- The worker that is taken out of the list has ended. -/
theorem safe_takeFinished :
    (hostDiscipline config).SafeE t c (fun _ _ => True) (fun _ _ => True) takeFinished w := by
  refine safe_withWorkers Assertion.true (fun _ => Assertion.true) (fun _ => Assertion.true)
    (fun w _ _ => ?_) trivial
  refine Discipline.SafeE.seq (safe_neutral (o := .readWorkers) trivial Assertion.true trivial
    fun _ _ _ => trivial) fun ids w _ _ => ?_
  have hended : ∀ found : Option Nat, Stable t fun w => ∀ id, found = some id → w.shared.Ended id :=
    fun found w w' hR h id hid => hR.ended id (h id hid)
  refine Discipline.SafeE.seq (M := fun found w => ∀ id, found = some id → w.shared.Ended id) ?_
    fun found w _ h => ?_
  · induction ids generalizing w with
    | nil => exact Discipline.SafeE.pure ((hended none).lasting (by simp))
    | cons id ids ih =>
      refine Discipline.SafeE.seq (M := fun finished w => finished = true → w.shared.Ended id)
        (safe_observe (o := .isFinished id) trivial Assertion.true trivial (fun _ _ _ => trivial)
          (fun finished w w' hR h hf => hR.ended id (h hf))
          fun w finished s e _ _ hafter hsame _ _ hf => ?_) fun finished w _ h => ?_
      · simp only [HostState.after, ite_eq_iff, reduceCtorEq, and_false, or_false] at hafter
        obtain ⟨task, hget, hsome⟩ := (Option.any_eq_true _ _).mp (hafter.1.trans hf)
        exact ⟨task, by rwa [Threads.World.shared_note, hsame.tasks],
          Option.isSome_iff_ne_none.mp hsome⟩
      · cases finished with
        | true =>
          refine Discipline.SafeE.pure ((hended (some id)).lasting fun other hother => ?_)
          exact Option.some.inj hother ▸ h rfl
        | false => exact ih w ‹_›
  · rcases found with _ | id
    · exact Discipline.SafeE.pure fun _ _ _ => trivial
    refine Discipline.SafeE.seq (M := fun _ _ => True) (safe_op (o := .removeWorker id)
      (hended (some id)) h (fun _ _ _ => trivial) fun w answer s hinv h hafter => ?_)
      fun _ w _ _ => Discipline.SafeE.pure fun _ _ _ => trivial
    obtain rfl := Option.some.inj hafter
    exact ⟨(HostChange.removeWorker hinv (h id rfl)).keeps hinv (by simp [Plain])
      fun _ _ hid => hid, fun _ _ _ => trivial⟩

theorem safe_waitForWorkerExit (rounds : Nat) :
    (hostDiscipline config).SafeE t c (fun _ _ => True) (fun _ _ => True)
      (NatsRuntime.waitForWorkerExit rounds) w := by
  induction rounds generalizing w with
  | zero => exact Discipline.SafeE.pure fun _ _ _ => trivial
  | succ rounds ih =>
    refine Discipline.SafeE.seq safe_takeFinished fun found w _ _ => ?_
    rcases found with _ | id
    · exact ih
    refine Discipline.SafeE.seq (Discipline.SafeE.never (safe_store (.inl ⟨rfl, rfl⟩)
      Assertion.true.stable Assertion.true.stable trivial fun _ _ _ _ => trivial)) fun _ w _ _ => ?_
    refine Discipline.SafeE.seq (safe_neutral (o := .join id) trivial Assertion.true trivial
      fun _ _ _ => trivial) fun how w _ _ => ?_
    cases how <;> exact Discipline.SafeE.pure fun _ _ _ => trivial

end Calls

end Rostfrei.Tracer
