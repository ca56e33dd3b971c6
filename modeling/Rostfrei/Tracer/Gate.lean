import Rostfrei.Tracer.Host

/-!
# What the gate keeps

What a call of `NatsRuntime` can count on depends on whether it holds the gate (`HostRely`). One that
holds it for itself is the only one that spawns tasks, replaces the backend, stores `resetRequired`
or makes the runtime available; the others can make it unavailable, and tasks may end.

The events of the history say when the runtime may be used: `ResetFailed`, `Late` and `Stopped`.
-/

namespace Rostfrei.Tracer

open Lib Lib.Program

abbrev HostEvent := Threads.Event Nat HostCall HostOp HostOp.Res (Except NatsHostError HostResult)

abbrev HostWorld :=
  Threads.World Nat HostCall HostOp HostOp.Res (Except NatsHostError HostResult) HostState

/-! ## History -/

/-- A call of `begin_shutdown` has returned. -/
def Shutdown (history : List HostEvent) : Prop :=
  ∃ t r, .returned t .beginShutdown r ∈ history

/-- The call began after one of `begin_shutdown` had returned. -/
def Late (t : Nat) (history : List HostEvent) : Prop :=
  ∃ before c after, history = before ++ .began t c :: after ∧ Shutdown before

/-- A late call of `stop_workers` has released the gate. -/
def Drained (history : List HostEvent) : Prop :=
  ∃ before t f after, history = before ++ .did t .stopWorkers (.releaseWrite f) () :: after ∧
    Late t before

/-- A late call of `stop_workers` has returned. -/
def Stopped (history : List HostEvent) : Prop :=
  ∃ before t r after, history = before ++ .returned t .stopWorkers r :: after ∧ Late t before

/-- A reset has released the gate after a failure, and none has since after a success. -/
def ResetFailed (history : List HostEvent) : Prop :=
  ∃ before t fixture after,
    history = before ++ .did t (.reset fixture) (.releaseWrite true) () :: after ∧
      ∀ u other, .did u (.reset other) (.releaseWrite false) () ∉ after

section History

variable {h : List HostEvent} {e : HostEvent} {t : Nat}

theorem shutdown_snoc :
    Shutdown (h ++ [e]) ↔ Shutdown h ∨ ∃ t r, e = .returned t .beginShutdown r := by
  simp only [Shutdown, List.mem_append, List.mem_singleton, exists_or, eq_comm]

/-- What comes last in a list, or before its last item. -/
theorem snoc_eq_append_cons {α : Type} {items before after : List α} {last a : α} :
    items ++ [last] = before ++ a :: after ↔
      (before = items ∧ a = last ∧ after = []) ∨
        ∃ init, after = init ++ [last] ∧ items = before ++ a :: init := by
  constructor
  · intro heq
    rcases List.eq_nil_or_concat after with rfl | ⟨init, b, rfl⟩
    · obtain ⟨rfl, hlast⟩ := List.append_inj' heq rfl
      exact .inl ⟨rfl, (List.cons.inj hlast).1.symm, rfl⟩
    · rw [List.concat_eq_append, ← List.cons_append, ← List.append_assoc] at heq
      obtain ⟨rfl, hlast⟩ := List.append_inj' heq rfl
      obtain rfl := (List.cons.inj hlast).1
      exact .inr ⟨init, List.concat_eq_append, rfl⟩
  · rintro (⟨rfl, rfl, rfl⟩ | ⟨init, rfl, rfl⟩)
    · rfl
    · rw [List.append_assoc, List.cons_append]

theorem late_snoc : Late t (h ++ [e]) ↔ Late t h ∨ (Shutdown h ∧ ∃ c, e = .began t c) := by
  simp only [Late, snoc_eq_append_cons]
  constructor
  · rintro ⟨before, c, after, ⟨rfl, rfl, rfl⟩ | ⟨init, rfl, rfl⟩, hshutdown⟩
    · exact .inr ⟨hshutdown, c, rfl⟩
    · exact .inl ⟨before, c, init, rfl, hshutdown⟩
  · rintro (⟨before, c, init, rfl, hshutdown⟩ | ⟨hshutdown, c, rfl⟩)
    · exact ⟨before, c, _, .inr ⟨init, rfl, rfl⟩, hshutdown⟩
    · exact ⟨h, c, [], .inl ⟨rfl, rfl, rfl⟩, hshutdown⟩

theorem drained_snoc : Drained (h ++ [e]) ↔
    Drained h ∨ ∃ t f, e = .did t .stopWorkers (.releaseWrite f) () ∧ Late t h := by
  simp only [Drained, snoc_eq_append_cons]
  constructor
  · rintro ⟨before, t, f, after, ⟨rfl, rfl, rfl⟩ | ⟨init, rfl, rfl⟩, hlate⟩
    · exact .inr ⟨t, f, rfl, hlate⟩
    · exact .inl ⟨before, t, f, init, rfl, hlate⟩
  · rintro (⟨before, t, f, init, rfl, hlate⟩ | ⟨t, f, rfl, hlate⟩)
    · exact ⟨before, t, f, _, .inr ⟨init, rfl, rfl⟩, hlate⟩
    · exact ⟨h, t, f, [], .inl ⟨rfl, rfl, rfl⟩, hlate⟩

theorem stopped_snoc : Stopped (h ++ [e]) ↔
    Stopped h ∨ ∃ t r, e = .returned t .stopWorkers r ∧ Late t h := by
  simp only [Stopped, snoc_eq_append_cons]
  constructor
  · rintro ⟨before, t, r, after, ⟨rfl, rfl, rfl⟩ | ⟨init, rfl, rfl⟩, hlate⟩
    · exact .inr ⟨t, r, rfl, hlate⟩
    · exact .inl ⟨before, t, r, init, rfl, hlate⟩
  · rintro (⟨before, t, r, init, rfl, hlate⟩ | ⟨t, r, rfl, hlate⟩)
    · exact ⟨before, t, r, _, .inr ⟨init, rfl, rfl⟩, hlate⟩
    · exact ⟨h, t, r, [], .inl ⟨rfl, rfl, rfl⟩, hlate⟩

theorem resetFailed_snoc : ResetFailed (h ++ [e]) ↔
    (∃ t fixture, e = .did t (.reset fixture) (.releaseWrite true) ()) ∨
      (ResetFailed h ∧ ∀ t fixture, e ≠ .did t (.reset fixture) (.releaseWrite false) ()) := by
  simp only [ResetFailed, snoc_eq_append_cons]
  constructor
  · rintro ⟨before, t, fixture, after, ⟨rfl, rfl, rfl⟩ | ⟨init, rfl, rfl⟩, hnone⟩
    · exact .inl ⟨t, fixture, rfl⟩
    · exact .inr ⟨⟨before, t, fixture, init, rfl, fun u other hmem =>
        hnone u other (List.mem_append_left _ hmem)⟩, fun u other heq => hnone u other (by simp [heq])⟩
  · rintro (⟨t, fixture, rfl⟩ | ⟨⟨before, t, fixture, init, rfl, hnone⟩, hlast⟩)
    · exact ⟨h, t, fixture, [], .inl ⟨rfl, rfl, rfl⟩, by simp⟩
    · refine ⟨before, t, fixture, _, .inr ⟨init, rfl, rfl⟩, fun u other hmem => ?_⟩
      rcases List.mem_append.mp hmem with hmem | hmem
      · exact hnone u other hmem
      · exact hlast u other (List.mem_singleton.mp hmem).symm

theorem Late.shutdown (hlate : Late t h) : Shutdown h := by
  obtain ⟨before, c, after, rfl, u, r, hmem⟩ := hlate
  exact ⟨u, r, List.mem_append_left _ hmem⟩

theorem Drained.shutdown (hdrained : Drained h) : Shutdown h := by
  obtain ⟨before, t, f, after, rfl, hlate⟩ := hdrained
  obtain ⟨u, r, hmem⟩ := hlate.shutdown
  exact ⟨u, r, List.mem_append_left _ hmem⟩

end History

/-! ## What is kept -/

namespace HostState

/-- Every task that runs is in the list of workers. -/
def Covered (s : HostState) : Prop := ∀ id, s.Running id → id ∈ s.workers

def Ended (s : HostState) (id : Nat) : Prop := ∃ task, s.tasks[id]? = some task ∧ task.ended ≠ none

/-- After a reset has failed, the runtime is not available and a reset is required. -/
def Closed (s : HostState) : Prop := s.flags .resetRequired = true ∧ s.flags .available = false

end HostState

structure HostInv (w : HostWorld) : Prop where
  exclusive : w.shared.writer ≠ none → w.shared.readers = ∅
  current : ∀ task ∈ w.shared.tasks, task.ended = none → task.backend = w.shared.backend
  covered : w.shared.writer = none → w.shared.Covered
  closed : w.shared.writer = none → ResetFailed w.history → w.shared.Closed
  shutdown : Shutdown w.history → w.shared.flags .shuttingDown = true
  drained : Drained w.history → ∀ id, ¬ w.shared.Running id
  stopped : Stopped w.history → Drained w.history

/-- How the world may change for a call while the others act. -/
structure HostRely (t : Nat) (w w' : HostWorld) : Prop where
  writes : w.shared.writer = some t ↔ w'.shared.writer = some t
  reads : t ∈ w.shared.readers ↔ t ∈ w'.shared.readers
  shuttingDown : w.shared.flags .shuttingDown = true → w'.shared.flags .shuttingDown = true
  ended : ∀ id, w.shared.Ended id → w'.shared.Ended id
  late : Late t w.history ↔ Late t w'.history
  drained : Drained w.history → Drained w'.history
  /-- With the gate, alone or with other readers, no reset comes to its end. -/
  failed : w.shared.writer = some t ∨ t ∈ w.shared.readers →
    (ResetFailed w.history ↔ ResetFailed w'.history)
  required : w.shared.writer = some t →
    w'.shared.flags .resetRequired = w.shared.flags .resetRequired
  available : w.shared.writer = some t → w'.shared.flags .available = true →
    w.shared.flags .available = true
  backend : w.shared.writer = some t → w'.shared.backend = w.shared.backend
  running : w.shared.writer = some t → ∀ id, w'.shared.Running id → w.shared.Running id
  workers : w.shared.writer = some t → ∀ id, w'.shared.Running id → id ∈ w.shared.workers →
    id ∈ w'.shared.workers
  undrained : w.shared.writer = some t → Drained w'.history → Drained w.history

theorem HostRely.refl (t : Nat) (w : HostWorld) : HostRely t w w := by
  constructor <;> simp

theorem HostRely.trans {t : Nat} {w₁ w₂ w₃ : HostWorld} (h : HostRely t w₁ w₂)
    (h' : HostRely t w₂ w₃) : HostRely t w₁ w₃ where
  writes := h.writes.trans h'.writes
  reads := h.reads.trans h'.reads
  shuttingDown := h'.shuttingDown ∘ h.shuttingDown
  ended id := h'.ended id ∘ h.ended id
  late := h.late.trans h'.late
  drained := h'.drained ∘ h.drained
  failed hgate := (h.failed hgate).trans (h'.failed (hgate.imp h.writes.mp h.reads.mp))
  required hw := (h'.required (h.writes.mp hw)).trans (h.required hw)
  available hw := h.available hw ∘ h'.available (h.writes.mp hw)
  backend hw := (h'.backend (h.writes.mp hw)).trans (h.backend hw)
  running hw id := h.running hw id ∘ h'.running (h.writes.mp hw) id
  workers hw id hrun hmem := h'.workers (h.writes.mp hw) id hrun
    (h.workers hw id (h'.running (h.writes.mp hw) id hrun) hmem)
  undrained hw := h.undrained hw ∘ h'.undrained (h.writes.mp hw)

/-- When an operation is allowed. -/
def HostPermits (w : HostWorld) (t : Nat) : HostOp → Prop
  | .transport _ _ => w.shared.writer = none ∧ ¬ ResetFailed w.history ∧ ¬ Late t w.history
  | .spawn _ _ => ¬ Drained w.history
  | _ => True

def hostDiscipline (config : NatsRuntimeConfig) : Discipline (natsRuntime config) where
  inv := HostInv
  permits w t _ op := HostPermits w t op
  rely := HostRely
  rely_refl := HostRely.refl
  rely_trans := HostRely.trans

/-! ## One operation -/

/-- The events that change nothing that is said of a history. -/
def Plain : HostEvent → Prop
  | .did _ _ op _ => ∀ failed, op ≠ .releaseWrite failed
  | _ => False

section Plain

variable {h : List HostEvent} {e : HostEvent} (he : Plain e) {t : Nat}
include he

theorem Plain.shutdown : Shutdown (h ++ [e]) ↔ Shutdown h := by
  rw [shutdown_snoc, or_iff_left]
  rintro ⟨t, r, rfl⟩
  exact he

theorem Plain.late : Late t (h ++ [e]) ↔ Late t h := by
  rw [late_snoc, or_iff_left]
  rintro ⟨-, c, rfl⟩
  exact he

theorem Plain.drained : Drained (h ++ [e]) ↔ Drained h := by
  rw [drained_snoc, or_iff_left]
  rintro ⟨t, f, rfl, -⟩
  exact he f rfl

theorem Plain.stopped : Stopped (h ++ [e]) ↔ Stopped h := by
  rw [stopped_snoc, or_iff_left]
  rintro ⟨t, r, rfl, -⟩
  exact he

theorem Plain.resetFailed : ResetFailed (h ++ [e]) ↔ ResetFailed h := by
  rw [resetFailed_snoc, or_iff_right, and_iff_left]
  · rintro t fixture rfl
    exact he false rfl
  · rintro ⟨t, fixture, rfl⟩
    exact he true rfl

end Plain

/-- What a plain step of a call has to respect, besides what the gate protects. -/
structure HostChange (t : Nat) (s s' : HostState) : Prop where
  exclusive : s'.writer ≠ none → s'.readers = ∅
  current : ∀ task ∈ s'.tasks, task.ended = none → task.backend = s'.backend
  covered : s'.writer = none → s'.Covered
  closed : s'.writer = none → s.writer = none ∧ (s.Closed → s'.Closed)
  shuttingDown : s.flags .shuttingDown = true → s'.flags .shuttingDown = true
  ended : ∀ id, s.Ended id → s'.Ended id
  writes : ∀ u, u ≠ t → (s.writer = some u ↔ s'.writer = some u)
  reads : ∀ u, u ≠ t → (u ∈ s.readers ↔ u ∈ s'.readers)
  /-- What is protected by the gate changes only for the one that holds it. -/
  guarded : ∀ u, u ≠ t → s.writer = some u →
    s'.flags .resetRequired = s.flags .resetRequired ∧
      (s'.flags .available = true → s.flags .available = true) ∧ s'.backend = s.backend ∧
      (∀ id, s'.Running id → s.Running id) ∧
      ∀ id, s'.Running id → id ∈ s.workers → id ∈ s'.workers

variable {config : NatsRuntimeConfig} {w : HostWorld} {s : HostState} {t : Nat} {c : HostCall}

/-- A plain step within these bounds keeps the discipline, unless it starts a task after the end. -/
theorem HostChange.keeps (hchange : HostChange t w.shared s) (hI : HostInv w) {e : HostEvent}
    (he : Plain e)
    (hrunning : Drained w.history → ∀ id, s.Running id → w.shared.Running id) :
    (hostDiscipline config).Keeps t w (w.note s e) := by
  constructor
  · refine ⟨hchange.exclusive, hchange.current, hchange.covered, fun hw hfailed => ?_, fun h => ?_,
      fun h id hid => ?_, fun h => ?_⟩
    · exact (hchange.closed hw).2 (hI.closed (hchange.closed hw).1 (he.resetFailed.mp hfailed))
    · exact hchange.shuttingDown (hI.shutdown (he.shutdown.mp h))
    · exact hI.drained (he.drained.mp h) id (hrunning (he.drained.mp h) id hid)
    · exact he.drained.mpr (hI.stopped (he.stopped.mp h))
  · intro u hu
    exact {
      writes := hchange.writes u hu
      reads := hchange.reads u hu
      shuttingDown := hchange.shuttingDown
      ended := hchange.ended
      late := he.late.symm
      drained := he.drained.mpr
      failed := fun _ => he.resetFailed.symm
      required := fun hw => (hchange.guarded u hu hw).1
      available := fun hw => (hchange.guarded u hu hw).2.1
      backend := fun hw => (hchange.guarded u hu hw).2.2.1
      running := fun hw => (hchange.guarded u hu hw).2.2.2.1
      workers := fun hw => (hchange.guarded u hu hw).2.2.2.2
      undrained := fun _ => he.drained.mp }

/-- What the discipline speaks of is the same. -/
structure SameCore (s s' : HostState) : Prop where
  writer : s'.writer = s.writer
  readers : s'.readers = s.readers
  flags : s'.flags = s.flags
  workers : s'.workers = s.workers
  tasks : s'.tasks = s.tasks
  backend : s'.backend = s.backend

theorem SameCore.running {s s' : HostState} (h : SameCore s s') (id : Nat) :
    s'.Running id ↔ s.Running id := by
  rw [HostState.Running, h.tasks, HostState.Running]

/-- Operations that change nothing that the discipline speaks of. -/
def HostOp.Neutral : HostOp → Prop
  | .acquireRead | .releaseRead | .acquireWrite | .releaseWrite _ | .store _ _ | .takeWorkers
  | .removeWorker _ | .abort _ | .spawn _ _ | .replaceBackend _ => False
  | _ => True

theorem HostOp.Neutral.same {op : HostOp} (h : op.Neutral) {answer : op.Res} {s s' : HostState}
    (hafter : s.after t op answer = some s') : SameCore s s' := by
  cases op
  case newBackend =>
    cases answer <;>
      simp only [HostState.after, Option.some.injEq, ite_eq_iff, reduceCtorEq, and_false, or_false]
        at hafter
    · subst hafter
      constructor <;> rfl
    · obtain ⟨-, rfl⟩ := hafter
      constructor <;> rfl
  all_goals first
    | exact h.elim
    | (simp only [HostState.after, Option.some.injEq, ite_eq_iff, reduceCtorEq, and_false, or_false]
        at hafter
       obtain ⟨-, rfl⟩ := hafter
       constructor <;> rfl)

section Changes

variable (hI : HostInv w)
include hI

/-- Only fields that are as they were, or that the step of `t` may change. -/
theorem HostChange.of_same (hsame : SameCore w.shared s) : HostChange t w.shared s where
  exclusive := by
    rw [hsame.writer, hsame.readers]
    exact hI.exclusive
  current := by
    rw [hsame.tasks, hsame.backend]
    exact hI.current
  covered hnone id hid := by
    rw [hsame.workers]
    exact hI.covered (hsame.writer ▸ hnone) id ((hsame.running id).mp hid)
  closed hnone := ⟨hsame.writer ▸ hnone, by
    rw [HostState.Closed, HostState.Closed, hsame.flags]
    exact id⟩
  shuttingDown := by rw [hsame.flags]; exact id
  ended id := by
    rw [HostState.Ended, HostState.Ended, hsame.tasks]
    exact fun h => h
  writes u _ := by rw [hsame.writer]
  reads u _ := by rw [hsame.readers]
  guarded u _ _ := by
    rw [hsame.flags, hsame.backend, hsame.workers]
    exact ⟨rfl, id, rfl, fun id => (hsame.running id).mp, fun _ _ h => h⟩

theorem HostChange.acquireRead (hnone : w.shared.writer = none) :
    HostChange t w.shared { w.shared with readers := insert t w.shared.readers } :=
  { of_same (t := t) hI (s := w.shared) (by constructor <;> rfl) with
    exclusive := fun h => absurd hnone h
    reads := fun u hu => by simp [hu] }

theorem HostChange.releaseRead :
    HostChange t w.shared { w.shared with readers := w.shared.readers.erase t } :=
  { of_same (t := t) hI (s := w.shared) (by constructor <;> rfl) with
    exclusive := fun h => by simp [hI.exclusive h]
    reads := fun u hu => by simp [hu] }

theorem HostChange.acquireWrite (hnone : w.shared.writer = none) (hreaders : w.shared.readers = ∅) :
    HostChange t w.shared { w.shared with writer := some t } :=
  { of_same (t := t) hI (s := w.shared) (by constructor <;> rfl) with
    exclusive := fun _ => hreaders
    covered := fun h => by cases h
    closed := fun h => by cases h
    writes := fun u hu => by simp [hnone, hu.symm] }

omit hI in
/-- The one that holds the gate is not another one. -/
theorem HostChange.alone (hw : w.shared.writer = some t) {u : Nat} (hu : u ≠ t) :
    w.shared.writer ≠ some u := by
  rw [hw]
  exact fun h => hu (Option.some.inj h).symm

/-- A change of the one that holds the gate. -/
theorem HostChange.of_writer (hw : w.shared.writer = some t) (hw' : s.writer = w.shared.writer)
    (hreaders : s.readers = w.shared.readers)
    (hcurrent : ∀ task ∈ s.tasks, task.ended = none → task.backend = s.backend)
    (hshutting : w.shared.flags .shuttingDown = true → s.flags .shuttingDown = true)
    (hended : ∀ id, w.shared.Ended id → s.Ended id) : HostChange t w.shared s where
  exclusive := by
    rw [hw', hreaders]
    exact hI.exclusive
  current := hcurrent
  covered := by simp [hw', hw]
  closed := by simp [hw', hw]
  shuttingDown := hshutting
  ended := hended
  writes u _ := by rw [hw']
  reads u _ := by rw [hreaders]
  guarded u hu h := absurd h (alone hw hu)

/-- Who does not hold the gate may make the runtime unavailable, or begin its shutdown. -/
theorem HostChange.store {flag : HostFlag} {value : Bool}
    (hvalue : (flag = .available ∧ value = false) ∨ (flag = .shuttingDown ∧ value = true)) :
    HostChange t w.shared { w.shared with flags := Function.update w.shared.flags flag value } := by
  obtain ⟨rfl, rfl⟩ | ⟨rfl, rfl⟩ := hvalue
  · exact { of_same (t := t) hI (s := w.shared) (by constructor <;> rfl) with
      closed := fun h => ⟨h, fun hclosed => by simpa [HostState.Closed] using hclosed.1⟩
      shuttingDown := fun h => by simpa using h
      guarded := fun u _ _ => by simp [HostState.Running] }
  · exact { of_same (t := t) hI (s := w.shared) (by constructor <;> rfl) with
      closed := fun h => ⟨h, fun hclosed => by simpa [HostState.Closed] using hclosed⟩
      shuttingDown := fun h => by simp
      guarded := fun u _ _ => by simp [HostState.Running] }

omit hI in
/-- Only the worker that is removed is gone. -/
theorem mem_swapRemove {workers : List Nat} {id other : Nat} (hmem : other ∈ workers)
    (hne : other ≠ id) : other ∈ swapRemove workers id := by
  unfold swapRemove
  split
  · next hin =>
    obtain ⟨init, last, rfl⟩ : ∃ init last, workers = init ++ [last] :=
      ⟨workers.dropLast, workers.getLast (List.ne_nil_of_mem hmem),
        (List.dropLast_append_getLast _).symm⟩
    rw [List.getLast?_concat, Option.getD_some]
    by_cases hinit : id ∈ init
    · have hlt : init.idxOf id < init.length := List.idxOf_lt_length_iff.mpr hinit
      rw [List.idxOf_append_of_mem hinit, List.set_append_left _ _ hlt, List.dropLast_concat]
      rcases List.mem_append.mp hmem with hother | hother
      · obtain ⟨k, hk⟩ := List.mem_iff_getElem?.mp hother
        refine List.mem_iff_getElem?.mpr ⟨k, ?_⟩
        rw [List.getElem?_set_ne, hk]
        rintro rfl
        rw [List.getElem?_idxOf hinit] at hk
        exact hne (Option.some.inj hk).symm
      · rw [List.mem_singleton.mp hother]
        exact List.mem_iff_getElem?.mpr ⟨_, by rw [List.getElem?_set_self hlt]⟩
    · -- the last one is removed
      obtain rfl : id = last := by simpa [hinit] using hin
      rw [List.idxOf_append_of_notMem hinit, List.idxOf_cons_self, Nat.add_zero,
        List.set_append_right _ _ le_rfl, Nat.sub_self, List.set_cons_zero, List.dropLast_concat]
      simpa [hne] using hmem
  · exact hmem

theorem HostChange.removeWorker {id : Nat} (hid : w.shared.Ended id) :
    HostChange t w.shared { w.shared with workers := swapRemove w.shared.workers id } := by
  have hother : ∀ other, w.shared.Running other → other ∈ w.shared.workers →
      other ∈ swapRemove w.shared.workers id := by
    rintro other ⟨task, hget, hnone⟩ hmem
    refine mem_swapRemove hmem ?_
    rintro rfl
    obtain ⟨task', hget', hended⟩ := hid
    obtain rfl := Option.some.inj (hget.symm.trans hget')
    exact hended hnone
  exact { of_same (t := t) hI (s := w.shared) (by constructor <;> rfl) with
    covered := fun h id hid => hother id hid (hI.covered h id hid)
    guarded := fun u _ _ => ⟨rfl, fun h => h, rfl, fun _ h => h, hother⟩ }

/-- A task that is aborted runs until it ends. -/
theorem HostChange.abort (hw : w.shared.writer = some t) (id : Nat) :
    let s := { w.shared with
      tasks := w.shared.tasks.modify id fun task => { task with aborted := true } }
    HostChange t w.shared s ∧ ∀ other, s.Running other → w.shared.Running other := by
  intro s
  have hget : ∀ (other : Nat) (task : WorkerTask), s.tasks[other]? = some task →
      ∃ before : WorkerTask, w.shared.tasks[other]? = some before ∧
        before.ended = task.ended ∧ before.backend = task.backend := by
    intro other task hother
    rw [List.getElem?_modify] at hother
    obtain ⟨before, hbefore, rfl⟩ := Option.map_eq_some_iff.mp hother
    exact ⟨before, hbefore, by split <;> rfl, by split <;> rfl⟩
  refine ⟨.of_writer hI hw rfl rfl (fun task hmem hnone => ?_) (fun h => h) ?_, ?_⟩
  · obtain ⟨other, hother⟩ := List.mem_iff_getElem?.mp hmem
    obtain ⟨before, hbefore, hended, hbackend⟩ := hget other task hother
    rw [← hbackend]
    exact hI.current before (List.mem_of_getElem? hbefore) (hended.trans hnone)
  · rintro other ⟨task, hother, hended⟩
    refine ⟨_, by rw [List.getElem?_modify, hother]; rfl, ?_⟩
    split <;> exact hended
  · rintro other ⟨task, hother, hnone⟩
    obtain ⟨before, hbefore, hended, -⟩ := hget other task hother
    exact ⟨before, hbefore, hended.trans hnone⟩

/-- A task that is spawned runs, and is in the list. -/
theorem HostChange.spawn (hw : w.shared.writer = some t) (kind : WorkerKind) :
    let s := { w.shared with
      tasks := w.shared.tasks ++ [⟨kind, w.shared.backend, false, none⟩]
      workers := w.shared.workers ++ [w.shared.tasks.length] }
    HostChange t w.shared s ∧ (w.shared.Covered → s.Covered) := by
  intro s
  refine ⟨.of_writer hI hw rfl rfl (fun task hmem hnone => ?_) (fun h => h) ?_, fun h id hid => ?_⟩
  · rcases List.mem_append.mp hmem with hmem | hmem
    · exact hI.current task hmem hnone
    · rw [List.mem_singleton.mp hmem]
  · rintro id ⟨task, hget, hended⟩
    have hlt := (List.getElem?_eq_some_iff.mp hget).1
    exact ⟨task, by rwa [List.getElem?_append_left hlt], hended⟩
  · obtain ⟨task, hget, hnone⟩ := hid
    rw [List.getElem?_append] at hget
    split at hget
    · exact List.mem_append_left _ (h id ⟨task, hget, hnone⟩)
    · obtain ⟨hlt, -⟩ := List.getElem?_eq_some_iff.mp hget
      rw [List.length_singleton] at hlt
      exact List.mem_append_right _ (List.mem_singleton.mpr (by omega))

end Changes

/-! ## The gate is released -/

/-- What has to hold when the gate is given back. -/
structure CanRelease (t : Nat) (c : HostCall) (failed : Bool) (w : HostWorld) : Prop where
  writer : w.shared.writer = some t
  covered : w.shared.Covered
  closed : ResetFailed (w.history ++ [.did t c (.releaseWrite failed) ()]) → w.shared.Closed
  drained : c = .stopWorkers → Late t w.history → ∀ id, ¬ w.shared.Running id

theorem CanRelease.keeps {failed : Bool} (h : CanRelease t c failed w) (hI : HostInv w) :
    (hostDiscipline config).Keeps t w
      (w.note { w.shared with writer := none } (.did t c (.releaseWrite failed) ())) := by
  have hlate : ∀ u, Late u (w.history ++ [.did t c (.releaseWrite failed) ()]) ↔ Late u w.history :=
    fun u => by simp [late_snoc]
  constructor
  · refine ⟨fun hw => absurd rfl hw, hI.current, fun _ => h.covered, fun _ => h.closed,
      fun hshutdown => ?_, fun hdrained id => ?_, fun hstopped => ?_⟩
    · exact hI.shutdown (by simpa [shutdown_snoc] using hshutdown)
    · rcases drained_snoc.mp hdrained with hdrained | ⟨u, f, heq, hlate⟩
      · exact hI.drained hdrained id
      · injection heq with htu hcall
        subst htu
        exact h.drained hcall hlate id
    · refine drained_snoc.mpr (.inl (hI.stopped ?_))
      simpa [stopped_snoc] using hstopped
  · intro u hu
    have hwriter : w.shared.writer ≠ some u := HostChange.alone h.writer hu
    have hreader : u ∉ w.shared.readers := by
      rw [hI.exclusive (by rw [h.writer]; exact Option.some_ne_none t)]
      exact Finset.notMem_empty u
    exact {
      writes := iff_of_false hwriter (by simp)
      reads := Iff.rfl
      shuttingDown := fun h => h
      ended := fun _ h => h
      late := (hlate u).symm
      drained := fun h => drained_snoc.mpr (.inl h)
      failed := fun hgate => absurd hgate (not_or.mpr ⟨hwriter, hreader⟩)
      required := fun hw => absurd hw hwriter
      available := fun hw => absurd hw hwriter
      backend := fun hw => absurd hw hwriter
      running := fun hw => absurd hw hwriter
      workers := fun hw => absurd hw hwriter
      undrained := fun hw => absurd hw hwriter }

/-! ## Beginning, returning, and tasks that end -/

theorem HostInv.connected : HostInv ⟨.connected, []⟩ := by
  constructor
  all_goals simp [HostState.connected, HostState.Covered, HostState.Running, Shutdown, Drained,
    Stopped, ResetFailed]

/-- An event without a change of the state. -/
theorem HostInv.note (hI : HostInv w) {e : HostEvent}
    (hplain : ∀ u call op answer, e ≠ .did u call op answer)
    (hbegan : ∀ u call, e = .began u call → u = t)
    (hshutdown : Shutdown (w.history ++ [e]) → w.shared.flags .shuttingDown = true)
    (hstopped : Stopped (w.history ++ [e]) → Drained w.history) :
    (hostDiscipline config).Keeps t w (w.note w.shared e) := by
  have hdrained : Drained (w.history ++ [e]) ↔ Drained w.history := by
    rw [drained_snoc, or_iff_left]
    rintro ⟨u, f, rfl, -⟩
    exact hplain _ _ _ _ rfl
  have hfailed : ResetFailed (w.history ++ [e]) ↔ ResetFailed w.history := by
    rw [resetFailed_snoc, or_iff_right, and_iff_left]
    · exact fun u fixture => hplain _ _ _ _
    · rintro ⟨u, fixture, rfl⟩
      exact hplain _ _ _ _ rfl
  constructor
  · exact ⟨hI.exclusive, hI.current, hI.covered, fun hw h => hI.closed hw (hfailed.mp h), hshutdown,
      fun h => hI.drained (hdrained.mp h), fun h => hdrained.mpr (hstopped h)⟩
  · intro u hu
    have hlate : Late u w.history ↔ Late u (w.history ++ [e]) := by
      rw [late_snoc, or_iff_left]
      rintro ⟨-, call, rfl⟩
      exact hu (hbegan u call rfl)
    exact {
      writes := Iff.rfl
      reads := Iff.rfl
      shuttingDown := fun h => h
      ended := fun _ h => h
      late := hlate
      drained := hdrained.mpr
      failed := fun _ => hfailed.symm
      required := fun _ => rfl
      available := fun _ h => h
      backend := fun _ => rfl
      running := fun _ _ h => h
      workers := fun _ _ _ h => h
      undrained := fun _ => hdrained.mp }

theorem HostInv.began (hI : HostInv w) :
    (hostDiscipline config).Keeps t w (w.note w.shared (.began t c)) := by
  refine hI.note (by simp) (fun u call h => ?_) (fun h => ?_) fun h => ?_
  · injection h with htu
    exact htu.symm
  · exact hI.shutdown (by simpa [shutdown_snoc] using h)
  · exact hI.stopped (by simpa [stopped_snoc] using h)

/-- What a call leaves: `begin_shutdown` its flag, and a late `stop_workers` no task. -/
structure HostPost (t : Nat) (c : HostCall) (w : HostWorld) : Prop where
  shutdown : c = .beginShutdown → w.shared.flags .shuttingDown = true
  drained : c = .stopWorkers → Late t w.history → Drained w.history

theorem HostPost.returned {r : Except NatsHostError HostResult} (hpost : HostPost t c w)
    (hI : HostInv w) :
    (hostDiscipline config).Keeps t w (w.note w.shared (.returned t c r)) := by
  refine hI.note (by simp) (by simp) (fun h => ?_) fun h => ?_
  · rcases shutdown_snoc.mp h with h | ⟨u, r', heq⟩
    · exact hI.shutdown h
    · injection heq with _ hcall
      exact hpost.shutdown hcall
  · rcases stopped_snoc.mp h with h | ⟨u, r', heq, hlate⟩
    · exact hI.stopped h
    · injection heq with htu hcall
      subst htu
      exact hpost.drained hcall hlate

/-- A task that has ended is not among those that run. -/
theorem HostInv.exit {s : HostState} (hI : HostInv w) (hexit : HostState.exit w.shared s) :
    HostInv ⟨s, w.history⟩ ∧ ∀ t, HostRely t w ⟨s, w.history⟩ := by
  obtain ⟨id, task, how, htask, hnone, -, rfl⟩ := hexit
  have hlt := (List.getElem?_eq_some_iff.mp htask).1
  have hrunning : ∀ other, HostState.Running
      { w.shared with tasks := w.shared.tasks.set id { task with ended := some how } } other →
      w.shared.Running other := by
    rintro other ⟨task', hget, hended⟩
    rw [List.getElem?_set] at hget
    split at hget
    · next heq =>
      subst heq
      exact ⟨task, htask, hnone⟩
    · exact ⟨task', hget, hended⟩
  have hended : ∀ other, w.shared.Ended other → HostState.Ended
      { w.shared with tasks := w.shared.tasks.set id { task with ended := some how } } other := by
    rintro other ⟨task', hget, hended⟩
    by_cases heq : id = other
    · subst heq
      exact ⟨_, by rw [List.getElem?_set_self hlt], by simp⟩
    · exact ⟨task', by rwa [List.getElem?_set_ne heq], hended⟩
  refine ⟨⟨hI.exclusive, fun task' hmem hrun => ?_, fun hw other hother => ?_, hI.closed, hI.shutdown,
    fun h other hother => hI.drained h other (hrunning other hother), hI.stopped⟩, fun t => ?_⟩
  · rcases List.mem_or_eq_of_mem_set hmem with hmem | rfl
    · exact hI.current task' hmem hrun
    · cases hrun
  · exact hI.covered hw other (hrunning other hother)
  · exact { HostRely.refl t w with
      ended := hended
      running := fun _ => hrunning
      workers := fun _ _ _ h => h }

end Rostfrei.Tracer
