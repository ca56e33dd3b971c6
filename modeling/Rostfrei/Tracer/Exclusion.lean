import Rostfrei.Tracer.Admission

/-!
# Resets, shutdowns and invocations exclude each other

`gate_excludes`: what holds of one `NatsRuntime` at every moment of any interleaving of its calls.

A reset of a runtime that does not have Test scope fails before it takes the gate, and the runtime
goes on as before (`normal_runtime_goes_on`).
-/

namespace Rostfrei.Tracer

open Lib

/-- All calls are safe. -/
theorem host_sound (config : NatsRuntimeConfig) :
    (hostDiscipline config).Sound fun t c _ w => HostPost t c w where
  start s hs := by
    obtain rfl : s = .connected := hs
    exact HostInv.connected
  env w s hI hexit := hI.exit hexit
  begin w t c hI _ := by
    refine ⟨hI.began, ?_⟩
    have hmap : ∀ {α : Type} {p : Host α} (f : α → HostResult),
        (hostDiscipline config).SafeE t c (fun _ => HostPost t c) (fun _ => HostPost t c) p
          (w.note w.shared (.began t c)) →
        (hostDiscipline config).Safe t c (fun _ => HostPost t c) (f <$> p).run
          (w.note w.shared (.began t c)) := by
      intro α p f h
      refine Discipline.Safe.bind (Discipline.Safe.mono h fun r w' hI' hr => ?_)
      cases r <;> exact Discipline.Safe.pure hr
    have hpost : ∀ {α : Type} {p : Host α}, c ≠ .beginShutdown → c ≠ .stopWorkers →
        (hostDiscipline config).SafeE t c (fun _ _ => True) (fun _ _ => True) p
          (w.note w.shared (.began t c)) →
        (hostDiscipline config).SafeE t c (fun _ => HostPost t c) (fun _ => HostPost t c) p
          (w.note w.shared (.began t c)) := fun hb hs h =>
      Discipline.SafeE.mono h (fun _ _ _ _ => ⟨fun h => absurd h hb, fun h => absurd h hs⟩)
        fun _ _ _ _ => ⟨fun h => absurd h hb, fun h => absurd h hs⟩
    cases c with
    | invoke invocation => exact hmap _ (hpost (by simp) (by simp) (safe_invoke invocation))
    | startWorkers => exact hmap _ (hpost (by simp) (by simp) safe_startWorkers)
    | attachObserver observer =>
      exact hmap _ (hpost (by simp) (by simp) (safe_attachObserver observer))
    | reset fixture => exact hmap _ (hpost (by simp) (by simp) (safe_resetScope fixture))
    | applyFixture fixture => exact hmap _ (hpost (by simp) (by simp) (safe_applyFixture fixture))
    | stopWorkers =>
      exact hmap _ (Discipline.SafeE.mono safe_stopWorkers
        (fun _ _ hI h => ⟨by simp, fun _ => h.here hI⟩) fun _ _ hI h => ⟨by simp, fun _ => h.here hI⟩)
    | beginShutdown =>
      exact hmap _ (Discipline.SafeE.mono (E := fun _ _ => False) safe_beginShutdown
        (fun _ _ hI h => ⟨fun _ => h.here hI, by simp⟩) fun _ _ hI h => (h.here hI).elim)
    | waitForWorkerExit rounds =>
      exact hmap _ (hpost (by simp) (by simp) (safe_waitForWorkerExit rounds))
  finish w t c r hI hpost := hpost.returned hI

/-- What was recorded stays recorded. -/
theorem stopped_of_run {config : NatsRuntimeConfig}
    {s s' : Threads.State Nat HostCall HostOp HostOp.Res (Except NatsHostError HostResult) HostState}
    {labels : List (Option HostEvent)} (hrun : (natsRuntime config).machine.Run s labels s')
    (h : Stopped s.world.history) : Stopped s'.world.history := by
  refine hrun.keeps (I := fun s => Stopped s.world.history) (fun s l s' h hstep => ?_) h
  rw [Threads.Step.history hstep]
  obtain ⟨before, t, r, after, heq, hlate⟩ := h
  exact ⟨before, t, r, after ++ l.toList, by rw [heq, List.append_assoc, List.cons_append], hlate⟩

/-- In every reachable state of a runtime:

- an invocation that reaches the transport of a backend does so while nobody has the gate for
  itself, not after a reset that had the gate has failed until one has succeeded, and not if it began
  after a shutdown had begun;
- every task that runs was started for the current backend;
- once a call of `stop_workers` that began after `begin_shutdown` has returned, no task runs, and none
  is spawned, now or later. -/
theorem gate_excludes (config : NatsRuntimeConfig)
    {s : Threads.State Nat HostCall HostOp HostOp.Res (Except NatsHostError HostResult) HostState}
    (hs : (natsRuntime config).machine.Reachable s) :
    (∀ t c backend invocation answer s',
        Threads.Step (natsRuntime config) s
          (some (.did t c (.transport backend invocation) answer)) s' →
        s.world.shared.writer = none ∧ ¬ ResetFailed s.world.history ∧ ¬ Late t s.world.history) ∧
      (∀ task ∈ s.world.shared.tasks, task.ended = none →
        task.backend = s.world.shared.backend) ∧
      (Stopped s.world.history → ∀ labels s', (natsRuntime config).machine.Run s labels s' →
        (∀ task ∈ s'.world.shared.tasks, task.ended ≠ none) ∧
          ∀ t c kind backend answer s'', ¬ Threads.Step (natsRuntime config) s'
            (some (.did t c (.spawn kind backend) answer)) s'') := by
  have hinv : HostInv s.world := (host_sound config).inv hs
  refine ⟨fun t c backend invocation answer s' hstep => (host_sound config).permits hs hstep,
    hinv.current, fun hstopped labels s' hrun => ?_⟩
  have hs' := hrun.reachable hs
  have hinv' : HostInv s'.world := (host_sound config).inv hs'
  have hdrained := hinv'.stopped (stopped_of_run hrun hstopped)
  refine ⟨fun task hmem hnone => ?_, fun t c kind backend answer s'' hstep =>
    (host_sound config).permits hs' hstep hdrained⟩
  obtain ⟨id, hid⟩ := List.mem_iff_getElem?.mp hmem
  exact hinv'.drained hdrained id ⟨task, hid, hnone⟩

/-! ## Runs of one call after the other -/

abbrev HostRun :=
  Threads.State Nat HostCall HostOp HostOp.Res (Except NatsHostError HostResult) HostState

/-- The answer of an operation to which the broker does not object. -/
def HostState.answer (s : HostState) : (op : HostOp) → op.Res
  | .load flag => s.flags flag
  | .isFinished id => (s.tasks[id]?).any fun task => task.ended.isSome
  | .request _ => true
  | .readWorkers | .takeWorkers => s.workers
  | .join id => ((s.tasks[id]?).bind (·.ended)).getD .returned
  | .spawn _ _ => s.tasks.length
  | .snapshot => s.backend
  | .readObserver => s.observer
  | .newBackend => some s.backends
  | .transport _ _ => .ok "receipt"
  | .acquireRead | .releaseRead | .acquireWrite | .releaseWrite _ | .store _ _ | .lockWorkers
  | .unlockWorkers | .removeWorker _ | .abort _ | .lockObserver | .unlockObserver | .writeObserver _
  | .lockFixtures | .unlockFixtures | .clearFixtures | .extendFixtures _ | .replaceBackend _ => ()

def HostState.serve (t : Nat) (s : HostState) (op : HostOp) : Option (op.Res × HostState) :=
  (s.after t op (s.answer op)).map (s.answer op, ·)

theorem serve_exec {config : NatsRuntimeConfig} (t : Nat) (s : HostState) (op : HostOp)
    (answer : op.Res) (s' : HostState) (h : s.serve t op = some (answer, s')) :
    (natsRuntime config).exec t s op answer s' := by
  obtain ⟨s'', hafter, heq⟩ := Option.map_eq_some_iff.mp h
  obtain ⟨rfl, rfl⟩ := Prod.ext_iff.mp heq
  exact hafter

/-- Some calls with the number of their operations, one after the other. -/
def hostCalls (config : NatsRuntimeConfig) (calls : List (HostCall × Nat)) : Option HostRun :=
  calls.zipIdx.foldlM
    (fun s call => Threads.callAlone (natsRuntime config) HostState.serve call.2 call.1.1 call.1.2 s)
    ⟨⟨.connected, []⟩, fun _ => none⟩

theorem reachable_hostCalls {config : NatsRuntimeConfig} {calls : List (HostCall × Nat)} {s : HostRun}
    (h : hostCalls config calls = some s) : (natsRuntime config).machine.Reachable s := by
  obtain ⟨labels, hrun⟩ := Threads.run_calls serve_exec h
  exact ⟨⟨⟨.connected, []⟩, fun _ => none⟩, labels, ⟨rfl, rfl, rfl⟩, hrun⟩

/-- The operation that a thread performs next. -/
def HostRun.next (s : HostRun) (t : Nat) : Option (HostCall × HostOp) :=
  match s.threads t with
  | some (c, .call op _) => some (c, op)
  | _ => none

/-- Where an invocation is about to call its transport, it can. -/
theorem step_transport {config : NatsRuntimeConfig} {s : HostRun} {t : Nat} {c : HostCall}
    {backend : Nat} {invocation : String} (h : s.next t = some (c, .transport backend invocation)) :
    ∃ s', Threads.Step (natsRuntime config) s
      (some (.did t c (.transport backend invocation) (.ok "receipt"))) s' := by
  unfold HostRun.next at h
  split at h
  · next c' op next hthread =>
    obtain ⟨hc, hop⟩ := Prod.ext_iff.mp (Option.some.inj h)
    obtain rfl : c' = c := hc
    obtain rfl : op = .transport backend invocation := hop
    exact ⟨_, .act hthread rfl⟩
  · cases h

/-- One command consumer. -/
def ordersRuntime (scope : Messaging.TrafficScope) : NatsRuntimeConfig where
  trafficScope := scope
  commands := ["orders-place"]
  integrations := []
  domainEventsRequired := false
  streams := ["commands", "events"]
  integrationHandlers := []

/-- A worker runs, and an invocation is about to call its transport. -/
theorem gate_excludes_orders : ∃ s : HostRun,
    (natsRuntime (ordersRuntime .test)).machine.Reachable s ∧
    s.world.shared.tasks = [⟨.command "orders-place", 0, false, none⟩] ∧
    (∃ s', Threads.Step (natsRuntime (ordersRuntime .test)) s
      (some (.did 1 (.invoke "place") (.transport 0 "place") (.ok "receipt"))) s') ∧
    s.world.shared.writer = none ∧ ¬ ResetFailed s.world.history ∧ ¬ Late 1 s.world.history := by
  have hrun : (hostCalls (ordersRuntime .test) [(.startWorkers, 30), (.invoke "place", 6)]).any
      (fun s => s.world.shared.tasks = [⟨.command "orders-place", 0, false, none⟩] ∧
        s.next 1 = some (.invoke "place", .transport 0 "place")) = true := by decide +kernel
  obtain ⟨s, hs, hfacts⟩ := (Option.any_eq_true _ _).mp hrun
  obtain ⟨htasks, hnext⟩ := of_decide_eq_true hfacts
  obtain ⟨s', hstep⟩ := @step_transport (ordersRuntime .test) _ _ _ _ _ hnext
  have hreach := reachable_hostCalls hs
  exact ⟨s, hreach, htasks, ⟨s', hstep⟩,
    (gate_excludes (ordersRuntime .test) hreach).1 1 _ 0 "place" _ s' hstep⟩

/-- What a call of `reset` returned. -/
def resetResult : HostEvent → Option (Nat × String × Except NatsHostError HostResult)
  | .returned t (.reset fixture) r => some (t, fixture, r)
  | _ => none

theorem mem_resetResult {history : List HostEvent} {t : Nat} {fixture : String}
    {r : Except NatsHostError HostResult} :
    (t, fixture, r) ∈ history.filterMap resetResult ↔ .returned t (.reset fixture) r ∈ history := by
  rw [List.mem_filterMap]
  constructor
  · rintro ⟨event, hmem, hevent⟩
    unfold resetResult at hevent
    split at hevent
    · cases hevent
      exact hmem
    · cases hevent
  · exact fun hmem => ⟨_, hmem, rfl⟩

/-- A reset of a runtime with Normal scope has failed and none has succeeded, and an invocation
reaches the transport. -/
theorem normal_runtime_goes_on : ∃ s : HostRun,
    (natsRuntime (ordersRuntime .normal)).machine.Reachable s ∧
    .returned 1 (.reset "orders") (.error (.configuration "reset requires Test scope")) ∈
      s.world.history ∧
    (∀ t fixture r, .returned t (.reset fixture) (.ok r) ∉ s.world.history) ∧
    ∃ s', Threads.Step (natsRuntime (ordersRuntime .normal)) s
      (some (.did 2 (.invoke "place") (.transport 0 "place") (.ok "receipt"))) s' := by
  have hrun : (hostCalls (ordersRuntime .normal)
      [(.startWorkers, 30), (.reset "orders", 30), (.invoke "place", 6)]).any (fun s =>
        s.world.history.filterMap resetResult =
            [(1, "orders", .error (.configuration "reset requires Test scope"))] ∧
          s.next 2 = some (.invoke "place", .transport 0 "place")) = true := by decide +kernel
  obtain ⟨s, hs, hfacts⟩ := (Option.any_eq_true _ _).mp hrun
  obtain ⟨hresets, hnext⟩ := of_decide_eq_true hfacts
  have hreset : ∀ {t fixture r}, .returned t (.reset fixture) r ∈ s.world.history ↔
      (t, fixture, r) = (1, "orders", .error (.configuration "reset requires Test scope")) := by
    intro t fixture r
    rw [← mem_resetResult, hresets, List.mem_singleton]
  refine ⟨s, reachable_hostCalls hs, hreset.mpr rfl, fun t fixture r hok => ?_,
    @step_transport (ordersRuntime .normal) _ _ _ _ _ hnext⟩
  cases hreset.mp hok

end Rostfrei.Tracer
