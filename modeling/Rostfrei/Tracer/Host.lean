import Mathlib.Data.Finset.Basic
import Rostfrei.Lib.Threads
import Rostfrei.Messaging.Address

/-!
# The runtime of a host

`NatsRuntime` of `nats_host.rs`: workers of the current backend, a gate that resets and submissions
take, and three flags. Its calls are programs whose operations are the single steps of the locks, the
flags, the worker list and the tasks (`HostOp`); everything that is asked of the broker may fail
(`attempt`).

A lock is released when its guard is dropped, which is at the end of its block, with or without an
error (`withLock`). Observers, fixtures and invocations are known by a name: the runtime only hands
them on. A backend is a number; `connect` makes a new one.
-/

namespace Rostfrei.Tracer

open Lib Lib.Program Messaging

/-! ## State -/

inductive HostFlag where
  | available
  | shuttingDown
  | resetRequired
deriving DecidableEq, Repr

inductive WorkerKind where
  | command (consumer : String)
  | integration (address : String)
  | domainEvents
  | observation
deriving DecidableEq, Repr

/-- How a task has ended. -/
inductive TaskEnd where
  | returned
  | failed (error : String)
  | cancelled
deriving DecidableEq, Repr

structure WorkerTask where
  kind : WorkerKind
  backend : Nat
  aborted : Bool
  ended : Option TaskEnd
deriving DecidableEq, Repr

/-- The fields of `NatsRuntime` that change, the holders of its locks, and the tasks that were
spawned. -/
structure HostState where
  writer : Option Nat
  readers : Finset Nat
  flags : HostFlag → Bool
  workersLock : Option Nat
  workers : List Nat
  tasks : List WorkerTask
  observerLock : Option Nat
  observer : Option String
  fixturesLock : Option Nat
  fixtureEvents : List String
  backend : Nat
  /-- How many backends were made. -/
  backends : Nat

namespace HostState

/-- The fields after `connect`. -/
def connected : HostState where
  writer := none
  readers := ∅
  flags := fun _ => false
  workersLock := none
  workers := []
  tasks := []
  observerLock := none
  observer := none
  fixturesLock := none
  fixtureEvents := []
  backend := 0
  backends := 1

/-- The task was spawned and has not ended. -/
def Running (s : HostState) (id : Nat) : Prop := ∃ task, s.tasks[id]? = some task ∧ task.ended = none

end HostState

/-- `swap_remove`: the last worker takes the place of the one that is removed. -/
def swapRemove (workers : List Nat) (id : Nat) : List Nat :=
  if id ∈ workers then (workers.set (workers.idxOf id) (workers.getLast?.getD id)).dropLast else workers

/-! ## Operations -/

/-- What is asked of the broker, or of the application's bindings. -/
inductive HostRequest where
  | verifyConsumer (name : String)
  | createConsumer (name : String)
  | registerMappings
  | connectDomainConsumer
  | observationSource (observer : String)
  | subscribe
  | deleteStream (stream : String)
  | provision
  | connectStore
  | planFixture (fixture : String)
  | applyFixture (fixture : String) (store : Nat)
deriving DecidableEq, Repr

inductive HostOp where
  | acquireRead
  | releaseRead
  | acquireWrite
  /-- The guard is dropped at the end of its block. Whether the block has failed is only noted. -/
  | releaseWrite (failed : Bool)
  | load (flag : HostFlag)
  | store (flag : HostFlag) (value : Bool)
  | lockWorkers
  | unlockWorkers
  | readWorkers
  | takeWorkers
  | removeWorker (id : Nat)
  | isFinished (id : Nat)
  | abort (id : Nat)
  | join (id : Nat)
  | spawn (kind : WorkerKind) (backend : Nat)
  | lockObserver
  | unlockObserver
  | readObserver
  | writeObserver (observer : String)
  | lockFixtures
  | unlockFixtures
  | clearFixtures
  | extendFixtures (fixture : String)
  | snapshot
  | newBackend
  | replaceBackend (backend : Nat)
  | request (request : HostRequest)
  | transport (backend : Nat) (invocation : String)
deriving DecidableEq, Repr

/-- The answer to an operation. -/
@[reducible] def HostOp.Res : HostOp → Type
  | .load _ | .isFinished _ | .request _ => Bool
  | .readWorkers | .takeWorkers => List Nat
  | .join _ => TaskEnd
  | .spawn _ _ | .snapshot => Nat
  | .readObserver => Option String
  | .newBackend => Option Nat
  | .transport _ _ => Except String String
  | _ => Unit

/-- The state after an operation with its answer, if that is a possible answer now. -/
def HostState.after (t : Nat) (s : HostState) : (op : HostOp) → op.Res → Option HostState
  | .acquireRead, _ =>
    if s.writer = none then some { s with readers := insert t s.readers } else none
  | .releaseRead, _ => some { s with readers := s.readers.erase t }
  | .acquireWrite, _ =>
    if s.writer = none ∧ s.readers = ∅ then some { s with writer := some t } else none
  | .releaseWrite _, _ => some { s with writer := none }
  | .load flag, value => if s.flags flag = value then some s else none
  | .store flag value, _ => some { s with flags := Function.update s.flags flag value }
  | .lockWorkers, _ =>
    if s.workersLock = none then some { s with workersLock := some t } else none
  | .unlockWorkers, _ => some { s with workersLock := none }
  | .readWorkers, workers => if workers = s.workers then some s else none
  | .takeWorkers, workers => if workers = s.workers then some { s with workers := [] } else none
  | .removeWorker id, _ => some { s with workers := swapRemove s.workers id }
  | .isFinished id, answer =>
    if ((s.tasks[id]?).any fun task => task.ended.isSome) = answer then some s else none
  | .abort id, _ =>
    some { s with tasks := s.tasks.modify id fun task => { task with aborted := true } }
  | .join id, answer => if (s.tasks[id]?).bind (·.ended) = some answer then some s else none
  | .spawn kind backend, id =>
    if id = s.tasks.length then
      some { s with
        tasks := s.tasks ++ [⟨kind, backend, false, none⟩]
        workers := s.workers ++ [id] }
    else none
  | .lockObserver, _ =>
    if s.observerLock = none then some { s with observerLock := some t } else none
  | .unlockObserver, _ => some { s with observerLock := none }
  | .readObserver, observer => if observer = s.observer then some s else none
  | .writeObserver observer, _ => some { s with observer := some observer }
  | .lockFixtures, _ =>
    if s.fixturesLock = none then some { s with fixturesLock := some t } else none
  | .unlockFixtures, _ => some { s with fixturesLock := none }
  | .clearFixtures, _ => some { s with fixtureEvents := [] }
  | .extendFixtures fixture, _ => some { s with fixtureEvents := s.fixtureEvents ++ [fixture] }
  | .snapshot, backend => if backend = s.backend then some s else none
  | .newBackend, none => some s
  | .newBackend, some backend =>
    if backend = s.backends then some { s with backends := s.backends + 1 } else none
  | .replaceBackend backend, _ => some { s with backend := backend }
  | .request _, _ => some s
  | .transport _ _, _ => some s

/-- A task ends. Only one that was aborted is cancelled. -/
def HostState.exit (s s' : HostState) : Prop :=
  ∃ id task how, s.tasks[id]? = some task ∧ task.ended = none ∧
    (how = .cancelled → task.aborted = true) ∧
    s' = { s with tasks := s.tasks.set id { task with ended := some how } }

/-! ## Programs -/

inductive NatsHostError where
  | contract
  | configuration (message : String)
  | worker (message : String)
  | request (request : HostRequest)
  | newBackend
  | unavailable (message : String)
  | transport (error : String)
deriving DecidableEq, Repr

abbrev Host := ExceptT NatsHostError (Program HostOp HostOp.Res)

namespace Host

variable {α β : Type}

/-- One operation. -/
def op (o : HostOp) : Host o.Res := ExceptT.lift (perform o)

def load (flag : HostFlag) : Host Bool := op (.load flag)

def store (flag : HostFlag) (value : Bool) : Host Unit := op (.store flag value)

def request (r : HostRequest) : Host Unit := do
  if ← (op (.request r) : Host Bool) then pure () else throw (.request r)

/-- A block that holds a lock. -/
def withLock (lock unlock : HostOp) (block : Host α) : Host α :=
  ExceptT.mk do
    let _ ← perform lock
    let result ← block.run
    let _ ← perform unlock
    pure result

def withRead (block : Host α) : Host α :=
  withLock .acquireRead .releaseRead block

/-- A block that holds the gate for itself. -/
def withWrite (block : Host α) : Host α :=
  ExceptT.mk do
    let _ ← perform HostOp.acquireWrite
    let result ← block.run
    let _ ← perform (HostOp.releaseWrite (!result.isOk))
    pure result

def withWorkers (block : Host α) : Host α :=
  withLock .lockWorkers .unlockWorkers block

def withObserver (block : Host α) : Host α :=
  withLock .lockObserver .unlockObserver block

def withFixtures (block : Host α) : Host α :=
  withLock .lockFixtures .unlockFixtures block

def snapshot : Host Nat := op .snapshot

def spawn (backend : Nat) (kind : WorkerKind) : Host Unit := do
  let _ ← (op (.spawn kind backend) : Host Nat)
  pure ()

def abort (id : Nat) : Host Unit := op (.abort id)

/-- `worker.await`, when its result is not looked at. -/
def join (id : Nat) : Host Unit := do
  let _ ← (op (.join id) : Host TaskEnd)
  pure ()

end Host

open Host

/-- What the runtime reads of its configuration and bindings. -/
structure NatsRuntimeConfig where
  trafficScope : TrafficScope
  commands : List String
  /-- The addresses of the integration consumers. -/
  integrations : List String
  domainEventsRequired : Bool
  /-- The streams that a reset deletes. -/
  streams : List String
  /-- The addresses that the handlers' contracts give; one may be invalid. -/
  integrationHandlers : List (Option String)
deriving DecidableEq, Repr

namespace NatsRuntime

/-- `ScopedTransport::ensure_available`. -/
def ensureAvailable : Host Unit := do
  let unavailable : NatsHostError :=
    .unavailable "runtime unavailable during startup, stop, shutdown or failed Test reset"
  if ← load .available then
    if ← load .shuttingDown then throw unavailable else pure ()
  else throw unavailable

/-- `ScopedTransport::invoke`. -/
def invoke (invocation : String) : Host String := do
  ensureAvailable
  withRead do
    ensureAvailable
    let backend ← snapshot
    match ← (op (.transport backend invocation) : Host (Except String String)) with
    | .ok receipt => pure receipt
    | .error error => throw (.transport error)

/-- `apply_fixture_in_scope`. -/
def applyFixtureInScope (fixture : String) : Host Unit := do
  request (.planFixture fixture)
  withFixtures do
    op (.extendFixtures fixture)
    let store ← snapshot
    request (.applyFixture fixture store)

/-- `apply_fixture`. -/
def applyFixture (fixture : String) : Host Unit := withWrite (applyFixtureInScope fixture)

/-- `prepare_observation`: the backend of the store that the handler has. -/
def prepareObservation (observer : String) : Host Nat := do
  request (.observationSource observer)
  request .subscribe
  snapshot

/-- `workers.iter().all(|w| !w.is_finished())`. -/
def noneFinished : List Nat → Host Bool
  | [] => pure true
  | id :: workers => do
    if ← (op (.isFinished id) : Host Bool) then pure false else noneFinished workers

variable (config : NatsRuntimeConfig)

/-- The checks of an integration consumer and its handler. -/
def prepareIntegration (address : String) (binding : Option String) : Host Unit :=
  match binding with
  | none => throw .contract
  | some other =>
    if address ≠ other then
      throw (.configuration "integration subscription must match its typed producer contract")
    else do
      request (.verifyConsumer address)
      request (.createConsumer address)

/-- The observation that is prepared, if there is an observer: the backend of its store. -/
def prepareObserver : Host (Option Nat) := do
  let observer ← withObserver (op .readObserver)
  observer.elim (pure none) fun observer => do
    let store ← prepareObservation observer
    pure (some store)

def prepareIntegrations : Host Unit :=
  if config.integrations.length ≠ config.integrationHandlers.length then
    throw (.configuration "integration consumers and handlers differ.")
  else
    (config.integrations.zip config.integrationHandlers).forM fun (address, binding) =>
      prepareIntegration address binding

def prepareDomain : Host Unit :=
  if config.domainEventsRequired then do
    request .registerMappings
    request .connectDomainConsumer
  else pure ()

def spawnDomain (backend : Nat) : Host Unit :=
  if config.domainEventsRequired then spawn backend .domainEvents else pure ()

/-- The part of `start_in_scope` after the checks: everything is prepared, then all tasks are
spawned. -/
def startAll : Host Unit := do
  let backend ← snapshot
  config.commands.forM fun consumer => do
    request (.verifyConsumer consumer)
    request (.createConsumer consumer)
  prepareIntegrations config
  prepareDomain config
  let observation ← prepareObserver
  config.commands.forM fun consumer => spawn backend (.command consumer)
  config.integrations.forM fun address => spawn backend (.integration address)
  spawnDomain config backend
  observation.elim (pure ()) fun store => spawn store .observation
  store .available true

/-- `start_in_scope`. -/
def startInScope : Host Unit := do
  if ← load .shuttingDown then throw (.configuration "runtime is shutting down")
  else
    withWorkers do
      let workers ← (op .readWorkers : Host (List Nat))
      if workers = [] then startAll config
      else if ← noneFinished workers then pure ()
      else throw (.worker "a worker has exited; stop the runtime before restarting")

/-- `stop_in_scope`. -/
def stopInScope : Host Unit := do
  store .available false
  let workers ← withWorkers (op .takeWorkers)
  workers.forM abort
  workers.forM join

/-- The guard of `start_workers` and `attach_observer`. -/
def ensureReset : Host Unit := do
  if ← load .resetRequired then
    throw (.configuration "Test remains unavailable until a successful reset")
  else pure ()

/-- `start_workers`. -/
def startWorkers : Host Unit := withWrite do
  ensureReset
  startInScope config

/-- `attach_observer`. -/
def attachObserver (observer : String) : Host Unit := withWrite do
  ensureReset
  stopInScope
  withObserver (op (.writeObserver observer))
  startInScope config

/-- The first worker that is finished, if there is one. -/
def findFinished : List Nat → Host (Option Nat)
  | [] => pure none
  | id :: workers => do
    if ← (op (.isFinished id) : Host Bool) then pure (some id) else findFinished workers

/-- The block of `wait_for_worker_exit` that holds the worker list. -/
def takeFinished : Host (Option Nat) := withWorkers do
  let workers ← (op .readWorkers : Host (List Nat))
  let finished ← findFinished workers
  match finished with
  | none => pure none
  | some id => do
    op (.removeWorker id)
    pure (some id)

/-- `wait_for_worker_exit`, which is dropped after a number of rounds: the error of the worker. -/
def waitForWorkerExit : Nat → Host (Option NatsHostError)
  | 0 => pure none
  | rounds + 1 => do
    match ← takeFinished with
    | none => waitForWorkerExit rounds
    | some id => do
      store .available false
      match ← (op (.join id) : Host TaskEnd) with
      | .failed error => pure (some (.worker error))
      | .returned => pure (some (.worker "Ok(Ok(()))"))
      | .cancelled => pure (some (.worker "Err(JoinError::Cancelled)"))

/-- `stop_workers`. -/
def stopWorkers : Host Unit := do
  store .available false
  withWrite stopInScope

/-- `begin_shutdown`. -/
def beginShutdown : Host Unit := do
  store .shuttingDown true
  store .available false

/-- The block of `reset_scope` that holds the gate. -/
def resetInScope (fixture : String) : Host Unit := do
  store .resetRequired true
  stopInScope
  withFixtures (op .clearFixtures)
  config.streams.forM fun stream => request (.deleteStream stream)
  request .provision
  request .connectStore
  match ← (op .newBackend : Host (Option Nat)) with
  | none => throw .newBackend
  | some backend => do
    op (.replaceBackend backend)
    applyFixtureInScope fixture
    startInScope config
    store .resetRequired false

/-- `reset_scope`. -/
def resetScope (fixture : String) : Host Unit :=
  if config.trafficScope ≠ .test then throw (.configuration "reset requires Test scope")
  else withWrite (resetInScope config fixture)

end NatsRuntime

/-! ## Calls -/

inductive HostCall where
  | invoke (invocation : String)
  | startWorkers
  | attachObserver (observer : String)
  | reset (fixture : String)
  | applyFixture (fixture : String)
  | stopWorkers
  | beginShutdown
  /-- With the number of rounds after which the call is dropped. -/
  | waitForWorkerExit (rounds : Nat)
deriving DecidableEq, Repr

inductive HostResult where
  | done
  | receipt (receipt : String)
  | exited (error : Option NatsHostError)
deriving DecidableEq, Repr

open NatsRuntime in
/-- The program of a call. -/
def HostCall.code (config : NatsRuntimeConfig) :
    HostCall → Program HostOp HostOp.Res (Except NatsHostError HostResult)
  | .invoke invocation => (HostResult.receipt <$> NatsRuntime.invoke invocation).run
  | .startWorkers => ((fun _ => .done) <$> NatsRuntime.startWorkers config).run
  | .attachObserver observer => ((fun _ => .done) <$> NatsRuntime.attachObserver config observer).run
  | .reset fixture => ((fun _ => .done) <$> resetScope config fixture).run
  | .applyFixture fixture => ((fun _ => .done) <$> NatsRuntime.applyFixture fixture).run
  | .stopWorkers => ((fun _ => .done) <$> NatsRuntime.stopWorkers).run
  | .beginShutdown => ((fun _ => .done) <$> NatsRuntime.beginShutdown).run
  | .waitForWorkerExit rounds => (HostResult.exited <$> NatsRuntime.waitForWorkerExit rounds).run

/-- One runtime and any number of calls on it. -/
def natsRuntime (config : NatsRuntimeConfig) :
    Threads Nat HostCall HostOp HostOp.Res (Except NatsHostError HostResult) HostState where
  code := HostCall.code config
  exec t s op answer s' := s.after t op answer = some s'
  env := HostState.exit
  start s := s = .connected

end Rostfrei.Tracer
