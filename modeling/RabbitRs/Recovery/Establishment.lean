import Mathlib.Data.List.Sort
import RabbitRs.Recovery.Connection
import RabbitRs.Topology.Conflict
import RabbitRs.Lib.Keyed
import RabbitRs.Lib.Machine

/-!
Consumer sets on one coordinator (`pool/recovery_coordinator.rs`): the recovery of a generation and
`consumer` calls establish profiles concurrently, under the establish lock, the lock of the
reconciler and the map of sets. A step ends at the next await.
-/

namespace RabbitRs.Establishment

open StepMachine
open Recovery (Connection)

/-- A spawned set. Its handles share one closed flag, and dropping any of them sets it. -/
structure ConsumerSet where
  profile : String
  generation : Nat
  closed : Bool := false

/-- Consumer channels opened for a profile, with the connection each is on. -/
abbrev Channels := List (SubscriptionConfig × Nat)

/-- What waits for the topology: a recovery hands its channel to the publisher, an establishment
consumes on the channels it opened. -/
inductive Follow where
  | adopt (channel : Nat)
  | consume (channels : Channels)

inductive Stage where
  | requesting
  | adopting
  | checking
  | locking
  | opening (rest : List SubscriptionConfig) (channels : Channels)
  | reconciling (plan : TopologyPlan) (follow : Follow)
  | declaring (plan : TopologyPlan) (channels : Channels)
  | applying (plan : TopologyPlan) (channel : Nat) (follow : Follow)
  | consuming (rest : Channels)
  | inserting (index : Nat)
  | fetching
  | holding (index : Nat)
  | done

namespace Stage

def establishes : Stage → Bool
  | .opening _ _ | .reconciling _ (.consume _) | .declaring _ _ | .applying _ _ (.consume _)
  | .consuming _ | .inserting _ => true
  | _ => false

def reconciles : Stage → Bool
  | .declaring _ _ | .applying _ _ _ => true
  | _ => false

def inProgress : Stage → Bool
  | .holding _ | .done => false
  | _ => true

end Stage

def Follow.stage : Follow → Stage
  | .adopt _ => .adopting
  | .consume channels => .consuming channels

/-- A recovery has profiles left to establish, and `extras` is set until it has listed the requested
profiles that are not configured. -/
inductive Kind where
  | call
  | recovery (rest : List String) (extras : Bool)

structure Task where
  kind : Kind
  generation : Nat
  profile : String
  stage : Stage

def Task.isCall (task : Task) : Bool :=
  match task.kind with
  | .call => true
  | .recovery _ _ => false

def Task.recovers (task : Task) : Bool := !task.isCall && task.stage.inProgress

/-- A `basic.consume`: the profile and generation it is for, and the connection it went out on. -/
structure Consumption where
  profile : String
  queue : String
  generation : Nat
  connection : Nat

/-- `applied` records the plans applied on each connection, `consumed` every `basic.consume`, and
`closings` each set a call closed or replaced: the generation the call read and that of the set. -/
structure State where
  conn : Connection := {}
  requested : List WorkerProfile := []
  lastGeneration : Nat := 0
  stopped : Bool := false
  reconciler : Option (Nat × TopologyPlan) := none
  consumers : AList (fun _ : String => Nat) := ∅
  sets : List ConsumerSet := []
  tasks : List Task := []
  emptied : Bool := false
  leaving : List Nat := []
  applied : List (Nat × TopologyPlan) := []
  consumed : List Consumption := []
  closings : List (Nat × Nat) := []

inductive Event where
  | conn (event : Connection.Event)
  | request (worker : WorkerProfile)
  | call (profile : String)
  | recover
  | check (task : Nat)
  | lock (task : Nat)
  | opened (task : Nat) (ok : Bool)
  | proceed (task : Nat)
  | reconcile (task : Nat)
  | applied (task : Nat) (ok : Bool)
  | adopted (task : Nat) (ok : Bool)
  | consumed (task : Nat) (ok : Bool)
  | insert (task : Nat)
  | fetch (task : Nat)
  | drop (task : Nat)
  | cancel (task : Nat)
  | shutdown
  | closeNext

def configured (v : ValidatedConfig) (profile : String) : Option WorkerProfile :=
  v.config.workers.find? fun worker => worker.name = profile

/-- `entry().or_insert_with` on a `BTreeMap`: a configured profile is stored as configured. -/
def requestProfile (v : ValidatedConfig) (requested : List WorkerProfile) (worker : WorkerProfile) :
    List WorkerProfile :=
  if requested.any fun known => known.name = worker.name then requested
  else requested.orderedInsert (fun a b => a.name ≤ b.name) ((configured v worker.name).getD worker)

namespace State

def isRequested (s : State) (profile : String) : Bool := s.requested.any fun worker => worker.name = profile

def worker (v : ValidatedConfig) (s : State) (profile : String) : Option WorkerProfile :=
  (configured v profile).or (s.requested.find? fun worker => worker.name = profile)

def request (v : ValidatedConfig) (s : State) (worker : WorkerProfile) : State :=
  { s with requested := requestProfile v s.requested worker }

def isApplied (s : State) (generation : Nat) (plan : TopologyPlan) : Bool :=
  s.reconciler = some (generation, plan)

def current (s : State) (profile : String) (generation : Nat) : Option Nat :=
  (s.consumers.lookup profile).filter fun index =>
    s.sets[index]?.any fun set => set.generation = generation && !set.closed

def closeSet (s : State) (index : Nat) : State :=
  { s with sets := s.sets.modify index fun set => { set with closed := true } }

def record (s : State) (task : Task) (set : ConsumerSet) : State :=
  if task.isCall then { s with closings := (task.generation, set.generation) :: s.closings } else s

/-- `ConsumerSetHandle::drop`: nothing happens when the set is closed already. -/
def dropHandle (s : State) (task : Task) (index : Nat) : State :=
  match s.sets[index]? with
  | some set => if set.closed then s else (s.record task set).closeSet index
  | none => s

def register (s : State) (task : Task) (index : Nat) : State :=
  let s' := match s.consumers.lookup task.profile with
    | some old =>
      match s.sets[old]? with
      | some set => (s.record task set).closeSet old
      | none => s
    | none => s
  { s' with consumers := s.consumers.insert task.profile index }

/-- A failed recovery is rolled back, to run again on the next generation. -/
def rollBack (s : State) (task : Task) : State :=
  if task.isCall then s else { s with lastGeneration := task.generation - 1 }

/-- A recovery is only dropped when the coordinator closes. -/
def interrupt (s : State) (task : Task) : State := if task.isCall then s else { s with stopped := true }

def lockFree (s : State) : Bool := s.tasks.all fun task => !task.stage.establishes

def reconcilerFree (s : State) : Bool := s.tasks.all fun task => !task.stage.reconciles

end State

namespace Task

def nextProfile (task : Task) (s : State) (v : ValidatedConfig) : List String → Bool → Task
  | profile :: rest, extras => { task with kind := .recovery rest extras, profile, stage := .locking }
  | [], true =>
    match (s.requested.filter fun worker => (configured v worker.name).isNone).map (·.name) with
    | profile :: rest => { task with kind := .recovery rest false, profile, stage := .locking }
    | [] => { task with stage := .done }
  | [], false => { task with stage := .done }

def established (task : Task) (s : State) (v : ValidatedConfig) : Task :=
  match task.kind with
  | .call => { task with stage := .fetching }
  | .recovery rest extras => task.nextProfile s v rest extras

end Task

section

variable (v : ValidatedConfig) (broker : String)

def advance (s : State) (task : Task) : Event → Option (State × Task)
  -- `consumer`: the handle cloned from the map is dropped unless it is returned
  | .check _ =>
    match task.stage with
    | .checking =>
      match s.current task.profile task.generation with
      | some index => some (s, { task with stage := .holding index })
      | none =>
        let stage : Stage := if s.isRequested task.profile then .locking else .done
        match s.consumers.lookup task.profile with
        | some index => some (s.dropHandle task index, { task with stage })
        | none => some (s, { task with stage })
    | _ => none
  | .lock _ =>
    match task.stage with
    | .locking =>
      if s.lockFree then
        match s.current task.profile task.generation, s.worker v task.profile with
        | none, some worker =>
          some (s, { task with stage := .opening (worker.subscriptions.filter fun sub => sub.broker = broker) [] })
        | _, _ => some (s, task.established s v)
      else none
    | _ => none
  -- the actor answers with a channel on the connection it holds
  | .opened _ true =>
    match task.stage, s.conn.connection with
    | .requesting, some connection =>
      some (s, { task with stage := .reconciling (generationPlan v s.requested) (.adopt connection) })
    | .opening (sub :: rest) channels, some connection =>
      some (s, { task with stage := .opening rest (channels ++ [(sub, connection)]) })
    | .declaring plan channels, some connection =>
      some (s, { task with stage := .applying plan connection (.consume channels) })
    | _, _ => none
  | .opened _ false =>
    match task.stage with
    | .requesting | .opening (_ :: _) _ | .declaring _ _ =>
      some (s.rollBack task, { task with stage := .done })
    | _ => none
  | .proceed _ =>
    match task.stage with
    | .opening [] [] => some (s, task.established s v)
    | .opening [] (channel :: channels) =>
      some (s, { task with stage := .reconciling (generationPlan v s.requested) (.consume (channel :: channels)) })
    | _ => none
  | .reconcile _ =>
    match task.stage with
    | .reconciling plan follow =>
      if s.reconcilerFree then
        if s.isApplied task.generation plan then some (s, { task with stage := follow.stage })
        else match follow with
          | .adopt channel => some (s, { task with stage := .applying plan channel (.adopt channel) })
          | .consume channels => some (s, { task with stage := .declaring plan channels })
      else none
    | _ => none
  | .applied _ ok =>
    match task.stage, ok with
    | .applying plan channel follow, true =>
      some ({ s with
        reconciler := some (task.generation, plan)
        applied := (channel, plan) :: s.applied }, { task with stage := follow.stage })
    | .applying _ _ _, false => some (s.rollBack task, { task with stage := .done })
    | _, _ => none
  | .adopted _ ok =>
    match task.stage, ok with
    | .adopting, true =>
      let requested := (v.config.workers.map (·.name)).filter s.isRequested
      some (s, task.nextProfile s v requested true)
    | .adopting, false => some (s.rollBack task, { task with stage := .done })
    | _, _ => none
  | .consumed _ ok =>
    match task.stage with
    | .consuming ((sub, connection) :: rest) =>
      let s := { s with
        consumed := ⟨task.profile, sub.queue, task.generation, connection⟩ :: s.consumed }
      if ok then some (s, { task with stage := .consuming rest })
      else some (s.rollBack task, { task with stage := .done })
    | _ => none
  -- the set is spawned, and then waits for the map
  | .insert _ =>
    match task.stage with
    | .consuming [] =>
      some ({ s with sets := s.sets ++ [{ profile := task.profile, generation := task.generation }] },
        { task with stage := .inserting s.sets.length })
    | .inserting index => some (s.register task index, task.established s v)
    | _ => none
  | .fetch _ =>
    match task.stage with
    | .fetching =>
      match s.consumers.lookup task.profile with
      | some index => some (s, { task with stage := .holding index })
      | none => some (s, { task with stage := .done })
    | _ => none
  | .drop _ =>
    match task.stage with
    | .holding index => some (s.dropHandle task index, { task with stage := .done })
    | _ => none
  -- a dropped future drops the handle it has not registered yet
  | .cancel _ =>
    match task.stage with
    | .inserting index => some ((s.dropHandle task index).interrupt task, { task with stage := .done })
    | .holding _ | .done => none
    | _ => some (s.interrupt task, { task with stage := .done })
  | _ => none

def Event.task : Event → Option Nat
  | .check i | .lock i | .opened i _ | .proceed i | .reconcile i | .applied i _ | .adopted i _
  | .consumed i _ | .insert i | .fetch i | .drop i | .cancel i => some i
  | _ => none

def step (s : State) : Event → Option State
  | .conn event => (s.conn.step event).map fun conn => { s with conn }
  | .request worker => some (s.request v worker)
  | .call profile =>
    match s.conn.published with
    | .ready generation =>
      some { s with tasks := s.tasks ++ [{ kind := .call, generation, profile, stage := .checking }] }
    | _ => none
  -- the coordinator runs one recovery at a time, once for each generation
  | .recover =>
    match s.conn.published with
    | .ready generation =>
      if s.stopped || s.tasks.any Task.recovers || generation = s.lastGeneration then none
      else some { s with
        lastGeneration := generation
        tasks := s.tasks ++ [{ kind := .recovery [] true, generation, profile := "", stage := .requesting }] }
    | _ => none
  -- `shutdown_coordinator` takes the map, then closes the sets one after the other
  | .shutdown =>
    if s.emptied || s.tasks.any Task.recovers then none
    else some { s with stopped := true, emptied := true, consumers := ∅, leaving := Keyed.values s.consumers }
  | .closeNext =>
    match s.leaving with
    | index :: rest => some { s.closeSet index with leaving := rest }
    | [] => none
  | event => do
    let i ← event.task
    let task ← s.tasks[i]?
    let (s, task) ← advance v broker s task event
    some { s with tasks := s.tasks.set i task }

def machine : Machine State Event where
  Initial s := s = {}
  step := step v broker

end

end RabbitRs.Establishment
