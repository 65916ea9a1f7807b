import RabbitRs.Lib.Keyed
import RabbitRs.Lib.Machine
import RabbitRs.Lib.Slots

/-!
The client pool (`client.rs`): acquisitions of coordinators, publishers and consumers beside
`ClientPool::close`, with what a coordinator does to its resources. A step is what one task does
under one lock, or between two awaits.
-/

namespace RabbitRs.Client

open StepMachine

/-- A registry of the pool, or the consumer map of a coordinator: the number of the resource. -/
abbrev Numbers := AList fun _ : String => Nat

/-- What acquisitions read of the configuration: the brokers, and the brokers of a worker profile
(`none` for one that is unknown and cannot be synthesized). -/
structure Plan where
  brokers : List String
  profile : String → Option (List String)

/-- The generation of an open pool never changes. -/
inductive Lifecycle where
  | opened | closing | closed
  deriving DecidableEq

/-- A coordinator task: it has a close command from `closing` on, has closed its publisher from
`stopping` on, and closes the sets it took from its map while it drains. -/
inductive Phase where
  | running | closing | stopping | draining (sets : List Nat) | closed
  deriving DecidableEq

def Phase.told : Phase → Phase
  | .running => .closing
  | phase => phase

def Phase.recovers : Phase → Bool
  | .running | .closing => true
  | _ => false

/-- `ready` is the generation of a connection that is `Ready`, `establishing` the establish lock. -/
structure Coordinator where
  broker : String
  phase : Phase := .running
  ready : Option Nat := none
  publisher : Option Nat := none
  consumers : Numbers := ∅
  establishing : Bool := false

structure Composite where
  sources : List Nat
  closedByCaller : Bool := false

/-- What a call of `coordinator` is made for. A consumer acquisition first starts the coordinators of
all brokers, then asks each of them for its set. -/
inductive Errand where
  | admin
  | publisher (broker : String)
  | prepare (profile : String) (rest : List String)
  | compose (profile : String) (rest : List String) (sources : List Nat)
  deriving DecidableEq

def Errand.sources : Errand → List Nat
  | .compose _ _ sources => sources
  | _ => []

def Errand.timed : Errand → Bool
  | .prepare _ _ | .compose _ _ _ => true
  | _ => false

inductive Slot where
  | coordinator (broker : String)
  | publisher (broker : String)
  | consumer (profile : String)
  deriving DecidableEq

def Errand.holds : Errand → List Slot
  | .admin => []
  | .publisher broker => [.publisher broker]
  | .prepare profile _ | .compose profile _ _ => [.consumer profile]

structure Quest where
  profile : String
  rest : List String
  sources : List Nat
  coordinator : Nat
  deriving DecidableEq

inductive Stage where
  -- `publisher`; `again` under the initializer lock
  | publisherCheck (broker : String) (again : Bool)
  | publisherLock (broker : String)
  | acquire (broker : String) (coordinator : Nat)
  | commitPublisher (broker : String) (publisher : Nat)
  | refusedPublisher (broker : String) (publisher : Nat)
  -- `consumer`
  | consumerCheck (profile : String) (again : Bool)
  | judge (profile : String) (composite : Nat) (again : Bool)
  | consumerLock (profile : String)
  | wait (quest : Quest)
  | ask (quest : Quest)
  | establish (quest : Quest) (generation : Nat)
  | created (quest : Quest) (set : Nat)
  | fetch (quest : Quest)
  | compose (profile : String) (sources : List Nat)
  | commitConsumer (profile : String) (composite : Nat)
  | refusedConsumer (profile : String) (composite : Nat)
  -- `coordinator`
  | check (errand : Errand) (broker : String) (again : Bool)
  | lock (errand : Errand) (broker : String)
  | commitCoordinator (errand : Errand) (broker : String) (coordinator : Nat)
  | refusedCoordinator (errand : Errand) (broker : String) (coordinator : Nat)
  | admin (coordinator : Nat)
  | done
  deriving DecidableEq

namespace Stage

def holds : Stage → List Slot
  | .publisherCheck broker again => if again then [.publisher broker] else []
  | .acquire broker _ | .commitPublisher broker _ | .refusedPublisher broker _ => [.publisher broker]
  | .consumerCheck profile again | .judge profile _ again => if again then [.consumer profile] else []
  | .wait quest | .ask quest | .establish quest _ | .created quest _ | .fetch quest => [.consumer quest.profile]
  | .compose profile _ | .commitConsumer profile _ | .refusedConsumer profile _ => [.consumer profile]
  | .check errand broker again => if again then .coordinator broker :: errand.holds else errand.holds
  | .lock errand _ => errand.holds
  | .commitCoordinator errand broker _ | .refusedCoordinator errand broker _ => .coordinator broker :: errand.holds
  | .publisherLock _ | .consumerLock _ | .admin _ | .done => []

def handle : Stage → Option Nat
  | .acquire _ id | .commitCoordinator _ _ id | .refusedCoordinator _ _ id | .admin id => some id
  | .wait quest | .ask quest | .establish quest _ | .created quest _ | .fetch quest => some quest.coordinator
  | _ => none

end Stage

inductive Closing where
  | begin
  | takeConsumers
  | consumers (rest : List Nat)
  | takeCoordinators
  | coordinators (rest : List Nat)
  | awaiting (coordinator : Nat) (rest : List Nat)
  | takePublishers
  | publishers (rest : List Nat)
  | finish
  | done
  deriving DecidableEq

def Closing.handles : Closing → List Nat
  | .coordinators rest => rest
  | .awaiting id rest => id :: rest
  | _ => []

/-- `sets` lists the generations of the consumer sets, `publishers` counts; both are numbered in the
order they were created. `abandoned` is history: the refused coordinators whose close a timeout cut
off. -/
structure State where
  lifecycle : Lifecycle := .opened
  registered : Numbers := ∅
  publishers : Numbers := ∅
  consumers : Numbers := ∅
  coordinators : List Coordinator := []
  spawnedPublishers : Nat := 0
  closedPublishers : List Nat := []
  sets : List Nat := []
  closedSets : List Nat := []
  composites : List Composite := []
  tasks : List Stage := []
  closers : List Closing := []
  abandoned : List Nat := []

inductive Effect where
  | quiet
  | spawn (broker : String)
  | register (broker : String) (coordinator : Nat)
  | dismiss (coordinator : Nat)
  | registerPublisher (broker : String) (publisher : Nat)
  | closePublisher (publisher : Nat)
  | registerConsumer (profile : String) (composite : Nat)
  | closeConsumer (composite : Nat)
  | evict (profile : String)
  | drop (sets : List Nat)
  | createSet (coordinator generation : Nat)
  | insertSet (coordinator : Nat) (profile : String) (set : Nat)
  | dropSet (coordinator : Nat) (sets : List Nat)
  | leave (coordinator : Nat) (sets : List Nat)
  | compose (sources : List Nat)
  deriving DecidableEq

namespace State

variable (s : State)

def change (id : Nat) (f : Coordinator → Coordinator) : State :=
  { s with coordinators := s.coordinators.modify id f }

/-- A set is closed by `close`, and by the drop of any of its handles. -/
def closeSets (sets : List Nat) : State := { s with closedSets := s.closedSets ++ sets }

def setClosed (set : Nat) : Bool := s.closedSets.contains set

def insertSet (id : Nat) (profile : String) (set : Nat) : State :=
  match s.coordinators[id]? with
  | none => s
  | some coordinator =>
    (s.change id fun coordinator => { coordinator with
      consumers := coordinator.consumers.insert profile set
      establishing := false }).closeSets (coordinator.consumers.lookup profile).toList

def closeComposite (id : Nat) : State :=
  match s.composites[id]? with
  | none => s
  | some composite =>
    { s with composites := s.composites.modify id fun composite => { composite with closedByCaller := true } }.closeSets
      composite.sources

def apply : Effect → State
  | .quiet => s
  | .spawn broker => { s with coordinators := s.coordinators ++ [{ broker }] }
  | .register broker id => { s with registered := s.registered.insert broker id }
  | .dismiss id => s.change id fun coordinator => { coordinator with phase := coordinator.phase.told }
  | .registerPublisher broker publisher => { s with publishers := s.publishers.insert broker publisher }
  | .closePublisher publisher => { s with closedPublishers := s.closedPublishers ++ [publisher] }
  | .registerConsumer profile composite => { s with consumers := s.consumers.insert profile composite }
  | .closeConsumer composite => s.closeComposite composite
  | .evict profile => { s with consumers := s.consumers.erase profile }
  | .drop sets => s.closeSets sets
  | .createSet id generation =>
    { s.change id fun coordinator => { coordinator with establishing := true } with sets := s.sets ++ [generation] }
  | .insertSet id profile set => s.insertSet id profile set
  | .dropSet id sets =>
    (s.change id fun coordinator => { coordinator with establishing := false }).closeSets sets
  | .leave id sets => { s with abandoned := s.abandoned ++ [id] }.closeSets sets
  | .compose sources => { s with composites := s.composites ++ [{ sources }] }

def free (slot : Slot) : Bool := s.tasks.all fun stage => !stage.holds.contains slot

def servable (generation set : Nat) : Bool := s.sets[set]? == some generation && !s.setClosed set

/-- `consumer_if_fresh`: every source is of the generation its coordinator is ready in, and the
composite is not closed. -/
def fresh (brokers : List String) (composite : Composite) : Bool :=
  composite.sources.length == brokers.length &&
    (brokers.zip composite.sources).all (fun source =>
      ((s.registered.lookup source.1).bind fun id => (s.coordinators[id]?).bind (·.ready)).any fun generation =>
        s.sets[source.2]? == some generation) &&
    !(composite.closedByCaller || composite.sources.all s.setClosed)

end State

section

variable (plan : Plan)

def startCompose (profile : String) : Stage :=
  match plan.profile profile with
  | some (broker :: rest) => .check (.compose profile rest []) broker false
  | _ => .compose profile []

def startPrepare (profile : String) : List String → Stage
  | broker :: rest => .check (.prepare profile rest) broker false
  | [] => startCompose plan profile

def gotCoordinator (errand : Errand) (id : Nat) : Stage :=
  match errand with
  | .admin => .admin id
  | .publisher broker => .acquire broker id
  | .prepare profile rest => startPrepare plan profile rest
  | .compose profile rest sources => .wait { profile, rest, sources, coordinator := id }

def gotSet (quest : Quest) (set : Nat) : Stage :=
  match quest.rest with
  | [] => .compose quest.profile (quest.sources ++ [set])
  | broker :: rest => .check (.compose quest.profile rest (quest.sources ++ [set])) broker false

/-- The next step of an acquisition, if it does not wait. A failed one drops the sets it has got. -/
def Stage.next (s : State) : Stage → Option (Stage × Effect)
  | .publisherCheck broker again =>
    if s.lifecycle ≠ .opened then some (.done, .quiet)
    else match s.publishers.lookup broker with
      | some _ => some (.done, .quiet)
      | none => some (if again then .check (.publisher broker) broker false else .publisherLock broker, .quiet)
  | .publisherLock broker => if s.free (.publisher broker) then some (.publisherCheck broker true, .quiet) else none
  | .acquire broker id =>
    if s.lifecycle ≠ .opened then some (.done, .quiet)
    else (s.coordinators[id]?.bind (·.publisher)).map fun publisher => (.commitPublisher broker publisher, .quiet)
  | .commitPublisher broker publisher =>
    if s.lifecycle = .opened then some (.done, .registerPublisher broker publisher)
    else some (.refusedPublisher broker publisher, .quiet)
  | .refusedPublisher _ publisher => some (.done, .closePublisher publisher)
  | .consumerCheck profile again =>
    if s.lifecycle ≠ .opened then some (.done, .quiet)
    else match plan.profile profile with
      | none => some (.done, .quiet)
      | some brokers =>
        match s.consumers.lookup profile with
        | some composite => some (.judge profile composite again, .quiet)
        | none => some (if again then startPrepare plan profile brokers else .consumerLock profile, .quiet)
  | .judge profile composite again =>
    match plan.profile profile, s.composites[composite]? with
    | some brokers, some found =>
      if s.fresh brokers found then some (.done, .quiet)
      else some (if again then startPrepare plan profile brokers else .consumerLock profile, .evict profile)
    | _, _ => none
  | .consumerLock profile => if s.free (.consumer profile) then some (.consumerCheck profile true, .quiet) else none
  | .wait quest =>
    if s.lifecycle ≠ .opened then some (.done, .drop quest.sources) else some (.ask quest, .quiet)
  | .ask quest =>
    s.coordinators[quest.coordinator]?.map fun coordinator =>
      match coordinator.ready, coordinator.consumers.lookup quest.profile with
      | none, _ => (.wait quest, .quiet)
      | some generation, none => (.establish quest generation, .quiet)
      | some generation, some set =>
        if s.servable generation set then (gotSet quest set, .quiet)
        -- the handle that was looked at is dropped
        else (.establish quest generation, .drop [set])
  | .establish quest generation =>
    s.coordinators[quest.coordinator]?.bind fun coordinator =>
      if coordinator.establishing then none
      else if (coordinator.consumers.lookup quest.profile).any (s.servable generation) then
        some (.fetch quest, .quiet)
      else some (.created quest s.sets.length, .createSet quest.coordinator generation)
  | .created quest set =>
    s.coordinators[quest.coordinator]?.map fun _ => (.fetch quest, .insertSet quest.coordinator quest.profile set)
  | .fetch quest =>
    s.coordinators[quest.coordinator]?.map fun coordinator =>
      match coordinator.consumers.lookup quest.profile with
      | some set => (gotSet quest set, .quiet)
      | none => (.wait quest, .quiet)
  | .compose profile sources => some (.commitConsumer profile s.composites.length, .compose sources)
  | .commitConsumer profile composite =>
    if s.lifecycle = .opened then some (.done, .registerConsumer profile composite)
    else some (.refusedConsumer profile composite, .quiet)
  | .refusedConsumer _ composite => some (.done, .closeConsumer composite)
  | .check errand broker again =>
    if broker ∉ plan.brokers ∨ s.lifecycle ≠ .opened then some (.done, .drop errand.sources)
    else match s.registered.lookup broker with
      | some id => some (gotCoordinator plan errand id, .quiet)
      | none =>
        if again then some (.commitCoordinator errand broker s.coordinators.length, .spawn broker)
        else some (.lock errand broker, .quiet)
  | .lock errand broker =>
    if s.free (.coordinator broker) then some (.check errand broker true, .quiet) else none
  | .commitCoordinator errand broker id =>
    if s.lifecycle = .opened then some (gotCoordinator plan errand id, .register broker id)
    else some (.refusedCoordinator errand broker id, .dismiss id)
  | .refusedCoordinator errand _ id =>
    s.coordinators[id]?.bind fun coordinator =>
      if coordinator.phase = .closed then some (.done, .drop errand.sources) else none
  | .admin _ => some (.done, .quiet)
  | .done => none

end

/-- The acquisition gives up at an await: its timeout elapsed, or its coordinator has failed for good
or is closed. A set that was being established is dropped with the ones it had got. -/
def Stage.abandoned : Stage → Option Effect
  | .acquire _ _ | .refusedPublisher _ _ => some .quiet
  | .wait quest | .ask quest | .establish quest _ | .fetch quest => some (.drop quest.sources)
  | .created quest set => some (.dropSet quest.coordinator (quest.sources ++ [set]))
  | .lock errand _ => if errand.timed then some (.drop errand.sources) else none
  | .refusedCoordinator errand _ id => if errand.timed then some (.leave id errand.sources) else none
  | _ => none

namespace State

variable (s : State)

def closeNext : Closing → Option (State × Closing)
  | .begin =>
    if s.lifecycle = .opened then some ({ s with lifecycle := .closing }, .takeConsumers) else some (s, .done)
  | .takeConsumers => some ({ s with consumers := ∅ }, .consumers (Keyed.values s.consumers))
  | .consumers (composite :: rest) => some (s.closeComposite composite, .consumers rest)
  | .consumers [] => some (s, .takeCoordinators)
  | .takeCoordinators => some ({ s with registered := ∅ }, .coordinators (Keyed.values s.registered))
  | .coordinators (id :: rest) =>
    s.coordinators[id]?.map fun coordinator =>
      if coordinator.phase = .running then (s.apply (.dismiss id), .awaiting id rest) else (s, .coordinators rest)
  | .coordinators [] => some (s, .takePublishers)
  | .awaiting id rest =>
    s.coordinators[id]?.bind fun coordinator =>
      if coordinator.phase = .closed then some (s, .coordinators rest) else none
  | .takePublishers => some ({ s with publishers := ∅ }, .publishers (Keyed.values s.publishers))
  | .publishers (publisher :: rest) => some (s.apply (.closePublisher publisher), .publishers rest)
  | .publishers [] => some (s, .finish)
  | .finish => some ({ s with lifecycle := .closed }, .done)
  | .done => none

def shutNext (id : Nat) (coordinator : Coordinator) : Option State :=
  match coordinator.phase with
  | .closing => some { s.change id fun coordinator => { coordinator with publisher := none, phase := .stopping } with
      closedPublishers := s.closedPublishers ++ coordinator.publisher.toList }
  | .stopping => some (s.change id fun coordinator => { coordinator with
      consumers := ∅
      phase := .draining (Keyed.values coordinator.consumers) })
  | .draining (set :: rest) =>
    some ((s.change id fun coordinator => { coordinator with phase := .draining rest }).closeSets [set])
  | .draining [] => some (s.change id fun coordinator => { coordinator with ready := none, phase := .closed })
  | .running | .closed => none

def refers (id : Nat) : Bool :=
  (Keyed.values s.registered).contains id || s.closers.any (·.handles.contains id) ||
    s.tasks.any (·.handle == some id)

/-- The sets that die with the last handle of a coordinator whose task has ended. -/
def orphans : List Nat :=
  (s.coordinators.zipIdx.filter fun entry => entry.1.phase = .closed && !s.refers entry.2).flatMap fun entry =>
    Keyed.values entry.1.consumers

def collect : State := s.closeSets s.orphans

end State

/-- Calls, steps of acquisitions and of `close`, what a coordinator does by itself (its connection
changes, its recovery installs the publisher and re-establishes a profile, it shuts down), and an
embedder that closes or drops a consumer. -/
inductive Event where
  | coordinator (broker : String)
  | publisher (broker : String)
  | consumer (profile : String)
  | close
  | go (task : Nat)
  | unestablished (task : Nat)
  | abandon (task : Nat)
  | closing (closer : Nat)
  | transition (coordinator : Nat) (ready : Option Nat)
  | install (coordinator : Nat)
  | restore (coordinator : Nat) (profile : String)
  | shut (coordinator : Nat)
  | closeConsumer (composite : Nat)

namespace State

variable (plan : Plan) (s : State)

def start (stage : Stage) : State := { s with tasks := s.tasks ++ [stage] }

def move (task : Nat) (stage : Stage) : State := { s with tasks := s.tasks.set task stage }

/-- A step before the handles it gave up are dropped. -/
@[simp] def stepRaw : Event → Option State
  | .coordinator broker => some (s.start (.check .admin broker false))
  | .publisher broker => some (s.start (.publisherCheck broker false))
  | .consumer profile => some (s.start (.consumerCheck profile false))
  | .close => some { s with closers := s.closers ++ [.begin] }
  | .go task =>
    s.tasks[task]?.bind fun stage => (stage.next plan s).map fun next => (s.apply next.2).move task next.1
  | .unestablished task =>
    s.tasks[task]?.bind fun stage =>
      match stage with
      | .establish quest _ => some (s.move task (.wait quest))
      | _ => none
  | .abandon task =>
    s.tasks[task]?.bind fun stage => stage.abandoned.map fun effect => (s.apply effect).move task .done
  | .closing closer =>
    s.closers[closer]?.bind fun closing => (s.closeNext closing).map fun next =>
      { next.1 with closers := next.1.closers.set closer next.2 }
  | .transition id ready =>
    s.coordinators[id]?.bind fun coordinator =>
      if coordinator.phase = .closed then none else some (s.change id fun coordinator => { coordinator with ready })
  | .install id =>
    s.coordinators[id]?.bind fun coordinator =>
      if coordinator.phase.recovers ∧ coordinator.publisher = none then
        some { s.change id fun coordinator => { coordinator with publisher := some s.spawnedPublishers } with
          spawnedPublishers := s.spawnedPublishers + 1 }
      else none
  | .restore id profile =>
    s.coordinators[id]?.bind fun coordinator => coordinator.ready.bind fun generation =>
      if coordinator.phase.recovers ∧ coordinator.establishing = false then
        some ({ s with sets := s.sets ++ [generation] }.insertSet id profile s.sets.length)
      else none
  | .shut id => s.coordinators[id]?.bind fun coordinator => s.shutNext id coordinator
  | .closeConsumer composite => some (s.closeComposite composite)

end State

def step (plan : Plan) (s : State) (e : Event) : Option State := (s.stepRaw plan e).map State.collect

def machine (plan : Plan) : Machine State Event where
  Initial s := s = {}
  step := step plan

end RabbitRs.Client
