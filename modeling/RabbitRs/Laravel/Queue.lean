import RabbitRs.Buffer.Model

/-!
The Laravel queue (`RabbitMqQueue.php`): how `pop`, a sweep and a teardown drain the error records
of the native pool and of the cached consumers. What the native side answers is chosen by the
environment.
-/

namespace RabbitRs.Laravel

open Buffer StepMachine

/-- `ConsumerErrorKind`, the `error_kind` of a settlement record. -/
inductive ErrorKind where
  | closed | staleGeneration | sourceReplaced | alreadySettled | alreadySettling | settlementInProgress
  | transport | publish | missingPublisher | invalidSubscription | maxAttempts | invalidDelay
  deriving DecidableEq

def ErrorKind.connectionLevel : ErrorKind → Bool
  | .staleGeneration | .transport => true
  | _ => false

def ErrorKind.poison : ErrorKind → Bool
  | .maxAttempts | .invalidDelay => true
  | _ => false

structure SettlementRecord where
  deliveryTag : Nat
  subscription : String
  kind : ErrorKind
  message : String
  deriving DecidableEq

def SettlementRecord.poison (record : SettlementRecord) : Bool := record.kind.poison

/-- A record as PHP sees it: the tag is a signed integer. -/
def SettlementRecord.exported (record : SettlementRecord) : SettlementRecord :=
  { record with deliveryTag := min record.deliveryTag i64Max }

def errorChannelCapacity : Nat := 256

/-- `record_settlement_error`: bounded, the oldest record makes room. -/
def recordSettlementError (pending : List SettlementRecord) (record : SettlementRecord) : List SettlementRecord :=
  if errorChannelCapacity ≤ pending.length then pending.tail ++ [record] else pending ++ [record]

/-- A cached consumer: the undrained records of each of its sources. -/
structure Consumer where
  sources : List (List SettlementRecord)

/-- `Consumer::drainErrors` drains the sources one after another. -/
def Consumer.batch (consumer : Consumer) : List SettlementRecord :=
  consumer.sources.flatten.map SettlementRecord.exported

def Consumer.drained (consumer : Consumer) : Consumer := ⟨consumer.sources.map fun _ => []⟩

inductive Raised where
  | connection (message : String)
  | backpressure (message : String)
  | native (message : String)
  | queue (message : String)
  | invalidArgument (message : String)
  deriving DecidableEq

/-- An entry of the log: what it was written for, with its context. -/
inductive Entry where
  | poison (record : SettlementRecord)
  | settlement (record : SettlementRecord)
  | publication (error : PendingPublishError)
  | unmarshable (reason action : String)

namespace Entry

def publication? : Entry → Option PendingPublishError
  | .publication error => some error
  | _ => none

def poison? : Entry → Option SettlementRecord
  | .poison record => some record
  | _ => none

end Entry

/-- `WorkerProfileResolver`: the queues of each profile by subscription, in insertion order. -/
structure Resolver where
  profiles : List (String × List (String × String))

namespace Resolver

variable (resolver : Resolver)

def profileForQueue (queue : String) : Option String :=
  (resolver.profiles.find? fun profile => profile.2.any fun subscription => subscription.2 == queue).map Prod.fst

def isShared (profile : String) : Bool := 1 < ((resolver.profiles.lookup profile).getD []).length

def hasProfile (profile : String) : Bool := (resolver.profiles.lookup profile).isSome

def registerAutoProfile (queue : String) : Resolver × String :=
  let profile := "__auto__." ++ queue
  if resolver.hasProfile profile then (resolver, profile)
  else (⟨resolver.profiles ++ [(profile, [("auto", queue)])]⟩, profile)

def queue (profile subscription : String) : Except String String :=
  if subscription = "" then
    .error ("workers." ++ profile ++ ".subscriptions: delivery has no subscription alias")
  else match ((resolver.profiles.lookup profile).getD []).lookup subscription with
    | some queue => .ok queue
    | none => .error ("workers." ++ profile ++ ".subscriptions." ++ subscription ++ ": unknown subscription")

end Resolver

/-- The native error queue and whether the pool is open, the consumer cache in insertion order, the
log and what was thrown. The rest is history: the records drained from the pool, those of them that
were thrown and those the counter of dropped records was raised for, the records the bounded queue
evicted, and the settlement records drained from consumers. -/
structure State where
  errors : ErrorQueue := {}
  poolOpen : Bool := true
  consumers : List (String × Consumer) := []
  profiles : Resolver
  log : List Entry := []
  raised : List Raised := []
  drained : List PendingPublishError := []
  thrown : List PendingPublishError := []
  counted : List PendingPublishError := []
  evicted : Nat := 0
  settlements : List SettlementRecord := []

/-- What the queue is constructed with; `container` says whether one is bound. -/
structure Settings where
  container : Bool
  defaultQueue : String
  hasDeadLetter : Bool

namespace State

variable (settings : Settings) (s : State)

def write (entry : Entry) : State := { s with log := s.log ++ [entry] }

def takeErrors : State :=
  { s with errors := { s.errors with pending := [] }, drained := s.drained ++ s.errors.pending }

def closedPool (operation : String) : Raised :=
  .native ("Goopil\\RabbitRs\\Pool::" ++ operation ++ " cannot use a closed pool")

/-- `surface_publish_errors` of the native pool: it throws the first record and counts the others. -/
def surfacePublishErrors : State × Option Raised :=
  match s.errors.pending with
  | [] => (s, none)
  | first :: rest =>
    ({ s.takeErrors with
        errors := { pending := [], dropped := s.errors.dropped + rest.length }
        thrown := s.thrown ++ [first]
        counted := s.counted ++ rest },
      some (if first.kind = "Transport" then .connection first.message
        else if first.kind = "Backpressure" then .backpressure first.message
        else .native first.message))

def poolOperation (operation : String) : State × Option Raised :=
  if s.poolOpen then s.surfacePublishErrors else (s, some (closedPool operation))

def drainPublishErrors : State × Option Raised :=
  if s.poolOpen then
    match s.errors.pending with
    | [] => (s.takeErrors, none)
    | error :: _ =>
      ({ s.takeErrors with thrown := s.thrown ++ [error] },
        some (if error.kind = "Transport" then .connection error.message else .queue error.message))
  else (s, some (closedPool "drainErrors"))

def drainConsumer (position : Nat) : State × List SettlementRecord :=
  let batch := ((s.consumers[position]?).map fun entry => entry.2.batch).getD []
  ({ s with
      consumers := s.consumers.modify position fun entry => (entry.1, entry.2.drained)
      settlements := s.settlements ++ batch }, batch)

def report (record : SettlementRecord) : State :=
  if record.poison then s.write (.poison record) else s.write (.settlement record)

def sweepBatch (s : State) : List SettlementRecord → State × Option Raised
  | [] => (s, none)
  | record :: rest =>
    if record.kind.connectionLevel then (s, some (.connection record.message))
    else sweepBatch (if settings.container then s.report record else s) rest

def sweepConsumers (s : State) : Nat → Nat → State × Option Raised
  | 0, _ => (s, none)
  | left + 1, position =>
    match (s.drainConsumer position).1.sweepBatch settings (s.drainConsumer position).2 with
    | (s, some raised) => (s, some raised)
    | (s, none) => sweepConsumers s left (position + 1)

def drainSettlementErrors : State × Option Raised :=
  match s.drainPublishErrors with
  | (s, some raised) => (s, some raised)
  | (s, none) => s.sweepConsumers settings s.consumers.length 0

end State

structure Delivery where
  subscription : String
  -- why it cannot be made a job
  refused : Option String
  -- what its settlement throws
  unsettled : Option Raised := none

/-- What an attempt to fetch a delivery gives: from `Pool::consumer`, with the number of sources of the
consumer it opens, and from `next`. -/
inductive Fetch where
  | delivery (sources : Nat) (delivery : Delivery)
  | empty (sources : Nat)
  | connection (message : String)
  | native (message : String)

def closedSetMessage : String := "consumer set is closed"

/-- `str_contains($exception->getMessage(), CLOSED_SET_MESSAGE)`. -/
def isClosedSetError (message : String) : Bool :=
  message.toList.tails.any fun tail => closedSetMessage.toList.isPrefixOf tail

def closedRefetchAttempts : Nat := 2

namespace State

variable (settings : Settings) (s : State)

def evict (profile : String) : State := { s with consumers := s.consumers.filter fun entry => entry.1 ≠ profile }

/-- `$this->consumers[$profile] ??= …`. -/
def cache (profile : String) (sources : Nat) : State :=
  if (s.consumers.lookup profile).isSome then s
  else { s with consumers := s.consumers ++ [(profile, ⟨List.replicate sources []⟩)] }

/-- `refetchAfterClosed`: the attempts that are left, from attempt `attempt` on. -/
def refetchAfterClosed (profile original : String) (fetch : Nat → Fetch) :
    Nat → Nat → State → State × Except Raised (Option Delivery)
  | 0, _, s => (s, .error (.queue original))
  | left + 1, attempt, s =>
    match fetch attempt with
    | .delivery sources delivery => (s.cache profile sources, .ok (some delivery))
    | .empty sources => (s.cache profile sources, .ok none)
    | .connection message => (s.evict profile, .error (.connection message))
    | .native message =>
      if isClosedSetError message then refetchAfterClosed profile original fetch left (attempt + 1) (s.evict profile)
      else (s.evict profile, .error (.queue message))

def fetchDelivery (profile : String) (fetch : Nat → Fetch) : State × Except Raised (Option Delivery) :=
  match fetch 0 with
  | .delivery sources delivery => (s.cache profile sources, .ok (some delivery))
  | .empty sources => (s.cache profile sources, .ok none)
  | .connection message => (s.evict profile, .error (.connection message))
  | .native message =>
    if isClosedSetError message then
      (s.evict profile).refetchAfterClosed profile message fetch closedRefetchAttempts 1
    else (s.evict profile, .error (.queue message))

def popProfile (queueName : String) : State × Except Raised String :=
  match s.profiles.profileForQueue queueName with
  | some profile =>
    if s.profiles.isShared profile then
      let (profiles, auto) := s.profiles.registerAutoProfile queueName
      ({ s with profiles }, .ok auto)
    else (s, .ok profile)
  | none =>
    if s.profiles.hasProfile queueName then (s, .ok queueName)
    else (s, .error (.invalidArgument ("No worker profile subscribes to queue '" ++ queueName ++
      "': declare it in queue.connections.<name> (queue key or subscriptions).")))

def settleUnmarshable (delivery : Delivery) (reason : String) : State × Option Raised :=
  match delivery.unsettled with
  | some raised => (s, some raised)
  | none =>
    let action := if settings.hasDeadLetter then "rejected with requeue=false toward the dead-letter exchange"
      else "acknowledged and dropped (no dead-letter exchange configured)"
    (if settings.container then s.write (.unmarshable reason action) else s, none)

def popDelivery (queue : Option String) (fetch : Nat → Fetch) : State × Option Raised :=
  if queue = some "" then (s, some (.invalidArgument "queue must be a non-empty string"))
  else
    match s.popProfile (queue.getD settings.defaultQueue) with
    | (s, .error raised) => (s, some raised)
    | (s, .ok profile) =>
      match s.fetchDelivery profile fetch with
      | (s, .error raised) => (s, some raised)
      | (s, .ok none) => (s, none)
      | (s, .ok (some delivery)) =>
        match s.profiles.queue profile delivery.subscription, delivery.refused with
        | .error message, _ => (s, some (.invalidArgument message))
        | .ok _, some reason => s.settleUnmarshable settings delivery reason
        | .ok _, none => (s, none)

/-- `due`: the probe statefile is to be written, so `pop` begins with `stats`. -/
def pop (queue : Option String) (due : Bool) (fetch : Nat → Fetch) : State × Option Raised :=
  match if due then s.poolOperation "stats" else (s, none) with
  | (s, some raised) => (s, some raised)
  | (s, none) =>
    match s.drainSettlementErrors settings with
    | (s, some raised) => (s, some raised)
    | (s, none) => s.popDelivery settings queue fetch

def logPendingPublishErrors : State :=
  if settings.container && s.poolOpen then
    { s.takeErrors with log := s.log ++ s.errors.pending.map Entry.publication }
  else s

def logPendingSettlementErrors (position : Nat) : State :=
  if settings.container then (s.drainConsumer position).2.foldl State.report (s.drainConsumer position).1 else s

def closeConsumers : State :=
  { (List.range s.consumers.length).foldl (State.logPendingSettlementErrors settings) s with consumers := [] }

def destruct : State := (s.logPendingPublishErrors settings).closeConsumers settings

end State

/-- A publication or a settlement fails, the pool is closed elsewhere, or an operation is called:
`pop`, a sweep on its own, a pool operation that surfaces publish errors, and the two teardowns. -/
inductive Event where
  | publishFailed (error : PendingPublishError)
  | settlementFailed (profile : String) (source : Nat) (record : SettlementRecord)
  | poolClosed
  | pop (queue : Option String) (due : Bool) (fetch : Nat → Fetch)
  | sweep
  | operation (name : String)
  | closeConsumers
  | destruct

namespace State

variable (settings : Settings) (s : State)

def finish (done : State × Option Raised) : State := { done.1 with raised := done.1.raised ++ done.2.toList }

def failPublish (error : PendingPublishError) : State :=
  { s with
    errors := s.errors.record error
    evicted := if maxPendingErrors ≤ s.errors.pending.length then s.evicted + 1 else s.evicted }

def failSettlement (profile : String) (source : Nat) (record : SettlementRecord) : State :=
  { s with consumers := s.consumers.map fun entry =>
      if entry.1 = profile then
        (entry.1, ⟨entry.2.sources.modify source fun pending => recordSettlementError pending record⟩)
      else entry }

def next : Event → State
  | .publishFailed error => s.failPublish error
  | .settlementFailed profile source record => s.failSettlement profile source record
  | .poolClosed => { s with poolOpen := false }
  | .pop queue due fetch => finish (s.pop settings queue due fetch)
  | .sweep => finish (s.drainSettlementErrors settings)
  | .operation name => finish (s.poolOperation name)
  | .closeConsumers => s.closeConsumers settings
  | .destruct => s.destruct settings

end State

def machine (settings : Settings) : Machine State Event where
  Initial s := ∃ profiles, s = { profiles }
  step s e := some (s.next settings e)

end RabbitRs.Laravel
