import RabbitRs.Consumer.Lane
import RabbitRs.Consumer.Scheduler
import RabbitRs.Lib.Machine
import RabbitRs.Publisher.DelayRoute

/-!
The consumer set actor (`consumer/actor.rs`) over all its subscriptions. Its handlers are
synchronous; between them the embedder's threads, the spawned settlement tasks and the broker act in
any order.
-/

namespace RabbitRs.Consumer

open StepMachine

def commandCapacity : Nat := 256

def sourceErrorCapacity : Nat := 64

def errorChannelCapacity : Nat := 256

/-- A token of another consumer set, handed to this one's `try_settle_through`. -/
structure ForeignToken where
  subscription : String
  identity : ChannelIdentity
  tag : Nat
  state : DeliveryState
  settling : Bool

inductive Command where
  | settle (id : String) (tag : Nat) (settlement : Settlement)
  | settleThrough (id : String) (tag : Nat)
  | settleForeign (token : ForeignToken)
  | prefetchStats

structure Metrics where
  deliveries : Nat := 0
  duplicates : Nat := 0
  acks : Nat := 0
  rejects : Nat := 0
  backpressure : Nat := 0

/-- Where the actor's loop stands: draining one of the two command channels, in its `select!`, or
in one of the phases of `close_set`. -/
inductive Stage where
  | control | incoming | select | sweeping | draining | closed
  deriving DecidableEq

def Stage.polls : Stage → Bool
  | .select | .draining => true
  | _ => false

/-- A `try_settle` between its compare-and-swap and its `try_send`. -/
structure Sending where
  id : String
  tag : Nat
  settlement : Settlement

structure State where
  lanes : String → Lane := fun _ => {}
  parked : List (String × Delivery) := []
  sourceErrors : List ConsumerError := []
  scheduler : Scheduler
  queue : List QueueItem := []
  errorItems : Nat := 0
  errors : List SettlementError := []
  metrics : Metrics := {}
  control : List Command := []
  incoming : List (String × Except TransportError Delivery) := []
  stage : Stage := .control
  notified : Bool := false
  closeRequested : Bool := false
  popped : List Item := []
  sending : List Sending := []

/-- The subscriptions an actor is spawned with. Validation refuses two of one name, and `no_ack`
without `early_ack`. -/
structure Settings where
  subscriptions : List Subscription
  named : (subscriptions.map (·.id)).Nodup
  noAck_early : ∀ sub ∈ subscriptions, sub.noAck = true → sub.earlyAck = true

namespace Settings

variable (settings : Settings)

def runtime (id : String) : Option Subscription := settings.subscriptions.find? (·.id == id)

def totalPrefetch : Nat := (settings.subscriptions.map fun sub => sub.prefetch.ceiling.toNat).sum

def pendingCapacity : Nat := max settings.totalPrefetch commandCapacity

def handoffCapacity : Nat := max (settings.totalPrefetch * 2) 1

def earlyAckedCapacity : Nat := max settings.pendingCapacity settings.totalPrefetch

def initialScheduler : Scheduler :=
  settings.subscriptions.foldl (fun scheduler sub => scheduler.register sub.id sub.weight) {}

end Settings

namespace Subscription

variable (sub : Subscription)

def overBudget (lane : Lane) (size : Nat) : Bool := sub.maxBufferedBytes.toNat < lane.bufferedBytes + size

def oversized (size : Nat) : Bool := sub.maxBufferedBytes.toNat < size

def messageId (delivery : Delivery) : String :=
  delivery.messageId.getD (toString sub.identity.generation ++ ":" ++
    toString sub.identity.channelId.toNat ++ ":" ++ toString delivery.tag)

def item (delivery : Delivery) (attempts : Nat) : Item where
  id := sub.messageId delivery
  correlationId := delivery.correlationId
  subscription := sub.id
  payload := delivery.payload
  headers := delivery.headers
  attempts := attempts
  tag := delivery.tag

/-- The checks of `delayed_release` before it publishes, and the properties it publishes under.
A subscription has a publisher exactly when it has a destination. -/
def delayedProperties (sha256 : Bytes → Bytes) (token : Item) (delay : Duration) :
    Except ConsumerError MessageProperties :=
  match sub.destination, sub.delayStrategy with
  | none, _ => .error { kind := .missingPublisher, message := "delayed release requires a publisher" }
  | _, none => .error
      { kind := .missingPublisher, message := "delayed release requires a resolved delay strategy" }
  | some destination, some strategy =>
    if i64Max < delay.asMillis then
      .error { kind := .publish, message := "delay exceeds supported range" }
    else
      match routeDelay sha256 strategy destination delay.asMillis with
      | .error error => .error { kind := .invalidDelay, message := error.message }
      | .ok _ =>
        match delayedHeaders sub.maxAttempts token.headers token.attempts with
        | .error error => .error { kind := .maxAttempts, message := error.message }
        | .ok headers => .ok {
            messageId := token.id
            correlationId := token.correlationId
            delayMs := some delay.asMillis.toUInt64
            headers }

end Subscription

namespace State

variable (s : State)

def modify (id : String) (change : Lane → Lane) : State :=
  { s with lanes := Function.update s.lanes id (change (s.lanes id)) }

def recordSourceError (error : ConsumerError) : State :=
  let kept := if sourceErrorCapacity ≤ s.sourceErrors.length then s.sourceErrors.tail else s.sourceErrors
  { s with sourceErrors := kept ++ [error] }

def recordSettlementError (error : SettlementError) : State :=
  let kept := if errorChannelCapacity ≤ s.errors.length then s.errors.tail else s.errors
  { s with errors := kept ++ [error] }

def recordAck : State := { s with metrics := { s.metrics with acks := s.metrics.acks + 1 } }

def recordReject : State := { s with metrics := { s.metrics with rejects := s.metrics.rejects + 1 } }

def recordBackpressure : State :=
  { s with metrics := { s.metrics with backpressure := s.metrics.backpressure + 1 } }

def recordPoison (hasDeadLetter : Bool) : State := if hasDeadLetter then s.recordReject else s.recordAck

def recordDelivery (attempts : Nat) : State :=
  { s with metrics := { s.metrics with
      deliveries := s.metrics.deliveries + 1
      duplicates := if 1 < attempts then s.metrics.duplicates + 1 else s.metrics.duplicates } }

def settlePoison (sub : Subscription) (delivery : Delivery) (messageId detail : String) : State :=
  let s := s.recordPoison sub.hasDeadLetter
  let s := s.modify sub.id fun lane =>
    lane.settlePoison (sub.settlePoison (some sub.identity) delivery.tag) delivery.tag delivery.size
  s.recordSettlementError {
    tag := delivery.tag
    subscription := sub.id
    kind := .maxAttempts
    message := poisonSettlementMessage detail messageId sub.hasDeadLetter }

/-- The size is counted before `settle_poison` releases it. -/
def settleOversized (sub : Subscription) (delivery : Delivery) : State :=
  let s := s.modify sub.id fun lane =>
    { lane with bufferedBytes := lane.bufferedBytes + delivery.size }
  s.settlePoison sub delivery (delivery.messageId.getD (toString delivery.tag))
    "message size exceeds max_buffered_bytes"

/-! ### Hand-off -/

def enroll (sub : Subscription) (delivery : Delivery) : State :=
  let s := s.modify sub.id fun lane => lane.enroll delivery
  { s with scheduler := s.scheduler.markReady sub.id }

def stuck (sub : Subscription) : State := { s with scheduler := s.scheduler.markReady sub.id }

def handedOff (sub : Subscription) (item : Item) (rest : List Delivery) : State :=
  { s with
    queue := s.queue ++ [.delivery item]
    scheduler := if rest.isEmpty then s.scheduler.markEmpty sub.id else s.scheduler }

section

variable (settings : Settings)

def handoffFull : Bool := settings.handoffCapacity ≤ s.queue.length

/-- The `early_ack` branch: one wire acknowledgement per tag, whatever the hand-off does. -/
def dispatchEarly (sub : Subscription) (delivery : Delivery) (rest : List Delivery) (attempts : Nat) :
    State × Bool :=
  let s := if sub.noAck || (s.lanes sub.id).earlyAcked.contains delivery.tag then s
    else s.modify sub.id fun lane => lane.earlyAck settings.earlyAckedCapacity delivery.tag
  if s.handoffFull settings then (s.stuck sub, false)
  else
    let item := sub.item delivery attempts
    let s := (s.handedOff sub item rest).modify sub.id fun lane => lane.handEarly item delivery.size rest
    ((s.recordDelivery attempts).recordAck, true)

def dispatchToken (sub : Subscription) (delivery : Delivery) (rest : List Delivery) (attempts : Nat) :
    State × Bool :=
  let item := sub.item delivery attempts
  let s := s.modify sub.id fun lane => lane.tokenize item
  if s.handoffFull settings then (s.stuck sub, false)
  else
    let s := (s.handedOff sub item rest).modify sub.id fun lane => { lane with buffer := rest }
    (s.recordDelivery attempts, true)

def dispatchDelivery (sub : Subscription) (delivery : Delivery) (rest : List Delivery) : State × Bool :=
  match resolveAttempts sub.maxAttempts delivery.headers delivery.redelivered with
  | .ok attempts =>
    if sub.earlyAck then s.dispatchEarly settings sub delivery rest attempts
    else s.dispatchToken settings sub delivery rest attempts
  | .error error =>
    if sub.earlyAck then
      (s.recordSettlementError {
        tag := delivery.tag
        subscription := sub.id
        kind := .maxAttempts
        message := error.message }).dispatchEarly settings sub delivery rest error.attempts
    else
      let s := s.modify sub.id fun lane => { lane with buffer := rest }
      (s.settlePoison sub delivery (sub.messageId delivery) error.message, true)

def dispatchOnce : State × Bool :=
  match s.sourceErrors with
  | error :: rest =>
    if s.handoffFull settings then (s, false)
    else ({ s with
      queue := s.queue ++ [.failure error]
      errorItems := s.errorItems + 1
      sourceErrors := rest }, true)
  | [] =>
    match s.scheduler.pick with
    | none => (s, false)
    | some (id, scheduler) =>
      let s := { s with scheduler }
      match (s.lanes id).buffer, settings.runtime id with
      | [], _ => ({ s with scheduler := s.scheduler.markEmpty id }, false)
      | _ :: _, none => ({ s with scheduler := s.scheduler.markReady id }, false)
      | delivery :: rest, some sub => s.dispatchDelivery settings sub delivery rest

/-- A pass that goes on takes an error or a delivery, so this many passes end the loop. -/
def dispatchBound : Nat :=
  s.sourceErrors.length + (settings.subscriptions.map fun sub => (s.lanes sub.id).buffer.length).sum + 1

def dispatchLoop : Nat → State → State
  | 0, s => s
  | passes + 1, s =>
    match s.dispatchOnce settings with
    | (next, true) => dispatchLoop passes next
    | (next, false) => next

def drainParked (s : State) : List (String × Delivery) → State
  | [] => { s with parked := [] }
  | (id, delivery) :: rest =>
    match settings.runtime id with
    | none => drainParked { s with parked := rest } rest
    | some sub =>
      if sub.overBudget (s.lanes sub.id) delivery.size then
        if sub.oversized delivery.size then
          drainParked ({ s with parked := rest }.settleOversized sub delivery) rest
        else { s with parked := (id, delivery) :: rest }
      else drainParked ({ s with parked := rest }.enroll sub delivery) rest

def drainPending : State := s.drainParked settings s.parked

def dispatch : State :=
  let s := s.drainPending settings
  s.dispatchLoop settings (s.dispatchBound settings)

def dispatchStockDrained : Bool :=
  settings.subscriptions.all (fun sub => (s.lanes sub.id).buffer.isEmpty) &&
    s.queue.length ≤ s.errorItems

def flushAcked : State := { s with lanes := fun id => (s.lanes id).flushAcked }

def handleDelivery (sub : Subscription) (delivery : Delivery) : State :=
  let s := s.modify sub.id fun lane => lane.receive delivery
  if sub.overBudget (s.lanes sub.id) delivery.size then
    if sub.oversized delivery.size then s.settleOversized sub delivery
    else { s with parked := s.parked ++ [(sub.id, delivery)] }.recordBackpressure
  else if s.parked.isEmpty then (s.enroll sub delivery).dispatch settings
  else
    let s := { s with parked := s.parked ++ [(sub.id, delivery)] }
    (s.drainPending settings).dispatch settings

/-- Pumps exist for the actor's own subscriptions only. -/
def handleIncoming (id : String) (result : Except TransportError Delivery) : State :=
  match result, settings.runtime id with
  | .ok delivery, some sub => s.handleDelivery settings sub delivery
  | .ok _, none => s
  | .error error, _ =>
    (s.recordSourceError { kind := .transport, message := error.message }).dispatch settings

end

def refuse (id : String) (tag : Nat) (kind : ConsumerErrorKind) (message : String) : State :=
  s.recordSettlementError { tag, subscription := id, kind, message }

def settling (id : String) (tag : Nat) : Bool := ((s.lanes id).tokens tag).any (·.settling)

def refuseSettling (id : String) (tag : Nat) : State :=
  s.refuse id tag .alreadySettling "delivery is already being settled"

def handleSettle (id : String) (tag : Nat) (settlement : Settlement) : State :=
  if s.settling id tag then s.refuseSettling id tag
  else
    match settlement with
    | .ack => s.modify id fun lane => lane.acceptAck tag
    | .release _ | .reject _ => s.modify id fun lane => lane.acceptSettlement tag settlement

/-- The tokens of a ledger carry the identity of their own channel, so the filter by generation
keeps all of them and the fence lets every token of this set pass. -/
def handleSettleThrough (id : String) (tag : Nat) : State :=
  if ((s.lanes id).tokens tag).any (·.state != .pending) then
    s.refuse id tag .alreadySettled "settle-through target is already settled or terminal"
  else if s.settling id tag then s.refuseSettling id tag
  else if tag ≤ (s.lanes id).ledger.ackedPrefix then
    s.refuse id tag .alreadySettled "settle-through target is at or below the already-settled prefix"
  else
    match (s.lanes id).validatePrefix tag with
    | .error error => s.refuse id tag error.kind error.message
    | .ok [] => s.refuse id tag .staleGeneration "settle-through staged no token of the live generation"
    | .ok affected => s.modify id fun lane => lane.acceptThrough { target := tag, affected }

def handleSettleForeign (settings : Settings) (token : ForeignToken) : State :=
  if token.state ≠ .pending then
    s.refuse token.subscription token.tag .alreadySettled
      "settle-through target is already settled or terminal"
  else if (settings.runtime token.subscription).isNone then
    s.refuse token.subscription token.tag .invalidSubscription
      "delivery references an unknown subscription"
  else if token.settling then s.refuseSettling token.subscription token.tag
  else s.refuse token.subscription token.tag .staleGeneration
    "delivery belongs to a stale connection generation or channel"

def handleCommand (settings : Settings) : Command → State
  | .settle id tag settlement => s.handleSettle id tag settlement
  | .settleThrough id tag => s.handleSettleThrough id tag
  | .settleForeign token => s.handleSettleForeign settings token
  | .prefetchStats => s

/-! ### Completions -/

def isTerminal : Outcome → Bool
  | .ok _ => true
  | .error error =>
    match error.kind with
    | .staleGeneration | .transport | .maxAttempts | .invalidDelay => true
    | _ => false

def recordOutcome : Outcome → State
  | .ok .acked => s.recordAck
  | .ok .rejected => s.recordReject
  | _ => s

def concludeSettlement (sub : Subscription) (tag : Nat) (result : Outcome) : State :=
  match result with
  | .ok terminal => s.modify sub.id fun lane => lane.setState tag terminal
  | .error error =>
    match error.kind with
    | .staleGeneration | .transport =>
      (s.modify sub.id fun lane => lane.setState tag .lost).refuse sub.id tag error.kind error.message
    | .maxAttempts | .invalidDelay =>
      let (frame, terminal) := spawnPoisonSettlement sub.hasDeadLetter tag
      let s := s.modify sub.id fun lane => (lane.spawn frame).setState tag terminal
      (s.recordPoison sub.hasDeadLetter).refuse sub.id tag error.kind
        (poisonSettlementMessage error.message
          ((((s.lanes sub.id).tokens tag).map (·.item.id)).getD "") sub.hasDeadLetter)
    | _ =>
      (s.modify sub.id fun lane => lane.setState tag .pending).refuse sub.id tag error.kind error.message

section

variable (settings : Settings)

/-- The completion arm of a settlement. The ledger entry goes after the freed bytes were used. -/
def completeSettlement (sub : Subscription) (index tag : Nat)
    (result : Outcome) : State :=
  let s := s.modify sub.id fun lane => lane.retireSettlement index
  let s := if isTerminal result then
      let s := (s.recordOutcome result).modify sub.id fun lane => lane.releaseBytes (lane.sizeOf tag)
      ((s.drainPending settings).dispatch settings).modify sub.id fun lane => lane.settle tag
    else s
  let s := (s.modify sub.id fun lane => lane.setSettling tag false).concludeSettlement sub tag result
  s.modify sub.id fun lane => lane.drainSettlementQueue

/-- A cumulative acknowledgement ends acknowledged, or with a transport error. -/
def throughState : Outcome → DeliveryState
  | .ok state => state
  | .error error =>
    match error.kind with
    | .staleGeneration | .transport => .lost
    | _ => .pending

def throughTerminal : Outcome → Bool
  | .ok _ => true
  | .error error =>
    match error.kind with
    | .staleGeneration | .transport => true
    | _ => false

def throughAcked : Outcome → Bool
  | .ok .acked => true
  | _ => false

def refuseThrough (id : String) (through : Through) : Outcome → State
  | .ok _ => s
  | .error error => s.refuse id through.target error.kind error.message

def completeSettleThrough (sub : Subscription) (index : Nat) (through : Through)
    (result : Outcome) : State :=
  let s := s.modify sub.id fun lane => lane.retireSettleThrough index
  let s := if throughTerminal result then
      let s := s.modify sub.id fun lane => lane.releaseAffected through.affected
      let s := if throughAcked result && !through.affected.isEmpty then s.recordAck else s
      ((s.drainPending settings).dispatch settings).modify sub.id fun lane =>
        lane.settleThrough through (throughAcked result)
    else s
  let s := s.modify sub.id fun lane => lane.markAffected through.affected (throughState result)
  (s.refuseThrough sub.id through result).modify sub.id fun lane => lane.drainSettlementQueue

end

/-- The completion arm of `close_set`: the token and the queues, without the bookkeeping of a
consumer that stays open. -/
def closeSettlement (sub : Subscription) (index tag : Nat)
    (result : Outcome) : State :=
  let s := s.modify sub.id fun lane => lane.retireSettlement index
  let s := match result with
    | .ok terminal => s.modify sub.id fun lane => lane.setState tag terminal
    | .error error =>
      (s.modify sub.id fun lane => lane.setState tag .lost).refuse sub.id tag error.kind error.message
  s.modify sub.id fun lane => ((lane.setSettling tag false).recordSettled [tag]).drainSettlementQueue

def closeSettleThrough (sub : Subscription) (index : Nat) (through : Through)
    (result : Outcome) : State :=
  let s := s.modify sub.id fun lane => lane.retireSettleThrough index
  let final := match result with
    | .ok terminal => terminal
    | .error _ => .lost
  let s := s.modify sub.id fun lane =>
    (lane.markAffected through.affected final).recordSettled through.affected
  (s.refuseThrough sub.id through result).modify sub.id fun lane => lane.drainSettlementQueue

def dropFutures : State :=
  { s with lanes := fun id => { s.lanes id with pendingSettlements := [], pendingSettleThroughs := [] } }

end State

inductive Event where
  -- the broker and the pumps
  | deliver (id : String) (delivery : Delivery)
  | sourceFailed (id : String) (error : TransportError)
  -- the embedder
  | pop
  | wake
  | claim (id : String) (tag : Nat) (settlement : Settlement)
  | send (index : Nat)
  | settleThrough (id : String) (tag : Nat)
  | settleForeign (token : ForeignToken)
  | prefetchStats
  | drainErrors
  | close
  -- the actor
  | control
  | controlDry
  | incoming
  | incomingDry
  | notified
  | tick
  | settled (id : String) (index : Nat)
  | throughSettled (id : String) (index : Nat)
  | closing
  | expire
  -- the futures the actor polls, and the spawned tasks
  | publish (id : String) (index : Nat) (answer : Except PublishError Unit)
  | published (id : String) (index : Nat) (answer : Except PublishError Bool)
  | perform (id : String) (index : Nat) (answer : Except TransportError Unit)
  | performThrough (id : String) (index : Nat) (answer : Except TransportError Unit)
  | runTask (id : String) (index : Nat) (answer : Except TransportError Unit)

namespace State

variable (s : State)

def enqueue (command : Command) : Option State :=
  if s.stage = .closed ∨ commandCapacity ≤ s.control.length then none
  else some { s with control := s.control ++ [command] }

/-- `try_settle` after its compare-and-swap: a full channel gives the token back, a closed one
loses it. -/
def finishSend (sending : Sending) : State :=
  if s.stage = .closed then s.modify sending.id fun lane => lane.setState sending.tag .lost
  else if commandCapacity ≤ s.control.length then
    s.modify sending.id fun lane => lane.setState sending.tag .pending
  else { s with control := s.control ++ [.settle sending.id sending.tag sending.settlement] }

def holds (id : String) (tag : Nat) : Bool := s.popped.any fun item => item.subscription == id && item.tag == tag

/-- A select arm other than the close signal goes back to the top of the loop. -/
def afterArm : State := if s.stage = .select then { s with stage := .control } else s

end State

def answerState (success : DeliveryState) : Except TransportError Unit → Outcome
  | .ok () => .ok success
  | .error error => .error { kind := .transport, message := error.message }

def reached : Except TransportError Unit → Bool
  | .ok () => true
  | .error _ => false

def Lane.setProgress (lane : Lane) (index : Nat) (future : SettlementFuture) (progress : Progress) : Lane :=
  { lane with pendingSettlements := lane.pendingSettlements.set index { future with progress } }

def Lane.setResult (lane : Lane) (index : Nat) (future : ThroughFuture)
    (result : Outcome) : Lane :=
  let finished := { future with result := some result }
  { lane with pendingSettleThroughs := lane.pendingSettleThroughs.set index finished }

def publishFailed (error : PublishError) : Outcome :=
  .error { kind := .publish, message := error.message }

def Frame.outcome : Frame → DeliveryState
  | .ack _ _ => .acked
  | .reject _ _ => .rejected

section

variable (sha256 : Bytes → Bytes) (settings : Settings)

def startRelease (sub : Subscription) (token : Item) (delay : Duration)
    (answer : Except PublishError Unit) : Progress :=
  match sub.delayedProperties sha256 token delay, answer with
  | .error error, _ => .finished (.error error)
  | .ok _, .error error => .finished (publishFailed error)
  | .ok _, .ok () => .publishing

def finishRelease : Except PublishError Bool → Progress
  | .ok true => .confirmed
  | .ok false => .finished (.error { kind := .publish, message := "delayed release was not confirmed" })
  | .error error => .finished (publishFailed error)

@[simp] def step (s : State) : Event → Option State
  | .deliver id delivery =>
    (settings.runtime id).bind fun sub =>
      if delivery.tag = (s.lanes id).lastTag + 1 then
        let s : State := { s with incoming := s.incoming ++ [(id, .ok delivery)] }
        some (s.modify id fun lane => { lane with
          lastTag := delivery.tag
          outstanding := if sub.noAck then lane.outstanding else lane.outstanding ++ [delivery.tag] })
      else none
  | .sourceFailed id error => some { s with incoming := s.incoming ++ [(id, .error error)] }
  | .pop =>
    match s.queue with
    | [] => none
    | .delivery item :: rest =>
      some { s with queue := rest, popped := s.popped ++ [item], notified := true }
    | .failure _ :: rest => some { s with queue := rest, notified := true }
  | .wake => some { s with notified := true }
  | .claim id tag settlement =>
    if s.holds id tag ∧ ((s.lanes id).tokens tag).any (·.state == .pending) then
      let s : State := { s with sending := s.sending ++ [⟨id, tag, settlement⟩] }
      some (s.modify id fun lane => lane.setState tag settlement.terminal)
    else none
  | .send index =>
    s.sending[index]?.map fun sending =>
      { s with sending := s.sending.eraseIdx index }.finishSend sending
  | .settleThrough id tag => if s.holds id tag then s.enqueue (.settleThrough id tag) else none
  | .settleForeign token =>
    -- a token of this set's own channels is not foreign
    if (settings.runtime token.subscription).any (·.identity == token.identity) then none
    else s.enqueue (.settleForeign token)
  | .prefetchStats => s.enqueue .prefetchStats
  | .drainErrors => some { s with errors := [] }
  | .close => some { s with closeRequested := true }
  | .control =>
    match s.stage, s.control with
    | .control, command :: rest | .select, command :: rest | .sweeping, command :: rest =>
      some ({ s with control := rest }.handleCommand settings command).afterArm
    | _, _ => none
  | .controlDry =>
    match s.stage, s.control with
    | .control, [] => some { s with stage := .incoming }
    | .sweeping, [] => some { s.flushAcked with stage := .draining }
    | _, _ => none
  | .incoming =>
    match s.stage, s.incoming with
    | .incoming, (id, result) :: rest | .select, (id, result) :: rest =>
      if s.parked.length < settings.pendingCapacity then
        some ({ s with incoming := rest }.handleIncoming settings id result).afterArm
      else none
    | _, _ => none
  | .incomingDry =>
    -- the pumps may not have forwarded what the broker sent
    if s.stage = .incoming then
      let s := if s.dispatchStockDrained settings then s.flushAcked else s
      some { s with stage := .select }
    else none
  | .notified =>
    if s.stage = .select ∧ s.notified then some ({ s with notified := false }.dispatch settings).afterArm
    else none
  | .tick => if s.stage = .select then some s.afterArm else none
  | .settled id index =>
    (settings.runtime id).bind fun sub =>
      (s.lanes id).pendingSettlements[index]?.bind fun future =>
        match future.progress, s.stage with
        | .finished result, .select =>
          some (s.completeSettlement settings sub index future.tag result).afterArm
        | .finished result, .draining => some (s.closeSettlement sub index future.tag result)
        | _, _ => none
  | .throughSettled id index =>
    (settings.runtime id).bind fun sub =>
      (s.lanes id).pendingSettleThroughs[index]?.bind fun future =>
        match future.result, s.stage with
        | some result, .select =>
          some (s.completeSettleThrough settings sub index future.through result).afterArm
        | some result, .draining => some (s.closeSettleThrough sub index future.through result)
        | _, _ => none
  | .closing => if s.stage = .select ∧ s.closeRequested then some { s with stage := .sweeping } else none
  | .expire => if s.stage = .draining then some { s.dropFutures with stage := .closed } else none
  | .publish id index answer =>
    (settings.runtime id).bind fun sub =>
      (s.lanes id).pendingSettlements[index]?.bind fun future =>
        match future.progress, future.settlement, (s.lanes id).tokens future.tag with
        | .started, .release delay, some token =>
          if s.stage.polls ∧ delay ≠ .zero then
            some (s.modify id fun lane =>
              lane.setProgress index future (startRelease sha256 sub token.item delay answer))
          else none
        | _, _, _ => none
  | .published id index answer =>
    (s.lanes id).pendingSettlements[index]?.bind fun future =>
      match future.progress with
      | .publishing =>
        if s.stage.polls then
          some (s.modify id fun lane =>
            let lane := if finishRelease answer matches .confirmed then lane.chooseAck [future.tag] else lane
            lane.setProgress index future (finishRelease answer))
        else none
      | _ => none
  | .perform id index answer =>
    (s.lanes id).pendingSettlements[index]?.bind fun future =>
      future.frame.bind fun frame =>
        if s.stage.polls then
          some (s.modify id fun lane =>
            (lane.transmit frame (reached answer)).setProgress index future
              (.finished (answerState frame.outcome answer)))
        else none
  | .performThrough id index answer =>
    (s.lanes id).pendingSettleThroughs[index]?.bind fun future =>
      match future.result with
      | none =>
        if s.stage.polls then
          some (s.modify id fun lane =>
            (lane.transmit (.ack future.through.target true) (reached answer)).setResult index future
              (answerState .acked answer))
        else none
      | some _ => none
  | .runTask id index answer =>
    (s.lanes id).tasks[index]?.bind fun frame =>
      -- the channels are closed with the actor
      if s.stage = .closed ∧ reached answer then none
      else some (s.modify id fun lane =>
        { lane.transmit frame (reached answer) with tasks := lane.tasks.eraseIdx index })

def machine : Machine State Event where
  Initial s := s = { scheduler := settings.initialScheduler }
  step := step sha256 settings

end

def jobs : Subscription where
  id := "jobs"
  identity := ⟨⟨[]⟩, 1, 1⟩
  queue := "jobs"
  prefetch := .fixed 16
  weight := 1
  earlyAck := false
  noAck := false
  maxBufferedBytes := 1024
  maxAttempts := some 1
  hasDeadLetter := true
  delayStrategy := none
  destination := none

def single (sub : Subscription) (early : sub.noAck = true → sub.earlyAck = true) : Settings where
  subscriptions := [sub]
  named := List.nodup_singleton _
  noAck_early := fun _ member acked => by
    obtain rfl := List.mem_singleton.mp member
    exact early acked

def jobsOnly : Settings := single jobs nofun

def mailAndLogs : Settings where
  subscriptions := [{ jobs with id := "mail", weight := 3, maxBufferedBytes := 10 }, { jobs with id := "logs" }]
  named := by decide
  noAck_early := by decide

def arrivals (deliveries : List Delivery) (popped : Nat) : List Event :=
  deliveries.map (.deliver "jobs") ++ .controlDry :: deliveries.map (fun _ => .incoming) ++
    .incomingDry :: List.replicate popped .pop

def deciding (tag : Nat) (settlement : Settlement) : List Event := [.claim "jobs" tag settlement, .send 0]

def handling (commands : Nat) : List Event := List.replicate commands .control ++ [.controlDry, .incomingDry]

end RabbitRs.Consumer
