import RabbitRs.Topology.Delay

/-!
Delay routing of a publication (`publisher/delay.rs`): the single routing point the publisher
actor and the blind pump share, and the lazy declaration of what it routes through.
-/

namespace RabbitRs

structure MessageProperties where
  messageId : String
  contentType : Option String := none
  correlationId : Option String := none
  delayMs : Option UInt64 := none
  headers : Headers := []

/-- `deadline` is an instant of the process clock, in nanoseconds. -/
structure PublishRequest where
  destination : Destination
  payload : Bytes
  properties : MessageProperties
  deadline : Nat

inductive PublishErrorKind where
  | backpressure | nack | timeout | unconfirmed | transport | closed | invalidRequest
  deriving DecidableEq

structure PublishError where
  kind : PublishErrorKind
  message : String
  transportSource : Option TransportError := none
  deriving DecidableEq

def PublishError.fromTransport (error : TransportError) : PublishError :=
  { kind := .transport, message := error.message, transportSource := some error }

structure DelayedRoute where
  exchange : String
  routingKey : String
  delayMs : UInt64
  queue : Option QueueSpec

def PublishRequest.delay (request : PublishRequest) : UInt64 := request.properties.delayMs.getD 0

section Routing

variable (sha256 : Bytes → Bytes)

/-- `DelayRouter::route`; the delay is an `i64`. -/
def routeDelay (strategy : DelayStrategy) (destination : Destination) (delayMs : Int) :
    Except DelayError DelayedRoute :=
  if delayMs < 0 then .error ⟨"delay cannot be negative"⟩
  else
    let ms := delayMs.toNat.toUInt64
    match strategy with
    | .plugin => .ok {
        exchange := delayedExchangeName destination.exchange
        routingKey := destination.routingKey
        delayMs := ms
        queue := none }
    | .ttlBuckets plan => do
        let queue ← plan.queueFor sha256 destination (.fromMillis ms)
        return { exchange := "", routingKey := queue.name, delayMs := ms, queue := some queue }

def routeRequested (strategy : DelayStrategy) (request : PublishRequest) : Except PublishError DelayedRoute :=
  match routeDelay sha256 strategy request.destination (clampI64 request.delay) with
  | .ok route => .ok route
  | .error error => .error { kind := .invalidRequest, message := error.message }

def transportPublish (request : PublishRequest) (exchange routingKey : String) (delayMs : Option UInt64)
    (mandatory : Bool) : TransportPublish where
  exchange := exchange
  routingKey := routingKey
  payload := request.payload
  mandatory := mandatory
  properties := {
    contentType := request.properties.contentType
    correlationId := request.properties.correlationId
    messageId := some request.properties.messageId
    delayMs := delayMs
    headers := request.properties.headers
    persistent := true }

def routeTransportRequest (request : PublishRequest) (strategy : Option DelayStrategy) (mandatory : Bool) :
    Except PublishError TransportPublish :=
  if request.delay = 0 then
    .ok (transportPublish request request.destination.exchange request.destination.routingKey
      request.properties.delayMs mandatory)
  else
    match strategy with
    | none => .error {
        kind := .invalidRequest
        message := "delay_ms is set but no delay strategy is configured" }
    | some strategy => do
        let route ← routeRequested sha256 strategy request
        let delayMs := if route.queue.isNone then some route.delayMs else none
        -- the plugin defers routing, so a plugin-delayed publish cannot be mandatory
        return transportPublish request route.exchange route.routingKey delayMs
          (mandatory && delayMs.isNone)

theorem routeRequested_ok {strategy : DelayStrategy} {request : PublishRequest} {route : DelayedRoute} :
    routeRequested sha256 strategy request = .ok route ↔
      routeDelay sha256 strategy request.destination (clampI64 request.delay) = .ok route := by
  unfold routeRequested
  split <;> simp_all

theorem routeTransportRequest_delayed {request : PublishRequest} {strategy : DelayStrategy}
    {mandatory : Bool} {write : TransportPublish} (delayed : request.delay ≠ 0) :
    routeTransportRequest sha256 request (some strategy) mandatory = .ok write ↔
      ∃ route, routeRequested sha256 strategy request = .ok route ∧
        write = transportPublish request route.exchange route.routingKey
          (if route.queue.isNone then some route.delayMs else none)
          (mandatory && (if route.queue.isNone then some route.delayMs else none).isNone) := by
  simp only [routeTransportRequest, if_neg delayed, bind_ok, pure, Except.pure, Except.ok.injEq,
    @eq_comm _ write]

theorem clampI64_cast (ms : UInt64) : ((clampI64 ms : Int).toNat.toUInt64).toNat = clampI64 ms := by
  have bound : clampI64 ms < 2 ^ 64 := by
    unfold clampI64 i64Max
    omega
  simpa using Nat.mod_eq_of_lt bound

def RouteShape (destination : Destination) (route : DelayedRoute) : DelayStrategy → Prop
  | .plugin => route.exchange = delayedExchangeName destination.exchange ∧
      route.routingKey = destination.routingKey ∧ route.queue = none
  | .ttlBuckets plan => ∃ bucket, plan.bucketFor (.fromMillis route.delayMs) = .ok bucket ∧
      route.queue = some (plan.delayQueueSpec sha256 destination bucket) ∧
      route.exchange = "" ∧ route.routingKey = plan.stableQueueName sha256 destination bucket

theorem routeDelay_ok {strategy : DelayStrategy} {destination : Destination} {ms : UInt64}
    {route : DelayedRoute} (ok : routeDelay sha256 strategy destination (clampI64 ms) = .ok route) :
    route.delayMs.toNat = clampI64 ms ∧ RouteShape sha256 destination route strategy := by
  have positive : ¬((clampI64 ms : Int) < 0) := by omega
  unfold routeDelay at ok
  rw [if_neg positive] at ok
  cases strategy with
  | plugin =>
    obtain rfl := Except.ok.inj ok
    exact ⟨clampI64_cast ms, rfl, rfl, rfl⟩
  | ttlBuckets plan =>
    simp only [bind_ok, TtlBucketPlan.queueFor_ok, pure, Except.pure, Except.ok.injEq] at ok
    obtain ⟨_, ⟨bucket, found, rfl⟩, rfl⟩ := ok
    exact ⟨clampI64_cast ms, bucket, found, rfl, rfl, rfl⟩

theorem routeRequested_shape {strategy : DelayStrategy} {request : PublishRequest} {route : DelayedRoute}
    (routed : routeRequested sha256 strategy request = .ok route) :
    route.delayMs.toNat = clampI64 request.delay ∧ RouteShape sha256 request.destination route strategy :=
  routeDelay_ok sha256 ((routeRequested_ok sha256).mp routed)

inductive Declaration where
  | exchange (spec : ExchangeSpec)
  | queue (spec : QueueSpec)

def Declaration.name : Declaration → String
  | .exchange spec => spec.name
  | .queue spec => spec.name

def DelayedRoute.infrastructure (route : DelayedRoute) : Declaration :=
  match route.queue with
  | none => .exchange (delayedExchangeSpec route.exchange)
  | some spec => .queue spec

/-- The declaration `ensure_delay_topology` still has to send, if any. -/
def missingTopology (strategy : DelayStrategy) (request : PublishRequest) (declared : List String) :
    Except PublishError (Option Declaration) := do
  let route ← routeRequested sha256 strategy request
  return if declared.contains route.infrastructure.name then none else some route.infrastructure

/-- What a publisher declares before it writes; the actor and the pump ask for it under the same
guard. -/
def ensureDelayTopology (strategy : Option DelayStrategy) (request : PublishRequest)
    (declared : List String) : Except PublishError (Option Declaration) :=
  match strategy with
  | none => .ok none
  | some strategy =>
    if request.delay = 0 then .ok none else missingTopology sha256 strategy request declared

/-- A refused declaration fails the one publication, never the publisher. -/
def refusedTopology (error : TransportError) : PublishError :=
  { kind := .transport, message := error.message }

end Routing

end RabbitRs
