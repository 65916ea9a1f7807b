import Mathlib.Data.List.Sort
import RabbitRs.Transport

/-!
Configuration and its validation (`config.rs`): the checks in the order the source makes them,
each with its path and message, and the canonical order the accepted value is put in.
-/

namespace RabbitRs

structure ConfigError where
  path : String
  message : String
  deriving DecidableEq

structure Endpoint where
  host : String
  port : UInt16
  deriving DecidableEq

def Endpoint.le (a b : Endpoint) : Bool :=
  a.host < b.host || (a.host = b.host && a.port ≤ b.port)

structure Credentials where
  username : String
  password : String
  deriving DecidableEq

inductive TlsVerify where
  | peer
  deriving DecidableEq

structure TlsConfig where
  enabled : Bool := false
  caCert : Option String := none
  clientCert : Option String := none
  clientKey : Option String := none
  verify : TlsVerify := .peer
  serverName : Option String := none
  deriving DecidableEq

structure BrokerConfig where
  name : String
  hosts : List Endpoint
  vhost : String
  credentials : Credentials
  tls : TlsConfig := {}
  heartbeat : Duration
  deriving DecidableEq

inductive PrefetchConfig where
  | fixed (value : UInt16)
  | adaptive (initial min max : UInt16) (targetBuffer : Duration)
  deriving DecidableEq

def PrefetchConfig.ceiling : PrefetchConfig → UInt16
  | .fixed value => value
  | .adaptive _ _ max _ => max

structure SubscriptionConfig where
  name : String
  broker : String
  queue : String
  weight : UInt16
  prefetch : PrefetchConfig
  maxBufferedBytes : UInt64 := 64 * 1024 * 1024
  earlyAck : Bool := false
  noAck : Bool := false
  deriving DecidableEq

inductive SchedulerStrategy where
  | weightedFair
  deriving DecidableEq

/-- `max_in_flight` is read and ignored. -/
structure SchedulerConfig where
  strategy : SchedulerStrategy
  maxInFlight : Option UInt16 := none
  deriving DecidableEq

def SchedulerConfig.weightedFair : SchedulerConfig := { strategy := .weightedFair }

structure WorkerProfile where
  name : String
  subscriptions : List SubscriptionConfig
  scheduler : SchedulerConfig
  deriving DecidableEq

inductive TopologyMode where
  | declare | verify | external
  deriving DecidableEq

inductive DelayMode where
  | auto | plugin | ttl
  deriving DecidableEq

structure DelayConfig where
  mode : DelayMode := .auto
  buckets : List Duration := [.fromSecs 1, .fromSecs 5, .fromSecs 30, .fromSecs 120]
  maxBuckets : UInt64 := 8
  queueExpiryMargin : Duration := .fromSecs 60
  deriving DecidableEq

structure DeadLetterConfig where
  enabled : Bool
  exchange : String
  queue : String
  routingKey : Option String
  deriving DecidableEq

inductive SafetyMode where
  | blind
  /-- Written `Unsafe` in the source; the word is reserved here. -/
  | unconfirmed
  | safe
  deriving DecidableEq

structure PublisherConfigSection where
  safety : SafetyMode := .safe
  confirms : Bool := true
  mandatory : Bool := true
  confirmTimeout : Duration := .fromSecs 30
  flushInterval : Duration := .fromMillis 1
  deriving DecidableEq

structure ConsumerConfigSection where
  waitTimeout : Duration := .fromSecs 30
  maxAttempts : Option UInt32 := some 20
  deriving DecidableEq

structure RouteConfig where
  broker : String
  exchange : String
  routingKey : String := "\x7bqueue\x7d"
  deriving DecidableEq

/-- `routes` is a `BTreeMap`, so it is listed in key order. -/
structure Config where
  brokers : List BrokerConfig
  workers : List WorkerProfile
  topologyMode : TopologyMode
  routes : List (String × RouteConfig) := []
  delay : DelayConfig := {}
  deadLetter : Option DeadLetterConfig := none
  deliveryLimit : Option UInt32 := none
  publisher : PublisherConfigSection := {}
  consumer : ConsumerConfigSection := {}
  queueType : QueueKind := .quorum
  queueDurable : Bool := true
  deriving DecidableEq

def refuse (bad : Bool) (path message : String) : Except ConfigError Unit :=
  if bad then .error ⟨path, message⟩ else .ok ()

theorem refuse_ok {bad : Bool} {path message : String} {done : Unit} :
    refuse bad path message = .ok done ↔ bad = false := by
  cases bad <;> simp [refuse]

theorem bind_ok {ε α β : Type} {x : Except ε α} {f : α → Except ε β} {r : β} :
    (x >>= f) = .ok r ↔ ∃ a, x = .ok a ∧ f a = .ok r := by
  cases x <;> simp [bind, Except.bind]

def validateUnique (path : String → String) (message : String) :
    List String → List String → Except ConfigError Unit
  | _, [] => .ok ()
  | seen, name :: rest => do
      refuse (seen.contains name) (path name) message
      validateUnique path message (name :: seen) rest

def validateUniqueBrokerNames (brokers : List BrokerConfig) : Except ConfigError Unit :=
  validateUnique ("brokers." ++ ·) "broker name must be unique" [] (brokers.map (·.name))

def validateUniqueWorkerNames (workers : List WorkerProfile) : Except ConfigError Unit :=
  validateUnique ("workers." ++ ·) "worker name must be unique" [] (workers.map (·.name))

/-- A `server_name` other than the first sorted host is refused, not ignored. -/
def validateBrokerTls (broker : BrokerConfig) : Except ConfigError Unit :=
  let firstHost := (broker.hosts.head?.map (·.host)).getD ""
  match broker.tls.serverName with
  | some serverName =>
      refuse (broker.tls.enabled && serverName != firstHost)
        ("brokers." ++ broker.name ++ ".tls.server_name")
        ("'" ++ serverName ++ "' overrides the TLS server name, which the AMQP transport "
          ++ "(lapin 4.10) cannot do: SNI is always the connection host; supported value: '"
          ++ firstHost ++ "'")
  | none => .ok ()

def validateBroker (broker : BrokerConfig) : Except ConfigError BrokerConfig := do
  refuse broker.hosts.isEmpty ("brokers." ++ broker.name ++ ".hosts") "at least one host is required"
  refuse (broker.heartbeat < .fromSecs 1 || .fromSecs 65535 < broker.heartbeat)
    ("brokers." ++ broker.name ++ ".heartbeat")
    "heartbeat must be between 1 and 65535 seconds (AMQP wire limit)"
  let broker := { broker with hosts := broker.hosts.insertionSort (fun a b => a.le b) }
  validateBrokerTls broker
  return broker

def validatePrefetch (base : String) (sub : SubscriptionConfig) : Except ConfigError Unit :=
  match sub.prefetch with
  | .fixed value => refuse (value == 0) base "prefetch must be greater than zero"
  | .adaptive initial min max targetBuffer => do
      refuse (min == 0) (base ++ ".min") "min must be greater than zero"
      refuse (max < min) (base ++ ".max") "max must be greater than or equal to min"
      refuse (initial < min || max < initial) (base ++ ".initial") "initial must be within [min, max]"
      refuse (targetBuffer = .zero) (base ++ ".target_buffer_seconds")
        "target_buffer_seconds must be greater than zero"
      refuse (sub.earlyAck || sub.noAck) (base ++ ".mode")
        "adaptive prefetch requires consumer acknowledgements: early_ack and no_ack must be false"

def validateSubscription (path : String) (brokerNames : List String) (sub : SubscriptionConfig) :
    Except ConfigError Unit := do
  refuse (!brokerNames.contains sub.broker) (path ++ ".broker") "references an unknown broker"
  refuse (sub.weight == 0) (path ++ ".weight") "weight must be greater than zero"
  refuse (sub.maxBufferedBytes == 0) (path ++ ".max_buffered_bytes")
    ("max_buffered_bytes must be greater than zero: zero classifies every delivery as oversized, "
      ++ "which the consumer then acknowledges and discards")
  validatePrefetch (path ++ ".prefetch") sub
  refuse (sub.noAck && !sub.earlyAck) (path ++ ".no_ack")
    ("no_ack requires early_ack: broker-side auto-ack bypasses prefetch, so an unattended consumer "
      ++ "would buffer deliveries without any bound")

def validateSubscriptions (base : String) (brokerNames : List String) :
    List String → List SubscriptionConfig → Except ConfigError Unit
  | _, [] => .ok ()
  | seen, sub :: rest => do
      refuse (seen.contains sub.name) (base ++ sub.name)
        "subscription name must be unique within a worker profile"
      validateSubscription (base ++ sub.name) brokerNames sub
      validateSubscriptions base brokerNames (sub.name :: seen) rest

def validateWorker (brokerNames : List String) (worker : WorkerProfile) : Except ConfigError Unit := do
  refuse worker.subscriptions.isEmpty ("workers." ++ worker.name ++ ".subscriptions")
    "at least one subscription is required"
  validateSubscriptions ("workers." ++ worker.name ++ ".subscriptions.") brokerNames []
    worker.subscriptions

def validateRoutes (brokerNames : List String) : List (String × RouteConfig) → Except ConfigError Unit
  | [] => .ok ()
  | (name, route) :: rest => do
      refuse (!brokerNames.contains route.broker) ("routes." ++ name ++ ".broker")
        "references an unknown broker"
      validateRoutes brokerNames rest

def validateDelay (delay : DelayConfig) : Except ConfigError Unit := do
  refuse delay.buckets.isEmpty "delay.buckets" "at least one TTL bucket is required"
  refuse (delay.maxBuckets.toNat < delay.buckets.length) "delay.buckets"
    ("TTL bucket count " ++ toString delay.buckets.length ++ " exceeds configured maximum "
      ++ toString delay.maxBuckets)
  refuse (delay.buckets.contains .zero) "delay.buckets" "TTL buckets must be greater than zero"

def validateConsumer (consumer : ConsumerConfigSection) : Except ConfigError Unit := do
  refuse (consumer.waitTimeout < .fromSecs 1 || .fromSecs 86400 < consumer.waitTimeout)
    "consumer.wait_timeout" "wait_timeout must be between 1 second and 24 hours"
  refuse (consumer.maxAttempts == some 0) "consumer.max_attempts"
    "max_attempts must be a positive integer"

def validatePublisher (publisher : PublisherConfigSection) : Except ConfigError Unit := do
  refuse (!publisher.mandatory) "publisher.mandatory"
    ("mandatory=false is no longer supported: mandatory routing is part of the safe delivery "
      ++ "guarantee; opt out with publisher.safety = \"unsafe\" or \"blind\" instead")
  refuse (publisher.confirmTimeout < .fromSecs 1) "publisher.confirm_timeout"
    "confirm_timeout must be at least 1 second"
  refuse (.fromSecs 3600 < publisher.flushInterval) "publisher.flush_interval"
    "flush_interval must be at most 1 hour"

/-- `Config::validate` up to the fingerprint: every check, then the canonical order. -/
def Config.canonicalize (config : Config) : Except ConfigError Config := do
  refuse config.brokers.isEmpty "brokers" "at least one broker is required"
  refuse (config.queueType == .quorum && !config.queueDurable) "queue_durable"
    "quorum queues are always durable: set queue_durable=true or queue_type=classic"
  refuse (config.queueType == .classic && config.deliveryLimit.isSome) "delivery_limit"
    "delivery_limit is only supported on quorum queues: remove it or set queue_type=quorum"
  validateUniqueBrokerNames config.brokers
  let brokers ← config.brokers.mapM validateBroker
  let brokers := brokers.insertionSort (fun a b => a.name ≤ b.name)
  let names := brokers.map (·.name)
  validateUniqueWorkerNames config.workers
  let workers ← config.workers.mapM fun worker => do
    validateWorker names worker
    return { worker with
      subscriptions := worker.subscriptions.insertionSort (fun a b => a.name ≤ b.name) }
  let workers := workers.insertionSort (fun a b => a.name ≤ b.name)
  validateRoutes names config.routes
  validateDelay config.delay
  validateConsumer config.consumer
  validatePublisher config.publisher
  return { config with brokers, workers }

/-- A configuration only validation builds: the fields of the source are private to it. -/
structure ValidatedConfig where
  config : Config
  accepted : ∃ raw : Config, raw.canonicalize = .ok config

def Config.validate (raw : Config) : Except ConfigError ValidatedConfig :=
  match accepted : raw.canonicalize with
  | .ok config => .ok ⟨config, raw, accepted⟩
  | .error error => .error error

end RabbitRs
