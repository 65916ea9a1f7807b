import RabbitRs.Topology.Delay

/-!
The topology plan (`topology/plan.rs`): definitions compiled into the specs a generation replays,
the dead-letter pass over them, and the plan a configuration and its requested profiles give.
-/

namespace RabbitRs

structure TopologyPlanError where
  message : String
  deriving DecidableEq

structure QueueDefinition where
  name : String
  kind : QueueKind := .quorum
  durable : Bool := true
  exclusive : Bool := false
  autoDelete : Bool := false
  deliveryLimit : Option UInt32 := none
  arguments : Headers := []

def QueueDefinition.compile (definition : QueueDefinition) : Except TopologyPlanError QueueSpec :=
  if definition.kind = .quorum ∧ (definition.exclusive ∨ definition.autoDelete) then
    .error ⟨"quorum queue '" ++ definition.name ++ "' cannot be exclusive or auto-delete"⟩
  else .ok {
    name := definition.name
    durable := definition.durable
    exclusive := definition.exclusive
    autoDelete := definition.autoDelete
    kind := definition.kind
    deadLetterExchange := none
    deadLetterRoutingKey := none
    messageTtl := none
    expires := none
    deliveryLimit := definition.deliveryLimit
    arguments := definition.arguments }

structure DeadLetterDefinition where
  sourceQueue : String
  exchange : String
  queue : String
  routingKey : String

structure TopologyDefinition where
  exchanges : List ExchangeSpec := []
  queues : List QueueDefinition := []
  bindings : List BindingSpec := []
  deadLetters : List DeadLetterDefinition := []

structure TopologyPlan where
  mode : TopologyMode
  exchanges : List ExchangeSpec
  queues : List QueueSpec
  bindings : List BindingSpec
  deriving DecidableEq

/-- The vectors the dead-letter loop of `compile` grows. -/
structure PlanBuild where
  exchanges : List ExchangeSpec
  queues : List QueueSpec
  bindings : List BindingSpec
  seenExchanges : List String := []
  seenDlqs : List String := []

def QueueSpec.deadLetterTo (spec : QueueSpec) (exchange routingKey : String) : QueueSpec :=
  { spec with deadLetterExchange := some exchange, deadLetterRoutingKey := some routingKey }

/-- `iter_mut().find(..)` on the source queue: only the first spec of the name is patched. -/
def patchFirst (source exchange routingKey : String) : List QueueSpec → Option (List QueueSpec)
  | [] => none
  | spec :: rest =>
      if spec.name = source then some (spec.deadLetterTo exchange routingKey :: rest)
      else (patchFirst source exchange routingKey rest).map (spec :: ·)

def directExchangeSpec (name : String) : ExchangeSpec where
  name := name
  kind := .direct
  durable := true
  autoDelete := false
  internal := false
  arguments := []

def PlanBuild.deadLetter (build : PlanBuild) (dl : DeadLetterDefinition) :
    Except TopologyPlanError PlanBuild := do
  let queues ← match patchFirst dl.sourceQueue dl.exchange dl.routingKey build.queues with
    | some queues => .ok queues
    | none => .error ⟨"dead-letter source queue '" ++ dl.sourceQueue ++ "' is not defined"⟩
  let fresh := !build.seenExchanges.contains dl.exchange
  let exchanges := if fresh then build.exchanges ++ [directExchangeSpec dl.exchange] else build.exchanges
  let seenExchanges := if fresh then dl.exchange :: build.seenExchanges else build.seenExchanges
  let (queues, seenDlqs) ←
    if build.seenDlqs.contains dl.queue then .ok (queues, build.seenDlqs)
    else do
      let dlq ← QueueDefinition.compile { name := dl.queue }
      .ok (queues ++ [dlq], dl.queue :: build.seenDlqs)
  let binding : BindingSpec := ⟨dl.queue, dl.exchange, dl.routingKey⟩
  let bindings :=
    if build.bindings.contains binding then build.bindings else build.bindings ++ [binding]
  return { exchanges, queues, bindings, seenExchanges, seenDlqs }

def TopologyPlan.compile (mode : TopologyMode) (definition : TopologyDefinition) :
    Except TopologyPlanError TopologyPlan := do
  let queues ← definition.queues.mapM QueueDefinition.compile
  let build ← definition.deadLetters.foldlM PlanBuild.deadLetter
    { exchanges := definition.exchanges, queues, bindings := definition.bindings }
  return { mode, exchanges := build.exchanges, queues := build.queues, bindings := build.bindings }

/-- `str::replace` for a non-empty pattern; `skip` counts the pattern characters still to drop. -/
def replaceChars (pattern replacement : List Char) : Nat → List Char → List Char
  | _, [] => []
  | skip + 1, _ :: rest => replaceChars pattern replacement skip rest
  | 0, c :: rest =>
      if pattern.isPrefixOf (c :: rest) then
        replacement ++ replaceChars pattern replacement (pattern.length - 1) rest
      else c :: replaceChars pattern replacement 0 rest

/-- `routing_key.replace("\x7bqueue\x7d", queue)`. -/
def resolveRoutingKey (template queue : String) : String :=
  String.ofList (replaceChars "\x7bqueue\x7d".toList queue.toList 0 template.toList)

def subscriptionsOf (profiles : List WorkerProfile) : List SubscriptionConfig :=
  profiles.flatMap (·.subscriptions)

/-- `x-delivery-limit` is quorum-only. -/
def queueDefinition (config : Config) (queue : String) : QueueDefinition where
  name := queue
  kind := config.queueType
  durable := config.queueDurable
  deliveryLimit := if config.queueType = .quorum then config.deliveryLimit else none

/-- Whether the plan declares the shared delayed exchange and binds every queue to it. -/
def plansDelayedExchange (config : Config) : Bool :=
  match config.topologyMode, DelayStrategy.compile config with
  | .declare, .plugin => true
  | _, _ => false

def delayedBinding (sub : SubscriptionConfig) : BindingSpec :=
  ⟨sub.queue, defaultDelayedExchange, sub.queue⟩

def routeBinding (route : RouteConfig) (sub : SubscriptionConfig) : BindingSpec :=
  ⟨sub.queue, route.exchange, resolveRoutingKey route.routingKey sub.queue⟩

def routeExchanges (routes : List (String × RouteConfig)) : List ExchangeSpec :=
  routes.flatMap fun (_, route) =>
    if route.exchange = "" then [] else [directExchangeSpec route.exchange]

def routeBindings (routes : List (String × RouteConfig)) (subs : List SubscriptionConfig) : List BindingSpec :=
  routes.flatMap fun (_, route) =>
    if route.exchange = "" then []
    else (subs.filter (·.broker = route.broker)).map (routeBinding route)

def deadLetterDefinition (dl : DeadLetterConfig) (queue : String) : DeadLetterDefinition :=
  ⟨queue, dl.exchange, dl.queue, dl.routingKey.getD queue⟩

def profileTopology (config : Config) (subs : List SubscriptionConfig) : TopologyDefinition where
  exchanges :=
    (if plansDelayedExchange config then [delayedExchangeSpec defaultDelayedExchange] else [])
      ++ routeExchanges config.routes
  queues := subs.map fun sub => queueDefinition config sub.queue
  bindings :=
    (if plansDelayedExchange config then subs.map delayedBinding else [])
      ++ routeBindings config.routes subs
  deadLetters :=
    match config.deadLetter with
    | some dl => if dl.enabled then subs.map (fun sub => deadLetterDefinition dl sub.queue) else []
    | none => []

def TopologyPlan.fromProfiles (config : Config) (profiles : List WorkerProfile) : TopologyPlan :=
  match TopologyPlan.compile config.topologyMode (profileTopology config (subscriptionsOf profiles)) with
  | .ok plan => plan
  | .error _ => { mode := .external, exchanges := [], queues := [], bindings := [] }

/-- `from_config_and`: the configured profiles, then the extras. -/
def TopologyPlan.fromConfigAnd (v : ValidatedConfig) (extra : List WorkerProfile) : TopologyPlan :=
  TopologyPlan.fromProfiles v.config (v.config.workers ++ extra)

/-- The extras of a generation: requested profiles the configuration does not name, and only in
declare mode. -/
def generationExtras (v : ValidatedConfig) (requested : List WorkerProfile) : List WorkerProfile :=
  match v.config.topologyMode with
  | .declare => requested.filter fun worker => !v.config.workers.any (·.name = worker.name)
  | _ => []

def generationPlan (v : ValidatedConfig) (requested : List WorkerProfile) : TopologyPlan :=
  TopologyPlan.fromConfigAnd v (generationExtras v requested)

end RabbitRs
