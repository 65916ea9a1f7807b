import RabbitRs.Publisher.DelayRoute
import RabbitRs.Topology.Conflict

/-!
Where a delayed release ends up. The coordinator gives every subscription the destination (queue,
queue), and the publisher routes the release through the delay strategy.
-/

namespace RabbitRs

/-- `Destination::new(queue, queue)`, as `establish_requested_profile` builds it. -/
def releaseDestination (sub : SubscriptionConfig) : Destination := ⟨sub.queue, sub.queue⟩

/-- The exchange and key the broker routes by when the delay is over: those of the write itself on
a delayed exchange, the dead-letter ones of a delay queue. -/
def DelayedRoute.returnAddress (route : DelayedRoute) : Destination :=
  match route.queue with
  | none => ⟨route.exchange, route.routingKey⟩
  | some spec => ⟨spec.deadLetterExchange.getD "", spec.deadLetterRoutingKey.getD route.routingKey⟩

def DelayedRoute.lazyExchanges (route : DelayedRoute) : List ExchangeSpec :=
  match route.infrastructure with
  | .exchange spec => [spec]
  | .queue _ => []

def TopologyPlan.Accepts (plan : TopologyPlan) : Declaration → Prop
  | .exchange spec => Registry.Accepts ExchangeSpec.name plan.exchanges spec
  | .queue spec => Registry.Accepts QueueSpec.name plan.queues spec

/-- The broker takes the plan, and beside it what the publisher declares before it writes. -/
def Taken (plan : TopologyPlan) (route : DelayedRoute) : Prop :=
  Replays plan ∧ plan.Accepts route.infrastructure

/-- Default-exchange routing by queue name, or direct routing over a declared binding, on a broker that
took all declarations. -/
def ReturnsTo (plan : TopologyPlan) (route : DelayedRoute) (queue : String) : Prop :=
  let address := route.returnAddress
  Taken plan route ∧ ((address.exchange = "" ∧ address.routingKey = queue) ∨
    (address.exchange ∈ (plan.exchanges ++ route.lazyExchanges).map (·.name) ∧
      ⟨queue, address.exchange, address.routingKey⟩ ∈ plan.bindings))

/-- The configuration binds `queue` to `exchange` with the queue's own name as the key, through a
publish route or through the dead-letter section. -/
inductive BindsBack (config : Config) (subs : List SubscriptionConfig) (queue exchange : String) : Prop where
  | route {name : String} {route : RouteConfig} {sub : SubscriptionConfig} :
      (name, route) ∈ config.routes → route.exchange = exchange → exchange ≠ "" → sub ∈ subs →
      sub.queue = queue → sub.broker = route.broker → resolveRoutingKey route.routingKey queue = queue →
      BindsBack config subs queue exchange
  | deadLetter {dl : DeadLetterConfig} {sub : SubscriptionConfig} :
      enabledDeadLetter config = some dl → dl.exchange = exchange → dl.queue = queue → sub ∈ subs →
      dl.routingKey.getD sub.queue = queue → BindsBack config subs queue exchange

/-- When the configuration happens to lead a delayed release back, given that its names are distinct.
Under the plugin strategy the release goes through `queue.delayed`, which the plan binds only if it is
the shared delayed exchange; a route or dead-letter exchange of that name is a direct one, so the broker
refuses the publisher's declaration. Under TTL buckets the release waits in a delay queue, whose name has
to be free, and is dead-lettered to the exchange `queue`, which the plan does not create by itself. -/
def LeadsBack (config : Config) (subs : List SubscriptionConfig) (queue delayQueue : String) : Prop :=
  DistinctNames config subs ∧ match DelayStrategy.compile config with
    | .plugin => queue = "" ∨ queue = "rabbit-rs"
    | .ttlBuckets _ => delayQueue ∉ (plannedQueues config subs).map (·.name) ∧
        (queue = "" ∨ BindsBack config subs queue queue)

variable {config : Config} {subs : List SubscriptionConfig}

theorem plannedBinding_iff {queue exchange : String} (hosted : ∃ sub ∈ subs, sub.queue = queue) :
    PlannedBinding config subs ⟨queue, exchange, queue⟩ ↔
      (plansDelayedExchange config = true ∧ exchange = defaultDelayedExchange) ∨
        BindsBack config subs queue exchange := by
  constructor
  · intro planned
    generalize spelled : (⟨queue, exchange, queue⟩ : BindingSpec) = binding at planned
    cases planned with
    | delayed plans _ =>
      obtain ⟨_, rfl, _⟩ := BindingSpec.mk.inj spelled
      exact .inl ⟨plans, rfl⟩
    | route listed named inside broker =>
      obtain ⟨sameQueue, rfl, key⟩ := BindingSpec.mk.inj spelled
      subst sameQueue
      exact .inr (.route listed rfl named inside rfl broker key.symm)
    | deadLetter on inside =>
      obtain ⟨sameQueue, rfl, key⟩ := BindingSpec.mk.inj spelled
      exact .inr (.deadLetter on rfl sameQueue.symm inside key.symm)
  · rintro (⟨plans, rfl⟩ | back)
    · obtain ⟨sub, inside, rfl⟩ := hosted
      exact .delayed plans inside
    · cases back with
      | route listed same named inside sameQueue broker key =>
        subst same sameQueue
        have planned := PlannedBinding.route listed named inside broker
        rwa [routeBinding, key] at planned
      | deadLetter on same sameQueue inside key =>
        subst same sameQueue
        have planned := PlannedBinding.deadLetter on inside
        rwa [deadLetterBinding, deadLetterKey, key] at planned

theorem BindsBack.direct {queue exchange : String} (back : BindsBack config subs queue exchange) :
    directExchangeSpec exchange ∈ plannedExchanges config subs := by
  apply mem_plannedExchanges.mpr
  cases back with
  | route listed same named _ _ _ _ => exact .inr (.inl ⟨_, _, listed, same ▸ named, same ▸ rfl⟩)
  | deadLetter on same _ inside _ => exact .inr (.inr ⟨_, on, List.ne_nil_of_mem inside, same ▸ rfl⟩)

theorem plannedQueues_expires {spec : QueueSpec} (member : spec ∈ plannedQueues config subs) :
    spec.expires = none := by
  cases on : enabledDeadLetter config with
  | none =>
    rw [plannedQueues_off on] at member
    obtain ⟨_, _, rfl⟩ := List.mem_map.mp member
    rfl
  | some dl =>
    rcases (mem_plannedQueues_on on).mp member with ⟨_, _, rfl⟩ | ⟨_, _, rfl⟩ | ⟨-, rfl⟩ <;> rfl

variable (sha256 : Bytes → Bytes)

def releaseAddress (queue : String) : DelayStrategy → Destination
  | .plugin => ⟨delayedExchangeName queue, queue⟩
  | .ttlBuckets _ => ⟨queue, queue⟩

theorem release_returnAddress {strategy : DelayStrategy} {request : PublishRequest} {route : DelayedRoute}
    {sub : SubscriptionConfig} (target : request.destination = releaseDestination sub)
    (routed : routeRequested sha256 strategy request = .ok route) :
    route.returnAddress = releaseAddress sub.queue strategy := by
  have shape := (routeRequested_shape sha256 routed).2
  rw [target] at shape
  cases strategy with
  | plugin =>
    obtain ⟨exchange, key, queue⟩ := shape
    simp [DelayedRoute.returnAddress, queue, exchange, key, releaseDestination, releaseAddress]
  | ttlBuckets plan =>
    obtain ⟨bucket, _, queue, _, _⟩ := shape
    simp [DelayedRoute.returnAddress, queue, TtlBucketPlan.delayQueueSpec, releaseDestination,
      releaseAddress]

theorem delayedExchangeName_nonempty (exchange : String) : delayedExchangeName exchange ≠ "" := by
  unfold delayedExchangeName
  split
  · decide
  · intro empty
    have lengths := congrArg String.length empty
    simp at lengths

variable {v : ValidatedConfig} {requested : List WorkerProfile} {route : DelayedRoute}

theorem returnsTo_iff {queue exchange : String} (address : route.returnAddress = ⟨exchange, queue⟩) :
    ReturnsTo (generationPlan v requested) route queue ↔ Taken (generationPlan v requested) route ∧
      (exchange = "" ∨
        PlannedBinding v.config (generationSubscriptions v requested) ⟨queue, exchange, queue⟩) := by
  obtain ⟨_, exchanges, _, bindings⟩ := generationPlan_shape v requested
  simp only [ReturnsTo, address, and_true]
  refine and_congr Iff.rfl
    (or_congr Iff.rfl ⟨fun bound => (bindings _).mp bound.2, fun planned => ⟨?_, (bindings _).mpr planned⟩⟩)
  rw [List.map_append, List.mem_append]
  exact .inl (exchanges ▸ (plannedBinding_known planned).2)

theorem taken_exchange_iff (plugin : route.queue = none) :
    Taken (generationPlan v requested) route ↔ DistinctNames v.config (generationSubscriptions v requested) ∧
      Registry.Accepts ExchangeSpec.name (plannedExchanges v.config (generationSubscriptions v requested))
        (delayedExchangeSpec route.exchange) := by
  obtain ⟨_, exchanges, _, _⟩ := generationPlan_shape v requested
  rw [Taken, replays_iff, DelayedRoute.infrastructure, plugin, ← exchanges]
  rfl

/-- A delay queue expires, which no planned queue does: its name is free or refused. -/
theorem taken_queue_iff {spec : QueueSpec} (ttl : route.queue = some spec) (expires : spec.expires ≠ none) :
    Taken (generationPlan v requested) route ↔ DistinctNames v.config (generationSubscriptions v requested) ∧
      spec.name ∉ (plannedQueues v.config (generationSubscriptions v requested)).map (·.name) := by
  obtain ⟨_, _, queues, _⟩ := generationPlan_shape v requested
  rw [Taken, replays_iff, DelayedRoute.infrastructure, ttl, ← queues]
  refine and_congr_right fun _ => ⟨fun accepts taken => ?_, fun free other member same => ?_⟩
  · obtain ⟨other, member, same⟩ := List.mem_map.mp taken
    rw [← accepts other member same] at expires
    exact expires (plannedQueues_expires (queues ▸ member))
  · exact absurd (List.mem_map.mpr ⟨other, member, same⟩) free

/-- In declare mode a delayed release written by the publisher comes back to its queue exactly when
`LeadsBack` holds of the configuration. -/
theorem release_returns_iff (v : ValidatedConfig) (requested : List WorkerProfile) (sub : SubscriptionConfig)
    (request : PublishRequest) (mandatory : Bool) (write : TransportPublish)
    (declares : v.config.topologyMode = .declare) (hosted : sub ∈ generationSubscriptions v requested)
    (target : request.destination = releaseDestination sub) (delayed : request.delay ≠ 0)
    (written : routeTransportRequest sha256 request (some (DelayStrategy.compile v.config)) mandatory =
      .ok write) :
    ∃ route, routeRequested sha256 (DelayStrategy.compile v.config) request = .ok route ∧
      write.exchange = route.exchange ∧ write.routingKey = route.routingKey ∧
      (ReturnsTo (generationPlan v requested) route sub.queue ↔
        LeadsBack v.config (generationSubscriptions v requested) sub.queue write.routingKey) := by
  obtain ⟨route, routed, rfl⟩ := (routeTransportRequest_delayed sha256 delayed).mp written
  refine ⟨route, routed, rfl, rfl, ?_⟩
  have address := release_returnAddress sha256 target routed
  have shape := (routeRequested_shape sha256 routed).2
  rw [target] at shape
  unfold LeadsBack
  cases strategy : DelayStrategy.compile v.config with
  | plugin =>
    have plans : plansDelayedExchange v.config = true := by
      simp [plansDelayedExchange, declares, strategy]
    rw [strategy] at address shape
    obtain ⟨exchange, -, queue⟩ := shape
    rw [returnsTo_iff address, plannedBinding_iff ⟨sub, hosted, rfl⟩, taken_exchange_iff queue, and_assoc, exchange]
    refine and_congr_right fun distinct => ?_
    refine Iff.trans ?_ delayedExchangeName_eq_default
    constructor
    · rintro ⟨accepts, empty | ⟨-, default⟩ | back⟩
      · exact absurd empty (delayedExchangeName_nonempty sub.queue)
      · exact default
      · cases congrArg ExchangeSpec.kind (accepts _ back.direct rfl)
    · intro default
      refine ⟨?_, .inr (.inl ⟨plans, default⟩)⟩
      change Registry.Accepts _ _ (delayedExchangeSpec (delayedExchangeName sub.queue))
      rw [default]
      exact plannedExchanges_agree distinct _ (mem_plannedExchanges.mpr (.inl ⟨plans, rfl⟩))
  | ttlBuckets plan =>
    have plans : plansDelayedExchange v.config = false := by
      simp [plansDelayedExchange, strategy]
    rw [strategy] at address shape
    obtain ⟨bucket, -, queue, -, key⟩ := shape
    rw [returnsTo_iff address, plannedBinding_iff ⟨sub, hosted, rfl⟩, taken_queue_iff queue nofun, and_assoc]
    simp only [plans, Bool.false_eq_true, false_and, false_or, transportPublish, key]
    rfl

def ordersConfig : Config where
  brokers := [mainBroker]
  workers := [{ name := "default", subscriptions := [ordersSubscription], scheduler := .weightedFair }]
  topologyMode := .declare

def orders : ValidatedConfig := ⟨ordersConfig, ordersConfig, by rfl⟩

def ordersRelease : PublishRequest where
  destination := releaseDestination ordersSubscription
  payload := [1]
  properties := { messageId := "m-1", delayMs := some 5000 }
  deadline := 0

def ordersWrite : TransportPublish :=
  transportPublish ordersRelease "orders.delayed" "orders" (some 5000) false

theorem orders_release_iff : ∃ route,
    routeRequested (fun _ => []) (DelayStrategy.compile orders.config) ordersRelease = .ok route ∧
      ordersWrite.exchange = route.exchange ∧ ordersWrite.routingKey = route.routingKey ∧
      (ReturnsTo (generationPlan orders []) route ordersSubscription.queue ↔
        LeadsBack orders.config (generationSubscriptions orders []) ordersSubscription.queue ordersWrite.routingKey) :=
  release_returns_iff (fun _ => []) orders [] ordersSubscription ordersRelease true ordersWrite rfl
    List.mem_cons_self rfl (by decide) rfl

/-- The release goes to `orders.delayed`, which the plan neither declares nor binds. -/
theorem orders_release_lost : ∃ route,
    ordersConfig.validate = .ok orders ∧ ordersSubscription ∈ generationSubscriptions orders [] ∧
      routeRequested (fun _ => []) (DelayStrategy.compile orders.config) ordersRelease = .ok route ∧
      route.returnAddress = ⟨"orders.delayed", "orders"⟩ ∧
      ¬ReturnsTo (generationPlan orders []) route "orders" := by
  refine ⟨⟨"orders.delayed", "orders", 5000, none⟩, rfl, List.mem_cons_self, rfl, rfl, ?_⟩
  rintro ⟨-, ⟨default, _⟩ | ⟨_, bound⟩⟩
  · exact absurd default (by decide)
  · exact absurd bound (by decide)

end RabbitRs
