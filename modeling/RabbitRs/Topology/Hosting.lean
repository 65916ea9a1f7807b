import RabbitRs.Topology.Conflict

/-!
The plan of a generation against the broker it is reconciled on. Every coordinator computes its
plan from the whole configuration; only the bindings of a route look at where a queue is hosted.
-/

namespace RabbitRs

def hostedOn (broker : String) (subs : List SubscriptionConfig) : List SubscriptionConfig :=
  subs.filter fun sub => sub.broker = broker

def Config.routedOn (config : Config) (broker : String) : Config :=
  { config with routes := config.routes.filter fun entry => entry.2.broker = broker }

/-- The plan holds what `broker` hosts and nothing else: the queues of its subscriptions with their
dead-letter objects, the exchanges of its routes, and the bindings between them. -/
structure OwnTopology (config : Config) (broker : String) (subs : List SubscriptionConfig)
    (plan : TopologyPlan) : Prop where
  queues : ∀ spec, spec ∈ plan.queues ↔ spec ∈ plannedQueues config (hostedOn broker subs)
  exchanges : ∀ spec, spec ∈ plan.exchanges ↔
    spec ∈ plannedExchanges (config.routedOn broker) (hostedOn broker subs)
  bindings : ∀ b, b ∈ plan.bindings ↔ PlannedBinding (config.routedOn broker) (hostedOn broker subs) b

/-- What is on the other brokers adds nothing: their queues are hosted here as well; with dead letters,
none is listed a second time because of them, which would add a spec without the dead-letter arguments;
and the exchange and the bindings of their routes are planned here anyway. -/
structure AddsNothing (config : Config) (broker : String) (subs : List SubscriptionConfig) : Prop where
  queues : ∀ sub ∈ subs, sub.queue ∈ (hostedOn broker subs).map (·.queue)
  listed : ∀ dl, enabledDeadLetter config = some dl → ∀ queue, 2 ≤ (subs.map (·.queue)).count queue →
    2 ≤ ((hostedOn broker subs).map (·.queue)).count queue ∨ subscriptionSpec config queue = dlqSpec dl.queue
  routes : ∀ name route, (name, route) ∈ config.routes → route.exchange ≠ "" → route.broker ≠ broker →
    directExchangeSpec route.exchange ∈ plannedExchanges (config.routedOn broker) (hostedOn broker subs) ∧
      ∀ sub ∈ subs, sub.broker = route.broker →
        PlannedBinding (config.routedOn broker) (hostedOn broker subs) (routeBinding route sub)

variable {config : Config} {broker : String} {subs : List SubscriptionConfig}

theorem hosted_queues {queue : String} (member : queue ∈ (hostedOn broker subs).map (·.queue)) :
    queue ∈ subs.map (·.queue) := by
  obtain ⟨sub, hosted, rfl⟩ := List.mem_map.mp member
  exact List.mem_map_of_mem (List.mem_filter.mp hosted).1

theorem hosted_count_le (queue : String) :
    ((hostedOn broker subs).map (·.queue)).count queue ≤ (subs.map (·.queue)).count queue :=
  (List.filter_sublist.map _).count_le queue

theorem hosted_nonempty (some : hostedOn broker subs ≠ []) : subs ≠ [] := by
  rintro rfl
  exact some rfl

theorem plannedQueues_hosted {spec : QueueSpec} (member : spec ∈ plannedQueues config (hostedOn broker subs)) :
    spec ∈ plannedQueues config subs := by
  cases on : enabledDeadLetter config with
  | none =>
    rw [plannedQueues_off on] at member ⊢
    obtain ⟨queue, hosted, rfl⟩ := List.mem_map.mp member
    exact List.mem_map_of_mem (hosted_queues hosted)
  | some dl =>
    apply (mem_plannedQueues_on on).mpr
    rcases (mem_plannedQueues_on on).mp member with ⟨queue, hosted, rfl⟩ | ⟨queue, twice, rfl⟩ | ⟨some, rfl⟩
    · exact .inl ⟨queue, hosted_queues hosted, rfl⟩
    · exact .inr (.inl ⟨queue, twice.trans (hosted_count_le queue), rfl⟩)
    · exact .inr (.inr ⟨hosted_nonempty some, rfl⟩)

theorem AddsNothing.nonempty (adds : AddsNothing config broker subs) (some : subs ≠ []) :
    hostedOn broker subs ≠ [] := by
  obtain ⟨sub, member⟩ := List.exists_mem_of_ne_nil subs some
  obtain ⟨own, hosted, -⟩ := List.mem_map.mp (adds.queues sub member)
  exact List.ne_nil_of_mem hosted

theorem AddsNothing.plannedQueues (adds : AddsNothing config broker subs) {spec : QueueSpec}
    (member : spec ∈ plannedQueues config subs) : spec ∈ RabbitRs.plannedQueues config (hostedOn broker subs) := by
  have own {queue : String} (listed : queue ∈ subs.map (·.queue)) :
      queue ∈ (hostedOn broker subs).map (·.queue) := by
    obtain ⟨sub, inside, rfl⟩ := List.mem_map.mp listed
    exact adds.queues sub inside
  cases on : enabledDeadLetter config with
  | none =>
    rw [plannedQueues_off on] at member ⊢
    obtain ⟨queue, listed, rfl⟩ := List.mem_map.mp member
    exact List.mem_map_of_mem (own listed)
  | some dl =>
    apply (mem_plannedQueues_on on).mpr
    rcases (mem_plannedQueues_on on).mp member with ⟨queue, listed, rfl⟩ | ⟨queue, twice, rfl⟩ | ⟨some, rfl⟩
    · exact .inl ⟨queue, own listed, rfl⟩
    · rcases adds.listed dl on queue twice with again | same
      · exact .inr (.inl ⟨queue, again, rfl⟩)
      · have listed : queue ∈ subs.map (·.queue) := List.count_pos_iff.mp (by omega)
        exact .inr (.inr ⟨adds.nonempty (by rintro rfl; cases listed), same⟩)
    · exact .inr (.inr ⟨adds.nonempty some, rfl⟩)

theorem mem_hosted_of_plannedQueues
    (own : ∀ spec ∈ plannedQueues config subs, spec ∈ plannedQueues config (hostedOn broker subs)) :
    ∀ sub ∈ subs, sub.queue ∈ (hostedOn broker subs).map (·.queue) := by
  intro sub member
  cases on : enabledDeadLetter config with
  | none =>
    rw [plannedQueues_off on, plannedQueues_off on] at own
    obtain ⟨queue, hosted, same⟩ := List.mem_map.mp
      (own _ (List.mem_map_of_mem (List.mem_map_of_mem member)))
    obtain rfl : queue = sub.queue := congrArg QueueSpec.name same
    exact hosted
  | some dl =>
    -- the patched spec is that of a hosted queue: the others carry no dead-letter exchange
    have patched := own _ ((mem_plannedQueues_on on).mpr (.inl ⟨_, List.mem_map_of_mem member, rfl⟩))
    rcases (mem_plannedQueues_on on).mp patched with ⟨queue, hosted, same⟩ | ⟨_, _, same⟩ | ⟨-, same⟩
    · obtain rfl : sub.queue = queue := congrArg QueueSpec.name same
      exact hosted
    · cases congrArg QueueSpec.deadLetterExchange same
    · cases congrArg QueueSpec.deadLetterExchange same

theorem listed_of_plannedQueues
    (own : ∀ spec ∈ plannedQueues config subs, spec ∈ plannedQueues config (hostedOn broker subs))
    {dl : DeadLetterConfig} (on : enabledDeadLetter config = some dl) {queue : String}
    (twice : 2 ≤ (subs.map (·.queue)).count queue) :
    2 ≤ ((hostedOn broker subs).map (·.queue)).count queue ∨ subscriptionSpec config queue = dlqSpec dl.queue := by
  have bare := own _ ((mem_plannedQueues_on on).mpr (.inr (.inl ⟨queue, twice, rfl⟩)))
  rcases (mem_plannedQueues_on on).mp bare with ⟨_, _, same⟩ | ⟨other, again, same⟩ | ⟨-, same⟩
  · cases congrArg QueueSpec.deadLetterExchange same
  · obtain rfl : queue = other := congrArg QueueSpec.name same
    exact .inl again
  · exact .inr same

theorem plannedExchanges_hosted {spec : ExchangeSpec}
    (member : spec ∈ plannedExchanges (config.routedOn broker) (hostedOn broker subs)) :
    spec ∈ plannedExchanges config subs := by
  apply mem_plannedExchanges.mpr
  rcases mem_plannedExchanges.mp member with delayed | ⟨name, route, listed, named, rfl⟩ | ⟨dl, on, some, rfl⟩
  · exact .inl delayed
  · exact .inr (.inl ⟨name, route, (List.mem_filter.mp listed).1, named, rfl⟩)
  · exact .inr (.inr ⟨dl, on, hosted_nonempty some, rfl⟩)

theorem AddsNothing.plannedExchanges (adds : AddsNothing config broker subs) {spec : ExchangeSpec}
    (member : spec ∈ plannedExchanges config subs) :
    spec ∈ RabbitRs.plannedExchanges (config.routedOn broker) (hostedOn broker subs) := by
  rcases mem_plannedExchanges.mp member with delayed | ⟨name, route, listed, named, rfl⟩ | ⟨dl, on, some, rfl⟩
  · exact mem_plannedExchanges.mpr (.inl delayed)
  · by_cases here : route.broker = broker
    · have own : (name, route) ∈ (config.routedOn broker).routes := List.mem_filter.mpr ⟨listed, by simpa using here⟩
      exact mem_plannedExchanges.mpr (.inr (.inl ⟨name, route, own, named, rfl⟩))
    · exact (adds.routes name route listed named here).1
  · exact mem_plannedExchanges.mpr (.inr (.inr ⟨dl, on, adds.nonempty some, rfl⟩))

theorem plannedBinding_hosted {b : BindingSpec}
    (planned : PlannedBinding (config.routedOn broker) (hostedOn broker subs) b) : PlannedBinding config subs b := by
  cases planned with
  | delayed plans hosted => exact .delayed plans (List.mem_filter.mp hosted).1
  | route listed named hosted here =>
    exact .route (List.mem_filter.mp listed).1 named (List.mem_filter.mp hosted).1 here
  | deadLetter on hosted => exact .deadLetter on (List.mem_filter.mp hosted).1

theorem AddsNothing.plannedBinding (adds : AddsNothing config broker subs) {b : BindingSpec}
    (planned : PlannedBinding config subs b) : PlannedBinding (config.routedOn broker) (hostedOn broker subs) b := by
  cases planned with
  | @delayed sub plans member =>
    obtain ⟨own, hosted, same⟩ := List.mem_map.mp (adds.queues sub member)
    rw [delayedBinding, ← same]
    exact .delayed plans hosted
  | @route name route sub listed named member there =>
    by_cases here : route.broker = broker
    · exact .route (List.mem_filter.mpr ⟨listed, by simpa using here⟩) named
        (List.mem_filter.mpr ⟨member, by simpa using there.trans here⟩) there
    · exact (adds.routes name route listed named here).2 sub member there
  | @deadLetter dl sub on member =>
    obtain ⟨own, hosted, same⟩ := List.mem_map.mp (adds.queues sub member)
    rw [← same]
    exact .deadLetter on hosted

/-- The plan stays within its broker exactly when what is on the other brokers adds nothing to it. -/
theorem generationPlan_ownTopology_iff (v : ValidatedConfig) (requested : List WorkerProfile)
    (broker : String) :
    OwnTopology v.config broker (generationSubscriptions v requested) (generationPlan v requested) ↔
      AddsNothing v.config broker (generationSubscriptions v requested) := by
  obtain ⟨_, exchanges, queues, bindings⟩ := generationPlan_shape v requested
  constructor
  · intro own
    have within : ∀ spec ∈ plannedQueues v.config (generationSubscriptions v requested),
        spec ∈ plannedQueues v.config (hostedOn broker (generationSubscriptions v requested)) := by
      intro spec member
      exact (own.queues spec).mp (queues ▸ member)
    refine ⟨mem_hosted_of_plannedQueues within, fun dl on queue => listed_of_plannedQueues within on, ?_⟩
    intro name route listed named _
    constructor
    · apply (own.exchanges _).mp
      rw [exchanges]
      exact mem_plannedExchanges.mpr (.inr (.inl ⟨name, route, listed, named, rfl⟩))
    · intro sub member there
      exact (own.bindings _).mp ((bindings _).mpr (.route listed named member there))
  · intro adds
    refine ⟨fun spec => ?_, fun spec => ?_, fun b => ?_⟩
    · rw [queues]
      exact ⟨adds.plannedQueues, plannedQueues_hosted⟩
    · rw [exchanges]
      exact ⟨adds.plannedExchanges, plannedExchanges_hosted⟩
    · rw [bindings]
      exact ⟨adds.plannedBinding, plannedBinding_hosted⟩

def twoBrokerConfig : Config where
  brokers := [mainBroker, { mainBroker with name := "west" }]
  workers := [{
    name := "billing"
    subscriptions := [{ ordersSubscription with name := "mail", broker := "west", queue := "mail" }, ordersSubscription]
    scheduler := .weightedFair }]
  topologyMode := .verify

def twoBrokers : ValidatedConfig := ⟨twoBrokerConfig, twoBrokerConfig, by rfl⟩

/-- The plan for `main` requires the queue `mail`, which only `west` hosts. -/
theorem main_requires_west : twoBrokerConfig.validate = .ok twoBrokers ∧
      "mail" ∈ (generationPlan twoBrokers []).queues.map (·.name) ∧
      "mail" ∉ (hostedOn "main" (generationSubscriptions twoBrokers [])).map (·.queue) ∧
      ¬OwnTopology twoBrokers.config "main" (generationSubscriptions twoBrokers []) (generationPlan twoBrokers []) := by
  refine ⟨rfl, List.mem_map.mpr ⟨_, List.mem_cons_self, rfl⟩, by decide, fun own => ?_⟩
  have foreign := (own.queues _).mp List.mem_cons_self
  exact absurd foreign (by decide)

end RabbitRs
