import RabbitRs.Lib.Registry
import RabbitRs.Topology.PlanShape

/-!
When a generation's plan is free of conflicting declarations, and what replaying it against a
broker needs: the broker refuses a name declared again with other arguments.
-/

namespace RabbitRs

open Registry

/-- No two specs of the plan disagree, and every subscription queue dead-letters as configured. -/
structure ConflictFree (config : Config) (subs : List SubscriptionConfig) (plan : TopologyPlan) : Prop where
  queues_agree : Agrees QueueSpec.name plan.queues
  exchanges_agree : Agrees ExchangeSpec.name plan.exchanges
  dead_lettered : ∀ dl, enabledDeadLetter config = some dl → ∀ spec ∈ plan.queues,
    spec.name ∈ subs.map (·.queue) → spec.deadLetterExchange = some dl.exchange ∧
      spec.deadLetterRoutingKey = some (dl.routingKey.getD spec.name)

/-- The replay in plan order against a broker that starts empty: exchanges, queues, then bindings,
each between objects that exist by then. -/
structure Replays (plan : TopologyPlan) : Prop where
  exchanges : DeclaresAll ExchangeSpec.name [] plan.exchanges
  queues : DeclaresAll QueueSpec.name [] plan.queues
  bindings : ∀ b ∈ plan.bindings,
    b.queue ∈ plan.queues.map (·.name) ∧ b.exchange ∈ plan.exchanges.map (·.name)

/-- With dead-lettering on, the subscription queues are distinct and the dead-letter queue is none
of them; with the shared delayed exchange planned, no other exchange takes its name. -/
structure DistinctNames (config : Config) (subs : List SubscriptionConfig) : Prop where
  queues : ∀ dl, enabledDeadLetter config = some dl → (subs.map (·.queue)).Nodup ∧ dl.queue ∉ subs.map (·.queue)
  routes : plansDelayedExchange config = true →
    ∀ name route, (name, route) ∈ config.routes → route.exchange ≠ defaultDelayedExchange
  deadLetter : plansDelayedExchange config = true → ∀ dl, enabledDeadLetter config = some dl →
    subs ≠ [] → dl.exchange ≠ defaultDelayedExchange

variable {config : Config} {subs : List SubscriptionConfig}

theorem mem_routeExchanges {routes : List (String × RouteConfig)} {spec : ExchangeSpec} :
    spec ∈ routeExchanges routes ↔ ∃ name route, (name, route) ∈ routes ∧ route.exchange ≠ "" ∧
      spec = directExchangeSpec route.exchange := by
  simp only [routeExchanges, List.mem_flatMap, Prod.exists]
  constructor
  · rintro ⟨name, route, member, inside⟩
    split at inside
    · simp at inside
    · rename_i named
      exact ⟨name, route, member, named, List.mem_singleton.mp inside⟩
  · rintro ⟨name, route, member, named, rfl⟩
    exact ⟨name, route, member, by simp [named]⟩

theorem mem_plannedExchanges {spec : ExchangeSpec} : spec ∈ plannedExchanges config subs ↔
    (plansDelayedExchange config = true ∧ spec = delayedExchangeSpec defaultDelayedExchange) ∨
    (∃ name route, (name, route) ∈ config.routes ∧ route.exchange ≠ "" ∧
      spec = directExchangeSpec route.exchange) ∨
    (∃ dl, enabledDeadLetter config = some dl ∧ subs ≠ [] ∧ spec = directExchangeSpec dl.exchange) := by
  rw [plannedExchanges, List.mem_append, List.mem_append, mem_routeExchanges, or_assoc]
  refine or_congr ?_ (or_congr Iff.rfl ?_)
  · by_cases plans : plansDelayedExchange config = true <;> simp [plans]
  · cases enabledDeadLetter config with
    | none => simp
    | some dl => by_cases none : subs = [] <;> simp [none]

theorem plannedExchange_direct (distinct : DistinctNames config subs) {spec : ExchangeSpec}
    (member : spec ∈ plannedExchanges config subs) :
    (plansDelayedExchange config = true ∧ spec = delayedExchangeSpec defaultDelayedExchange) ∨
    (spec = directExchangeSpec spec.name ∧
      (plansDelayedExchange config = true → spec.name ≠ defaultDelayedExchange)) := by
  rcases mem_plannedExchanges.mp member with ⟨plans, rfl⟩ | ⟨name, route, listed, _, rfl⟩ | ⟨dl, on, some, rfl⟩
  · exact .inl ⟨plans, rfl⟩
  · exact .inr ⟨rfl, fun plans => distinct.routes plans name route listed⟩
  · exact .inr ⟨rfl, fun plans => distinct.deadLetter plans dl on some⟩

theorem plannedExchanges_agree (distinct : DistinctNames config subs) :
    Agrees ExchangeSpec.name (plannedExchanges config subs) := by
  intro spec member other inside same
  rcases plannedExchange_direct distinct member with ⟨plans, rfl⟩ | ⟨direct, apart⟩ <;>
    rcases plannedExchange_direct distinct inside with ⟨planned, rfl⟩ | ⟨alsoDirect, alsoApart⟩
  · rfl
  · exact absurd same (alsoApart plans)
  · exact absurd same.symm (apart planned)
  · rw [direct, alsoDirect, same]

theorem agree_not_delayed (agrees : Agrees ExchangeSpec.name (plannedExchanges config subs))
    (plans : plansDelayedExchange config = true) {exchange : String}
    (member : directExchangeSpec exchange ∈ plannedExchanges config subs) :
    exchange ≠ defaultDelayedExchange := by
  rintro rfl
  have delayed : delayedExchangeSpec defaultDelayedExchange ∈ plannedExchanges config subs :=
    mem_plannedExchanges.mpr (.inl ⟨plans, rfl⟩)
  have same := agrees _ delayed _ member rfl
  exact absurd (congrArg ExchangeSpec.kind same) (by decide)

theorem plannedQueues_off (off : enabledDeadLetter config = none) :
    plannedQueues config subs = (subs.map (·.queue)).map (subscriptionSpec config) := by
  simp [plannedQueues, off]

theorem plannedQueues_on {dl : DeadLetterConfig} (on : enabledDeadLetter config = some dl) :
    plannedQueues config subs =
      patchAll dl (subs.map (·.queue)) ((subs.map (·.queue)).map (subscriptionSpec config)) ++
        if subs = [] then [] else [dlqSpec dl.queue] := by
  simp [plannedQueues, on, Function.comp_def]

variable (config) in
theorem subscriptionSpec_names (queues : List String) :
    (queues.map (subscriptionSpec config)).map (·.name) = queues := by
  induction queues with
  | nil => rfl
  | cons queue rest ih => simpa [subscriptionSpec, plainSpec] using ih

theorem mem_plannedQueues_on {dl : DeadLetterConfig} (on : enabledDeadLetter config = some dl) {spec : QueueSpec} :
    spec ∈ plannedQueues config subs ↔
      (∃ queue ∈ subs.map (·.queue), spec = (subscriptionSpec config queue).deadLettered dl) ∨
      (∃ queue, 2 ≤ (subs.map (·.queue)).count queue ∧ spec = subscriptionSpec config queue) ∨
      (subs ≠ [] ∧ spec = dlqSpec dl.queue) := by
  rw [plannedQueues_on on, List.mem_append, mem_patchAll dl fun _ => rfl]
  constructor
  · rintro (⟨queue, hosted, ⟨-, rfl⟩ | ⟨again, rfl⟩⟩ | added)
    · exact .inl ⟨queue, hosted, rfl⟩
    · exact .inr (.inl ⟨queue, again hosted, rfl⟩)
    · split at added
      · cases added
      case isFalse some => exact .inr (.inr ⟨some, List.mem_singleton.mp added⟩)
  · rintro (⟨queue, hosted, rfl⟩ | ⟨queue, twice, rfl⟩ | ⟨some, rfl⟩)
    · exact .inl ⟨queue, hosted, .inl ⟨hosted, rfl⟩⟩
    · exact .inl ⟨queue, List.count_pos_iff.mp (by omega), .inr ⟨fun _ => twice, rfl⟩⟩
    · exact .inr (by simp [some])

theorem plannedQueues_distinct (distinct : DistinctNames config subs) {dl : DeadLetterConfig}
    (on : enabledDeadLetter config = some dl) {spec : QueueSpec} (member : spec ∈ plannedQueues config subs) :
    (spec.name ∈ subs.map (·.queue) ∧ spec = (subscriptionSpec config spec.name).deadLettered dl) ∨
    (spec.name ∉ subs.map (·.queue) ∧ spec = dlqSpec spec.name) := by
  obtain ⟨nodup, fresh⟩ := distinct.queues dl on
  rcases (mem_plannedQueues_on on).mp member with ⟨queue, hosted, rfl⟩ | ⟨queue, twice, rfl⟩ | ⟨-, rfl⟩
  · exact .inl ⟨hosted, rfl⟩
  · have once := List.nodup_iff_count_le_one.mp nodup queue
    omega
  · exact .inr ⟨fresh, rfl⟩

theorem plannedQueues_agree (distinct : DistinctNames config subs) :
    Agrees QueueSpec.name (plannedQueues config subs) := by
  intro spec member other inside same
  cases on : enabledDeadLetter config with
  | none =>
    rw [plannedQueues_off on] at member inside
    obtain ⟨queue, _, rfl⟩ := List.mem_map.mp member
    obtain ⟨queue', _, rfl⟩ := List.mem_map.mp inside
    have equal : queue' = queue := same
    rw [equal]
  | some dl =>
    rcases plannedQueues_distinct distinct on member with ⟨hosted, shape⟩ | ⟨outside, shape⟩ <;>
      rcases plannedQueues_distinct distinct on inside with ⟨hosted', shape'⟩ | ⟨outside', shape'⟩
    · rw [shape, shape', same]
    · exact absurd (same ▸ hosted) outside'
    · exact absurd (same ▸ hosted') outside
    · rw [shape, shape', same]

theorem plannedQueues_deadLettered (distinct : DistinctNames config subs) {dl : DeadLetterConfig}
    (on : enabledDeadLetter config = some dl) {spec : QueueSpec} (member : spec ∈ plannedQueues config subs)
    (hosted : spec.name ∈ subs.map (·.queue)) :
    spec.deadLetterExchange = some dl.exchange ∧
      spec.deadLetterRoutingKey = some (dl.routingKey.getD spec.name) := by
  rcases plannedQueues_distinct distinct on member with ⟨_, shape⟩ | ⟨outside, _⟩
  · rw [shape]
    exact ⟨rfl, rfl⟩
  · exact absurd hosted outside

theorem bare_spec_of_shared_name {dl : DeadLetterConfig} (on : enabledDeadLetter config = some dl)
    (shared : ¬((subs.map (·.queue)).Nodup ∧ dl.queue ∉ subs.map (·.queue))) :
    ∃ spec ∈ plannedQueues config subs, spec.name ∈ subs.map (·.queue) ∧ spec.deadLetterExchange = none := by
  by_cases nodup : (subs.map (·.queue)).Nodup
  · have consumed : dl.queue ∈ subs.map (·.queue) := by
      by_contra outside
      exact shared ⟨nodup, outside⟩
    have some : subs ≠ [] := by
      rintro rfl
      simp at consumed
    exact ⟨dlqSpec dl.queue, (mem_plannedQueues_on on).mpr (.inr (.inr ⟨some, rfl⟩)), consumed, rfl⟩
  · rw [List.nodup_iff_count_le_one] at nodup
    push Not at nodup
    obtain ⟨queue, twice⟩ := nodup
    refine ⟨subscriptionSpec config queue, (mem_plannedQueues_on on).mpr (.inr (.inl ⟨queue, twice, rfl⟩)), ?_, rfl⟩
    exact List.count_pos_iff.mp (Nat.lt_of_succ_lt twice)

theorem plannedQueues_names : (plannedQueues config subs).map (·.name) =
    subs.map (·.queue) ++ match enabledDeadLetter config with
      | some dl => if subs = [] then [] else [dl.queue]
      | none => [] := by
  cases on : enabledDeadLetter config with
  | none => rw [plannedQueues_off on, subscriptionSpec_names, List.append_nil]
  | some dl =>
    rw [plannedQueues_on on, List.map_append, patchAll_names, subscriptionSpec_names]
    by_cases none : subs = [] <;> simp [none, dlqSpec, plainSpec]

theorem plannedBinding_known {b : BindingSpec} (planned : PlannedBinding config subs b) :
    b.queue ∈ (plannedQueues config subs).map (·.name) ∧
      b.exchange ∈ (plannedExchanges config subs).map (·.name) := by
  rw [plannedQueues_names]
  cases planned with
  | delayed plans hosted =>
    have known : delayedExchangeSpec defaultDelayedExchange ∈ plannedExchanges config subs :=
      mem_plannedExchanges.mpr (.inl ⟨plans, rfl⟩)
    exact ⟨List.mem_append_left _ (List.mem_map_of_mem hosted), List.mem_map.mpr ⟨_, known, rfl⟩⟩
  | @route name route sub listed named hosted broker =>
    have known : directExchangeSpec route.exchange ∈ plannedExchanges config subs :=
      mem_plannedExchanges.mpr (.inr (.inl ⟨name, route, listed, named, rfl⟩))
    exact ⟨List.mem_append_left _ (List.mem_map_of_mem hosted), List.mem_map.mpr ⟨_, known, rfl⟩⟩
  | @deadLetter dl sub on hosted =>
    have some : subs ≠ [] := List.ne_nil_of_mem hosted
    have known : directExchangeSpec dl.exchange ∈ plannedExchanges config subs :=
      mem_plannedExchanges.mpr (.inr (.inr ⟨dl, on, some, rfl⟩))
    exact ⟨List.mem_append_right _ (by simp [on, some, deadLetterBinding]),
      List.mem_map.mpr ⟨_, known, rfl⟩⟩

theorem distinctNames_of_agree (exchanges : Agrees ExchangeSpec.name (plannedExchanges config subs))
    (queues : Agrees QueueSpec.name (plannedQueues config subs)) : DistinctNames config subs where
  queues dl on := by
    by_contra shared
    obtain ⟨spec, member, hosted, bare⟩ := bare_spec_of_shared_name on shared
    have patched := (mem_plannedQueues_on on).mpr (.inl ⟨spec.name, hosted, rfl⟩)
    rw [queues _ patched spec member rfl] at bare
    cases bare
  routes plans name route listed := by
    by_cases named : route.exchange = ""
    · rw [named]
      decide
    · exact agree_not_delayed exchanges plans
        (mem_plannedExchanges.mpr (.inr (.inl ⟨name, route, listed, named, rfl⟩)))
  deadLetter plans dl on some :=
    agree_not_delayed exchanges plans (mem_plannedExchanges.mpr (.inr (.inr ⟨dl, on, some, rfl⟩)))

/-- The profiles a generation plans for: the configured ones and its extras. -/
def generationSubscriptions (v : ValidatedConfig) (requested : List WorkerProfile) : List SubscriptionConfig :=
  subscriptionsOf (v.config.workers ++ generationExtras v requested)

theorem generationPlan_shape (v : ValidatedConfig) (requested : List WorkerProfile) :
    (generationPlan v requested).mode = v.config.topologyMode ∧ (generationPlan v requested).exchanges =
        plannedExchanges v.config (generationSubscriptions v requested) ∧
      (generationPlan v requested).queues = plannedQueues v.config (generationSubscriptions v requested) ∧
      ∀ b, b ∈ (generationPlan v requested).bindings ↔
        PlannedBinding v.config (generationSubscriptions v requested) b :=
  fromProfiles_shape v.config (v.config.workers ++ generationExtras v requested)

theorem replays_iff (v : ValidatedConfig) (requested : List WorkerProfile) :
    Replays (generationPlan v requested) ↔ DistinctNames v.config (generationSubscriptions v requested) := by
  obtain ⟨_, exchanges, queues, bindings⟩ := generationPlan_shape v requested
  constructor
  · intro replays
    exact distinctNames_of_agree (exchanges ▸ (declaresAll_fresh _).mp replays.exchanges)
      (queues ▸ (declaresAll_fresh _).mp replays.queues)
  · intro distinct
    refine ⟨(declaresAll_fresh _).mpr (exchanges ▸ plannedExchanges_agree distinct),
      (declaresAll_fresh _).mpr (queues ▸ plannedQueues_agree distinct), fun b member => ?_⟩
    have known := plannedBinding_known ((bindings b).mp member)
    exact ⟨queues ▸ known.1, exchanges ▸ known.2⟩

/-- The plan of a generation is conflict-free and replays on a fresh broker exactly when the names
it declares are distinct in the sense of `DistinctNames`. -/
theorem generationPlan_conflictFree_iff (v : ValidatedConfig) (requested : List WorkerProfile) :
    (ConflictFree v.config (generationSubscriptions v requested) (generationPlan v requested) ∧
      Replays (generationPlan v requested)) ↔
    DistinctNames v.config (generationSubscriptions v requested) := by
  obtain ⟨_, exchanges, queues, _⟩ := generationPlan_shape v requested
  refine ⟨fun free => (replays_iff v requested).mp free.2, fun distinct => ⟨⟨?_, ?_, ?_⟩, ?_⟩⟩
  · exact queues ▸ plannedQueues_agree distinct
  · exact exchanges ▸ plannedExchanges_agree distinct
  · intro dl on spec member hosted
    exact plannedQueues_deadLettered distinct on (queues ▸ member) hosted
  · exact (replays_iff v requested).mpr distinct

def mainBroker : BrokerConfig where
  name := "main"
  hosts := [⟨"localhost", 5672⟩]
  vhost := "/"
  credentials := ⟨"guest", "guest"⟩
  heartbeat := .fromSecs 30

def ordersSubscription : SubscriptionConfig :=
  { name := "orders", broker := "main", queue := "orders", weight := 1, prefetch := .fixed 16 }

def sharedQueueConfig : Config where
  brokers := [mainBroker]
  workers := [
    { name := "billing", subscriptions := [ordersSubscription], scheduler := .weightedFair },
    { name := "mail", subscriptions := [ordersSubscription], scheduler := .weightedFair }]
  topologyMode := .declare
  deadLetter := some { enabled := true, exchange := "dlx", queue := "dead", routingKey := none }

def sharedQueue : ValidatedConfig := ⟨sharedQueueConfig, sharedQueueConfig, by rfl⟩

/-- The second declaration of `orders` lacks the dead-letter arguments of the first. -/
theorem sharedQueue_conflicts : sharedQueueConfig.validate = .ok sharedQueue ∧
      ¬ConflictFree sharedQueue.config (generationSubscriptions sharedQueue []) (generationPlan sharedQueue []) ∧
      ¬Replays (generationPlan sharedQueue []) := by
  have first : (subscriptionSpec sharedQueueConfig "orders").deadLetterTo "dlx" "orders" ∈
      (generationPlan sharedQueue []).queues := List.mem_of_getElem? (by rfl : _[0]? = _)
  have second : subscriptionSpec sharedQueueConfig "orders" ∈
      (generationPlan sharedQueue []).queues := List.mem_of_getElem? (by rfl : _[1]? = _)
  have disagree : ¬Agrees QueueSpec.name (generationPlan sharedQueue []).queues := fun agrees =>
    absurd (congrArg QueueSpec.deadLetterExchange (agrees _ first _ second rfl)) (by decide)
  exact ⟨rfl, fun free => disagree free.queues_agree,
    fun replays => disagree ((declaresAll_fresh _).mp replays.queues)⟩

end RabbitRs
