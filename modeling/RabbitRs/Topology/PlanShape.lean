import RabbitRs.Topology.Plan

/-!
The plan of a configuration in closed form. Compilation never fails on it, so the external-mode
fallback is dead, and the dead-letter pass reduces to patching the first spec of each name.
-/

namespace RabbitRs

def patchHead (source exchange routingKey : String) : List QueueSpec → List QueueSpec
  | [] => []
  | spec :: rest =>
      if spec.name = source then spec.deadLetterTo exchange routingKey :: rest
      else spec :: patchHead source exchange routingKey rest

theorem patchHead_names (source exchange routingKey : String) (specs : List QueueSpec) :
    (patchHead source exchange routingKey specs).map (·.name) = specs.map (·.name) := by
  induction specs with
  | nil => rfl
  | cons spec rest ih =>
    unfold patchHead
    split
    · rfl
    · simp only [List.map_cons, ih]

theorem patchFirst_append {source exchange routingKey : String} {specs : List QueueSpec}
    (known : source ∈ specs.map (·.name)) (after : List QueueSpec) :
    patchFirst source exchange routingKey (specs ++ after) =
      some (patchHead source exchange routingKey specs ++ after) := by
  induction specs with
  | nil => simp at known
  | cons spec rest ih =>
    by_cases here : spec.name = source
    · simp [patchFirst, patchHead, here]
    · have later : source ∈ rest.map (·.name) := by
        rcases List.mem_cons.mp known with same | later
        · exact absurd same.symm here
        · exact later
      simp only [List.cons_append, patchFirst, patchHead, if_neg here, ih later, Option.map_some]

variable (dl : DeadLetterConfig)

def deadLetterKey (queue : String) : String := dl.routingKey.getD queue

def patchAll (done : List String) (specs : List QueueSpec) : List QueueSpec :=
  done.foldl (fun specs queue => patchHead queue dl.exchange (deadLetterKey dl queue) specs) specs

theorem patchAll_names (done : List String) (specs : List QueueSpec) :
    (patchAll dl done specs).map (·.name) = specs.map (·.name) := by
  induction done generalizing specs with
  | nil => rfl
  | cons queue rest ih => exact (ih _).trans (patchHead_names _ _ _ _)

theorem patchAll_nil (done : List String) : patchAll dl done [] = [] := by
  induction done with
  | nil => rfl
  | cons queue rest ih => exact ih

def QueueSpec.deadLettered (spec : QueueSpec) : QueueSpec :=
  spec.deadLetterTo dl.exchange (deadLetterKey dl spec.name)

@[simp] theorem deadLettered_name (spec : QueueSpec) : (spec.deadLettered dl).name = spec.name := rfl

@[simp] theorem deadLettered_twice (spec : QueueSpec) :
    (spec.deadLettered dl).deadLettered dl = spec.deadLettered dl := rfl

theorem patchAll_cons (done : List String) (spec : QueueSpec) (rest : List QueueSpec) :
    patchAll dl done (spec :: rest) = (if spec.name ∈ done then spec.deadLettered dl else spec) ::
        patchAll dl (done.filter (· != spec.name)) rest := by
  induction done generalizing spec rest with
  | nil => simp [patchAll]
  | cons queue later ih =>
    have unfolded : patchAll dl (queue :: later) (spec :: rest) =
        patchAll dl later (patchHead queue dl.exchange (deadLetterKey dl queue) (spec :: rest)) := rfl
    rw [unfolded, patchHead]
    by_cases here : spec.name = queue
    · subst here
      rw [if_pos rfl]
      have head := ih (spec.deadLettered dl) rest
      rw [deadLettered_twice, ite_self, deadLettered_name] at head
      refine head.trans ?_
      simp
    · rw [if_neg here, ih]
      have kept : (queue :: later).filter (· != spec.name) = queue :: later.filter (· != spec.name) := by
        simp [Ne.symm here]
      rw [kept]
      simp [patchAll, here]

/-- The first spec of a name that is dead-lettered is patched; a later one of that name stays bare. -/
theorem mem_patchAll {make : String → QueueSpec} (named : ∀ queue, (make queue).name = queue)
    {done queues : List String} {spec : QueueSpec} :
    spec ∈ patchAll dl done (queues.map make) ↔ ∃ queue ∈ queues,
      (queue ∈ done ∧ spec = (make queue).deadLettered dl) ∨
        ((queue ∈ done → 2 ≤ queues.count queue) ∧ spec = make queue) := by
  induction queues generalizing done with
  | nil => simp [patchAll_nil]
  | cons head rest ih =>
    rw [List.map_cons, patchAll_cons, named, List.mem_cons, ih]
    constructor
    · rintro (here | ⟨queue, member, ⟨listed, rfl⟩ | ⟨again, rfl⟩⟩)
      · refine ⟨head, List.mem_cons_self, ?_⟩
        split at here
        case isTrue listed => exact .inl ⟨listed, here⟩
        case isFalse absent => exact .inr ⟨fun listed => absurd listed absent, here⟩
      · exact ⟨queue, List.mem_cons_of_mem _ member, .inl ⟨List.mem_of_mem_filter listed, rfl⟩⟩
      · refine ⟨queue, List.mem_cons_of_mem _ member, .inr ⟨fun listed => ?_, rfl⟩⟩
        have twice := List.count_pos_iff.mpr member
        by_cases same : queue = head
        · subst same
          rw [List.count_cons_self]
          omega
        · rw [List.count_cons_of_ne (Ne.symm same)]
          exact again (List.mem_filter.mpr ⟨listed, by simpa using same⟩)
    · rintro ⟨queue, member, chosen⟩
      by_cases same : queue = head
      · subst same
        by_cases listed : queue ∈ done
        · rcases chosen with ⟨-, rfl⟩ | ⟨again, rfl⟩
          · exact .inl (by rw [if_pos listed])
          · have twice := again listed
            rw [List.count_cons_self] at twice
            refine .inr ⟨queue, List.count_pos_iff.mp (by omega), .inr ⟨fun kept => ?_, rfl⟩⟩
            simp at kept
        · rcases chosen with ⟨present, -⟩ | ⟨-, rfl⟩
          · exact absurd present listed
          · exact .inl (by rw [if_neg listed])
      · refine .inr ⟨queue, (List.mem_cons.mp member).resolve_left same, ?_⟩
        rw [List.count_cons_of_ne (Ne.symm same)] at chosen
        rcases chosen with ⟨listed, rfl⟩ | ⟨again, rfl⟩
        · exact .inl ⟨List.mem_filter.mpr ⟨listed, by simpa using same⟩, rfl⟩
        · exact .inr ⟨fun kept => again (List.mem_of_mem_filter kept), rfl⟩

def plainSpec (queue : String) (kind : QueueKind) (durable : Bool) (limit : Option UInt32) : QueueSpec where
  name := queue
  durable := durable
  exclusive := false
  autoDelete := false
  kind := kind
  deadLetterExchange := none
  deadLetterRoutingKey := none
  messageTtl := none
  expires := none
  deliveryLimit := limit
  arguments := []

/-- A dead-letter queue takes the definition defaults, not the configured queue type. -/
def dlqSpec (queue : String) : QueueSpec := plainSpec queue .quorum true none

def subscriptionSpec (config : Config) (queue : String) : QueueSpec :=
  plainSpec queue config.queueType config.queueDurable
    (if config.queueType = .quorum then config.deliveryLimit else none)

theorem compile_queueDefinition (config : Config) (queue : String) :
    (queueDefinition config queue).compile = .ok (subscriptionSpec config queue) := by
  simp [QueueDefinition.compile, queueDefinition, subscriptionSpec, plainSpec]

def deadLetterBinding (queue : String) : BindingSpec := ⟨dl.queue, dl.exchange, deadLetterKey dl queue⟩

structure Built (start : PlanBuild) (specs : List QueueSpec) (done : List String) (build : PlanBuild) :
    Prop where
  exchanges : build.exchanges = start.exchanges ++ if done = [] then [] else [directExchangeSpec dl.exchange]
  queues : build.queues = patchAll dl done specs ++ if done = [] then [] else [dlqSpec dl.queue]
  bindings : ∀ b, b ∈ build.bindings ↔ b ∈ start.bindings ∨ ∃ queue ∈ done, b = deadLetterBinding dl queue
  seenExchanges : build.seenExchanges = if done = [] then [] else [dl.exchange]
  seenDlqs : build.seenDlqs = if done = [] then [] else [dl.queue]

theorem mem_pushNew {b new : BindingSpec} {bindings : List BindingSpec} :
    b ∈ (if new ∈ bindings then bindings else bindings ++ [new]) ↔ b ∈ bindings ∨ b = new := by
  split
  · rename_i present
    exact ⟨Or.inl, fun either => either.elim id (· ▸ present)⟩
  · simp

theorem deadLetter_built {start build : PlanBuild} {specs : List QueueSpec} {done : List String}
    {queue : String} (built : Built dl start specs done build) (known : queue ∈ specs.map (·.name)) :
    ∃ after, build.deadLetter (deadLetterDefinition dl queue) = .ok after ∧
      Built dl start specs (done ++ [queue]) after := by
  have named : queue ∈ (patchAll dl done specs).map (·.name) := by rwa [patchAll_names]
  have patched : patchFirst queue dl.exchange (deadLetterKey dl queue) build.queues =
      some (patchAll dl (done ++ [queue]) specs ++ if done = [] then [] else [dlqSpec dl.queue]) := by
    rw [built.queues, patchFirst_append named, patchAll, patchAll, List.foldl_append]
    rfl
  have compiled : QueueDefinition.compile { name := dl.queue } = .ok (dlqSpec dl.queue) := rfl
  have bound : ∀ b, b ∈ (if deadLetterBinding dl queue ∈ build.bindings then build.bindings
      else build.bindings ++ [deadLetterBinding dl queue]) ↔
      b ∈ start.bindings ∨ ∃ source ∈ done ++ [queue], b = deadLetterBinding dl source := by
    intro b
    rw [mem_pushNew, built.bindings]
    simp only [List.mem_append, List.mem_singleton, or_and_right, exists_or, exists_eq_left, or_assoc]
  have source : (deadLetterDefinition dl queue) = ⟨queue, dl.exchange, dl.queue, deadLetterKey dl queue⟩ := rfl
  unfold PlanBuild.deadLetter
  rw [source]
  simp only [patched, built.seenExchanges, built.seenDlqs]
  by_cases first : done = []
  · refine ⟨_, by simp [first, bind, Except.bind, pure, Except.pure, compiled]; rfl, ?_⟩
    exact {
      exchanges := by simp [built.exchanges, first]
      queues := by simp [first]
      bindings := bound
      seenExchanges := by simp
      seenDlqs := by simp }
  · refine ⟨_, by simp [first, bind, Except.bind, pure, Except.pure]; rfl, ?_⟩
    exact {
      exchanges := by simp [built.exchanges, first]
      queues := by simp [first]
      bindings := bound
      seenExchanges := by simp
      seenDlqs := by simp }

theorem foldlM_built {start build : PlanBuild} {specs : List QueueSpec} {done : List String}
    (todo : List String) (built : Built dl start specs done build)
    (known : ∀ queue ∈ todo, queue ∈ specs.map (·.name)) :
    ∃ after, (todo.map (deadLetterDefinition dl)).foldlM PlanBuild.deadLetter build = .ok after ∧
      Built dl start specs (done ++ todo) after := by
  induction todo generalizing done build with
  | nil => exact ⟨build, rfl, by simpa using built⟩
  | cons queue rest ih =>
    obtain ⟨middle, step, built⟩ := deadLetter_built dl built (known queue List.mem_cons_self)
    obtain ⟨after, fold, built⟩ := ih built fun other member => known other (List.mem_cons_of_mem _ member)
    refine ⟨after, ?_, by simpa using built⟩
    simp only [List.map_cons, List.foldlM_cons, step, bind, Except.bind]
    exact fold

def enabledDeadLetter (config : Config) : Option DeadLetterConfig := config.deadLetter.filter (·.enabled)

def plannedExchanges (config : Config) (subs : List SubscriptionConfig) : List ExchangeSpec :=
  (if plansDelayedExchange config then [delayedExchangeSpec defaultDelayedExchange] else [])
    ++ routeExchanges config.routes
    ++ match enabledDeadLetter config with
      | some dl => if subs = [] then [] else [directExchangeSpec dl.exchange]
      | none => []

def plannedQueues (config : Config) (subs : List SubscriptionConfig) : List QueueSpec :=
  let specs := subs.map fun sub => subscriptionSpec config sub.queue
  match enabledDeadLetter config with
  | some dl =>
      patchAll dl (subs.map (·.queue)) specs ++ if subs = [] then [] else [dlqSpec dl.queue]
  | none => specs

inductive PlannedBinding (config : Config) (subs : List SubscriptionConfig) : BindingSpec → Prop where
  | delayed {sub : SubscriptionConfig} : plansDelayedExchange config = true → sub ∈ subs →
      PlannedBinding config subs (delayedBinding sub)
  | route {name : String} {route : RouteConfig} {sub : SubscriptionConfig} :
      (name, route) ∈ config.routes → route.exchange ≠ "" → sub ∈ subs → sub.broker = route.broker →
      PlannedBinding config subs (routeBinding route sub)
  | deadLetter {dl : DeadLetterConfig} {sub : SubscriptionConfig} :
      enabledDeadLetter config = some dl → sub ∈ subs →
      PlannedBinding config subs (deadLetterBinding dl sub.queue)

theorem mem_routeBindings {routes : List (String × RouteConfig)} {subs : List SubscriptionConfig}
    {b : BindingSpec} : b ∈ routeBindings routes subs ↔ ∃ name route sub, (name, route) ∈ routes ∧
      route.exchange ≠ "" ∧ sub ∈ subs ∧ sub.broker = route.broker ∧ b = routeBinding route sub := by
  simp only [routeBindings, List.mem_flatMap, Prod.exists]
  constructor
  · rintro ⟨name, route, member, inside⟩
    split at inside
    · simp at inside
    · rename_i named
      obtain ⟨sub, kept, rfl⟩ := List.mem_map.mp inside
      obtain ⟨hosted, broker⟩ := List.mem_filter.mp kept
      exact ⟨name, route, sub, member, named, hosted, by simpa using broker, rfl⟩
  · rintro ⟨name, route, sub, member, named, hosted, broker, rfl⟩
    refine ⟨name, route, member, ?_⟩
    rw [if_neg named]
    exact List.mem_map_of_mem (List.mem_filter.mpr ⟨hosted, by simpa using broker⟩)

theorem mem_profileTopology_bindings {config : Config} {subs : List SubscriptionConfig} {b : BindingSpec} :
    (b ∈ (profileTopology config subs).bindings ∨
      ∃ dl, enabledDeadLetter config = some dl ∧ ∃ queue ∈ subs.map (·.queue), b = deadLetterBinding dl queue) ↔
      PlannedBinding config subs b := by
  constructor
  · rintro (member | ⟨dl, enabled, queue, member, rfl⟩)
    · rcases List.mem_append.mp member with delayed | routed
      · split at delayed
        · rename_i plans
          obtain ⟨sub, hosted, rfl⟩ := List.mem_map.mp delayed
          exact .delayed plans hosted
        · simp at delayed
      · obtain ⟨name, route, sub, listed, named, hosted, broker, rfl⟩ := mem_routeBindings.mp routed
        exact .route listed named hosted broker
    · obtain ⟨sub, hosted, rfl⟩ := List.mem_map.mp member
      exact .deadLetter enabled hosted
  · intro planned
    cases planned with
    | delayed plans hosted =>
      exact .inl (List.mem_append_left _ (by simpa [plans] using List.mem_map_of_mem hosted))
    | route member named hosted broker =>
      exact .inl (List.mem_append_right _ (mem_routeBindings.mpr ⟨_, _, _, member, named, hosted, broker, rfl⟩))
    | deadLetter enabled hosted => exact .inr ⟨_, enabled, _, List.mem_map_of_mem hosted, rfl⟩

theorem mapM_queueDefinition (config : Config) (subs : List SubscriptionConfig) :
    (subs.map fun sub => queueDefinition config sub.queue).mapM QueueDefinition.compile =
      .ok (subs.map fun sub => subscriptionSpec config sub.queue) := by
  induction subs with
  | nil => rfl
  | cons sub rest ih =>
    simp only [List.map_cons, List.mapM_cons, compile_queueDefinition, ih, bind, Except.bind, pure,
      Except.pure]

theorem compile_profileTopology (config : Config) (subs : List SubscriptionConfig) :
    ∃ plan, TopologyPlan.compile config.topologyMode (profileTopology config subs) = .ok plan ∧
      plan.mode = config.topologyMode ∧ plan.exchanges = plannedExchanges config subs ∧
      plan.queues = plannedQueues config subs ∧
      ∀ b, b ∈ plan.bindings ↔ PlannedBinding config subs b := by
  have compiled : (profileTopology config subs).queues.mapM QueueDefinition.compile =
      .ok (subs.map fun sub => subscriptionSpec config sub.queue) := by
    exact mapM_queueDefinition config subs
  have names : (subs.map fun sub => subscriptionSpec config sub.queue).map (·.name) = subs.map (·.queue) := by
    simp [subscriptionSpec, plainSpec]
  cases enabled : enabledDeadLetter config with
  | none =>
    have silent : (profileTopology config subs).deadLetters = [] := by
      unfold enabledDeadLetter at enabled
      unfold profileTopology
      cases chosen : config.deadLetter with
      | none => simp
      | some dl =>
        have off : dl.enabled = false := by simpa [chosen, Option.filter] using enabled
        simp [off]
    refine ⟨_, by rw [TopologyPlan.compile, compiled, silent]; rfl, rfl, ?_, ?_, ?_⟩
    · simp [plannedExchanges, enabled, profileTopology]
    · simp [plannedQueues, enabled]
    · intro b
      rw [← mem_profileTopology_bindings]
      simp [enabled]
  | some dl =>
    have letters : (profileTopology config subs).deadLetters =
        (subs.map (·.queue)).map (deadLetterDefinition dl) := by
      unfold enabledDeadLetter at enabled
      obtain ⟨chosen, on⟩ := Option.filter_eq_some_iff.mp enabled
      simp [profileTopology, chosen, on]
    let start : PlanBuild := {
      exchanges := (profileTopology config subs).exchanges
      queues := subs.map fun sub => subscriptionSpec config sub.queue
      bindings := (profileTopology config subs).bindings }
    have initial : Built dl start start.queues [] start := by
      constructor <;> simp [start, patchAll]
    obtain ⟨build, folded, built⟩ := foldlM_built dl (subs.map (·.queue)) initial fun queue member => by
      rwa [show start.queues.map (·.name) = subs.map (·.queue) from names]
    have ran : TopologyPlan.compile config.topologyMode (profileTopology config subs) =
        .ok ⟨config.topologyMode, build.exchanges, build.queues, build.bindings⟩ := by
      simp only [TopologyPlan.compile, compiled, letters, bind, Except.bind]
      rw [folded]
      rfl
    refine ⟨_, ran, rfl, ?_, ?_, ?_⟩
    · simp [built.exchanges, plannedExchanges, enabled, start, profileTopology]
    · simp [built.queues, plannedQueues, enabled, start]
    · intro b
      rw [← mem_profileTopology_bindings, built.bindings]
      simp [enabled, start]

/-- The fallback of `from_profiles` is never taken. -/
theorem fromProfiles_shape (config : Config) (profiles : List WorkerProfile) :
    (TopologyPlan.fromProfiles config profiles).mode = config.topologyMode ∧
      (TopologyPlan.fromProfiles config profiles).exchanges =
        plannedExchanges config (subscriptionsOf profiles) ∧
      (TopologyPlan.fromProfiles config profiles).queues = plannedQueues config (subscriptionsOf profiles) ∧
      ∀ b, b ∈ (TopologyPlan.fromProfiles config profiles).bindings ↔
        PlannedBinding config (subscriptionsOf profiles) b := by
  obtain ⟨plan, compiled, shape⟩ := compile_profileTopology config (subscriptionsOf profiles)
  rw [TopologyPlan.fromProfiles, compiled]
  exact shape

end RabbitRs
