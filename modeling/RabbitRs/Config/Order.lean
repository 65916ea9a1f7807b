import RabbitRs.Config

/-!
The canonical order of an accepted configuration. Brokers, hosts, workers and subscriptions may be
listed in any order: every check is on the set of them, and the sorted lists agree.
-/

namespace RabbitRs

structure BrokerConfig.Reordered (a b : BrokerConfig) : Prop where
  hosts : a.hosts.Perm b.hosts
  rest : { a with hosts := b.hosts } = b

structure WorkerProfile.Reordered (a b : WorkerProfile) : Prop where
  subscriptions : a.subscriptions.Perm b.subscriptions
  rest : { a with subscriptions := b.subscriptions } = b

/-- The same configuration with its lists in another order, at every level. -/
structure Config.Reordered (a b : Config) : Prop where
  brokers : ∃ middle, a.brokers.Perm middle ∧ List.Forall₂ BrokerConfig.Reordered middle b.brokers
  workers : ∃ middle, a.workers.Perm middle ∧ List.Forall₂ WorkerProfile.Reordered middle b.workers
  rest : { a with brokers := b.brokers, workers := b.workers } = b

theorem insertionSort_by_name {α : Type} (name : α → String) {xs ys : List α} (perm : xs.Perm ys)
    (distinct : (xs.map name).Nodup) :
    xs.insertionSort (fun a b => name a ≤ name b) = ys.insertionSort (fun a b => name a ≤ name b) := by
  have total : Std.Total fun a b => name a ≤ name b := ⟨fun a b => String.le_total _ _⟩
  have trans : IsTrans α fun a b => name a ≤ name b := ⟨fun _ _ _ => String.le_trans⟩
  refine List.Perm.eq_of_pairwise (fun a b memberA memberB le ge => ?_) (List.pairwise_insertionSort _ xs)
    (List.pairwise_insertionSort _ ys)
    ((List.perm_insertionSort _ xs).trans (perm.trans (List.perm_insertionSort _ ys).symm))
  have insideB : b ∈ xs := perm.mem_iff.mpr ((List.mem_insertionSort _).mp memberB)
  exact List.inj_on_of_nodup_map distinct ((List.mem_insertionSort _).mp memberA) insideB
    (String.le_antisymm le ge)

theorem endpoint_le_iff {a b : Endpoint} :
    a.le b = true ↔ a.host < b.host ∨ a.host = b.host ∧ a.port ≤ b.port := by
  simp [Endpoint.le]

theorem insertionSort_endpoints {xs ys : List Endpoint} (perm : xs.Perm ys) :
    xs.insertionSort (fun a b => a.le b) = ys.insertionSort (fun a b => a.le b) := by
  have total : Std.Total fun a b : Endpoint => a.le b = true := by
    refine ⟨fun a b => ?_⟩
    rw [endpoint_le_iff, endpoint_le_iff]
    by_cases less : a.host < b.host
    · exact .inl (.inl less)
    by_cases more : b.host < a.host
    · exact .inr (.inl more)
    have same := String.le_antisymm (String.not_lt.mp more) (String.not_lt.mp less)
    rcases UInt16.le_total a.port b.port with le | ge
    · exact .inl (.inr ⟨same, le⟩)
    · exact .inr (.inr ⟨same.symm, ge⟩)
  have trans : IsTrans Endpoint fun a b => a.le b = true := by
    refine ⟨fun a b c first second => ?_⟩
    rw [endpoint_le_iff] at first second ⊢
    rcases first with less | ⟨same, le⟩ <;> rcases second with less' | ⟨same', le'⟩
    · exact .inl (String.lt_trans less less')
    · exact .inl (same' ▸ less)
    · exact .inl (same ▸ less')
    · exact .inr ⟨same.trans same', UInt16.le_trans le le'⟩
  refine List.Perm.eq_of_pairwise (fun a b _ _ le ge => ?_) (List.pairwise_insertionSort _ xs)
    (List.pairwise_insertionSort _ ys)
    ((List.perm_insertionSort _ xs).trans (perm.trans (List.perm_insertionSort _ ys).symm))
  rw [endpoint_le_iff] at le ge
  rcases le with less | ⟨same, le⟩ <;> rcases ge with less' | ⟨same', ge⟩
  · exact absurd less' (String.lt_asymm less)
  · exact absurd less (same' ▸ String.lt_irrefl _)
  · exact absurd less' (same ▸ String.lt_irrefl _)
  · obtain ⟨host, port⟩ := a
    obtain ⟨host', port'⟩ := b
    simp only [Endpoint.mk.injEq]
    exact ⟨same, UInt16.le_antisymm le ge⟩

theorem check_bind_ok {ε β : Type} {x : Except ε Unit} {f : Unit → Except ε β} {r : β} :
    (x >>= f) = .ok r ↔ x = .ok () ∧ f () = .ok r := by
  rw [bind_ok]
  exact ⟨fun ⟨_, checked, rest⟩ => ⟨checked, rest⟩, fun ⟨checked, rest⟩ => ⟨(), checked, rest⟩⟩

theorem validateUnique_ok {path : String → String} {message : String} {seen names : List String} {done : Unit} :
    validateUnique path message seen names = .ok done ↔ names.Nodup ∧ ∀ name ∈ names, name ∉ seen := by
  induction names generalizing seen with
  | nil => simp [validateUnique]
  | cons name rest ih =>
    simp only [validateUnique, check_bind_ok, refuse_ok, ih, List.nodup_cons, List.forall_mem_cons,
      List.contains_eq_mem, decide_eq_false_iff_not]
    constructor
    · rintro ⟨fresh, nodup, apart⟩
      exact ⟨⟨fun member => List.ne_of_not_mem_cons (apart name member) rfl, nodup⟩, fresh,
        fun other member => List.not_mem_of_not_mem_cons (apart other member)⟩
    · rintro ⟨⟨unlisted, nodup⟩, fresh, apart⟩
      refine ⟨fresh, nodup, fun other member => List.not_mem_cons_of_ne_of_not_mem ?_ (apart other member)⟩
      rintro rfl
      exact unlisted member

theorem mapM_checked {ε α β : Type} {check : α → Except ε Unit} {result : α → β} {xs : List α} {ys : List β} :
    xs.mapM (fun x => check x >>= fun _ => Except.ok (result x)) = .ok ys ↔
      (∀ x ∈ xs, check x = .ok ()) ∧ ys = xs.map result := by
  induction xs generalizing ys with
  | nil => simp [pure, Except.pure, eq_comm]
  | cons x rest ih =>
    simp only [List.mapM_cons, bind_ok, pure, Except.pure, Except.ok.injEq, ih, List.forall_mem_cons,
      List.map_cons]
    constructor
    · rintro ⟨_, ⟨⟨⟩, checked, rfl⟩, _, ⟨others, rfl⟩, rfl⟩
      exact ⟨⟨checked, others⟩, rfl⟩
    · rintro ⟨⟨checked, others⟩, rfl⟩
      exact ⟨_, ⟨(), checked, rfl⟩, _, ⟨others, rfl⟩, rfl⟩

def BrokerConfig.sorted (broker : BrokerConfig) : BrokerConfig :=
  { broker with hosts := broker.hosts.insertionSort (fun a b => a.le b) }

def checkBroker (broker : BrokerConfig) : Except ConfigError Unit := do
  refuse broker.hosts.isEmpty ("brokers." ++ broker.name ++ ".hosts") "at least one host is required"
  refuse (broker.heartbeat < .fromSecs 1 || .fromSecs 65535 < broker.heartbeat)
    ("brokers." ++ broker.name ++ ".heartbeat")
    "heartbeat must be between 1 and 65535 seconds (AMQP wire limit)"
  validateBrokerTls broker.sorted

theorem validateBroker_eq (broker : BrokerConfig) :
    validateBroker broker = checkBroker broker >>= fun _ => .ok broker.sorted := by
  simp [validateBroker, checkBroker, BrokerConfig.sorted, bind_assoc, pure, Except.pure]

def WorkerProfile.sorted (worker : WorkerProfile) : WorkerProfile :=
  { worker with subscriptions := worker.subscriptions.insertionSort (fun a b => a.name ≤ b.name) }

theorem validateSubscriptions_ok {base : String} {names seen : List String} {subs : List SubscriptionConfig} :
    validateSubscriptions base names seen subs = .ok () ↔
      (subs.map (·.name)).Nodup ∧ (∀ sub ∈ subs, sub.name ∉ seen) ∧
        ∀ sub ∈ subs, validateSubscription (base ++ sub.name) names sub = .ok () := by
  induction subs generalizing seen with
  | nil => simp [validateSubscriptions]
  | cons sub rest ih =>
    simp only [validateSubscriptions, check_bind_ok, refuse_ok, ih, List.map_cons, List.nodup_cons,
      List.forall_mem_cons, List.contains_eq_mem, decide_eq_false_iff_not]
    constructor
    · rintro ⟨fresh, valid, nodup, apart, others⟩
      refine ⟨⟨?_, nodup⟩, ⟨fresh, fun other member => List.not_mem_of_not_mem_cons (apart other member)⟩,
        valid, others⟩
      intro listed
      obtain ⟨other, member, same⟩ := List.mem_map.mp listed
      exact List.ne_of_not_mem_cons (apart other member) same
    · rintro ⟨⟨unlisted, nodup⟩, ⟨fresh, apart⟩, valid, others⟩
      refine ⟨fresh, valid, nodup, fun other member => ?_, others⟩
      refine List.not_mem_cons_of_ne_of_not_mem (fun same => unlisted ?_) (apart other member)
      exact List.mem_map.mpr ⟨other, member, same⟩

def Config.sortedBrokers (config : Config) : List BrokerConfig :=
  (config.brokers.map BrokerConfig.sorted).insertionSort fun a b => a.name ≤ b.name

def Config.sortedWorkers (config : Config) : List WorkerProfile :=
  (config.workers.map WorkerProfile.sorted).insertionSort fun a b => a.name ≤ b.name

/-- What validation checks that the order of the lists could matter to. -/
structure Config.Accepted (config : Config) : Prop where
  brokers_named : (config.brokers.map (·.name)).Nodup
  brokers_valid : ∀ broker ∈ config.brokers, checkBroker broker = .ok ()
  workers_named : (config.workers.map (·.name)).Nodup
  workers_valid : ∀ worker ∈ config.workers,
    validateWorker (config.sortedBrokers.map (·.name)) worker = .ok ()

def Config.restCheck (config : Config) : Except ConfigError Unit := do
  refuse config.brokers.isEmpty "brokers" "at least one broker is required"
  refuse (config.queueType == .quorum && !config.queueDurable) "queue_durable"
    "quorum queues are always durable: set queue_durable=true or queue_type=classic"
  refuse (config.queueType == .classic && config.deliveryLimit.isSome) "delivery_limit"
    "delivery_limit is only supported on quorum queues: remove it or set queue_type=quorum"
  validateRoutes (config.sortedBrokers.map (·.name)) config.routes
  validateDelay config.delay
  validateConsumer config.consumer
  validatePublisher config.publisher

theorem canonicalize_ok {raw config : Config} :
    raw.canonicalize = .ok config ↔ raw.Accepted ∧ raw.restCheck = .ok () ∧
      config = { raw with brokers := raw.sortedBrokers, workers := raw.sortedWorkers } := by
  have brokers : raw.brokers.mapM validateBroker =
      raw.brokers.mapM fun broker => checkBroker broker >>= fun _ => .ok broker.sorted :=
    congrArg (List.mapM · raw.brokers) (funext validateBroker_eq)
  simp only [Config.canonicalize, Config.restCheck, validateUniqueBrokerNames, validateUniqueWorkerNames,
    brokers, bind_ok, validateUnique_ok, mapM_checked, refuse_ok, pure, Except.pure, Except.ok.injEq,
    List.not_mem_nil, not_false_eq_true, implies_true, and_true]
  constructor
  · rintro ⟨_, some, _, durable, _, limited, _, namedB, _, ⟨validB, rfl⟩, _, namedW, _, ⟨validW, rfl⟩, _,
      routes, _, delay, _, consumer, _, publisher, rfl⟩
    exact ⟨⟨namedB, validB, namedW, validW⟩,
      ⟨(), some, (), durable, (), limited, (), routes, (), delay, (), consumer, publisher⟩, rfl⟩
  · rintro ⟨⟨namedB, validB, namedW, validW⟩,
      ⟨_, some, _, durable, _, limited, _, routes, _, delay, _, consumer, publisher⟩, rfl⟩
    exact ⟨(), some, (), durable, (), limited, (), namedB, _, ⟨validB, rfl⟩, (), namedW, _, ⟨validW, rfl⟩,
      (), routes, (), delay, (), consumer, (), publisher, rfl⟩

theorem BrokerConfig.Reordered.sorted {a b : BrokerConfig} (reordered : a.Reordered b) :
    a.sorted = b.sorted := by
  rw [← reordered.rest, BrokerConfig.sorted, BrokerConfig.sorted, insertionSort_endpoints reordered.hosts]

theorem BrokerConfig.Reordered.name {a b : BrokerConfig} (reordered : a.Reordered b) : a.name = b.name := by
  rw [← reordered.rest]

theorem BrokerConfig.Reordered.check {a b : BrokerConfig} (reordered : a.Reordered b) :
    checkBroker a = checkBroker b := by
  have heartbeat : a.heartbeat = b.heartbeat := by rw [← reordered.rest]
  rw [checkBroker, checkBroker, reordered.sorted, reordered.name, heartbeat, reordered.hosts.isEmpty_eq]

theorem WorkerProfile.Reordered.name {a b : WorkerProfile} (reordered : a.Reordered b) : a.name = b.name := by
  rw [← reordered.rest]

theorem WorkerProfile.Reordered.validate {a b : WorkerProfile} {names : List String}
    (reordered : a.Reordered b) (valid : validateWorker names a = .ok ()) :
    validateWorker names b = .ok () ∧ a.sorted = b.sorted := by
  simp only [validateWorker, check_bind_ok, refuse_ok, validateSubscriptions_ok] at valid ⊢
  obtain ⟨subscribed, named, _, checked⟩ := valid
  have perm := reordered.subscriptions
  refine ⟨⟨perm.isEmpty_eq ▸ subscribed, (perm.map _).nodup_iff.mp named, by simp, fun sub member => ?_⟩, ?_⟩
  · rw [← reordered.name]
    exact checked sub (perm.mem_iff.mpr member)
  · rw [← reordered.rest, WorkerProfile.sorted, WorkerProfile.sorted,
      insertionSort_by_name (·.name) perm named]

theorem map_perm_of_reordered {α β : Type} {related : α → α → Prop} {f : α → β} {xs ys : List α}
    (reordered : ∃ middle, xs.Perm middle ∧ List.Forall₂ related middle ys)
    (image : ∀ a b, related a b → f a = f b) : (xs.map f).Perm (ys.map f) := by
  obtain ⟨middle, perm, paired⟩ := reordered
  have same : middle.map f = ys.map f := by
    rw [← List.forall₂_eq_eq_eq, List.forall₂_map_left_iff, List.forall₂_map_right_iff]
    exact paired.imp image
  exact same ▸ perm.map f

theorem exists_of_reordered {α : Type} {related : α → α → Prop} {xs ys : List α}
    (reordered : ∃ middle, xs.Perm middle ∧ List.Forall₂ related middle ys) {y : α} (member : y ∈ ys) :
    ∃ x ∈ xs, related x y := by
  obtain ⟨middle, perm, paired⟩ := reordered
  obtain ⟨i, bound, rfl⟩ := List.getElem_of_mem member
  have bound' : i < middle.length := paired.length_eq ▸ bound
  exact ⟨middle[i], perm.mem_iff.mpr (List.getElem_mem bound'), paired.get bound' bound⟩

section

variable {raw other : Config} (reordered : raw.Reordered other)

include reordered

theorem Config.Reordered.sortedBrokers (named : (raw.brokers.map (·.name)).Nodup) :
    raw.sortedBrokers = other.sortedBrokers := by
  refine insertionSort_by_name (·.name) (map_perm_of_reordered reordered.brokers fun _ _ => (·.sorted)) ?_
  rwa [List.map_map]

theorem Config.Reordered.sortedWorkers (accepted : raw.Accepted) : raw.sortedWorkers = other.sortedWorkers := by
  obtain ⟨middle, perm, paired⟩ := reordered.workers
  -- the subscriptions of a worker sort alike only because the worker was accepted
  have checked : List.Forall₂ (fun a b => a.sorted = b.sorted) middle other.workers := by
    have known : ∀ a ∈ middle, a ∈ raw.workers := fun a member => perm.mem_iff.mpr member
    refine ((List.forall₂_and_left _ _).mpr ⟨known, paired⟩).imp ?_
    rintro a b ⟨inside, related⟩
    exact (related.validate (accepted.workers_valid a inside)).2
  refine insertionSort_by_name (·.name) (map_perm_of_reordered ⟨middle, perm, checked⟩ fun _ _ same => same) ?_
  rw [List.map_map]
  exact accepted.workers_named

theorem Config.Reordered.accepted (accepted : raw.Accepted) : other.Accepted := by
  have brokers := map_perm_of_reordered reordered.brokers fun _ _ => (·.name)
  have workers := map_perm_of_reordered reordered.workers fun _ _ => (·.name)
  refine ⟨brokers.nodup_iff.mp accepted.brokers_named, fun broker member => ?_,
    workers.nodup_iff.mp accepted.workers_named, fun worker member => ?_⟩
  · obtain ⟨source, inside, related⟩ := exists_of_reordered reordered.brokers member
    rw [← related.check]
    exact accepted.brokers_valid source inside
  · obtain ⟨source, inside, related⟩ := exists_of_reordered reordered.workers member
    rw [← reordered.sortedBrokers accepted.brokers_named]
    exact (related.validate (accepted.workers_valid source inside)).1

theorem Config.Reordered.restCheck (named : (raw.brokers.map (·.name)).Nodup) :
    raw.restCheck = other.restCheck := by
  have empty := (map_perm_of_reordered reordered.brokers fun _ _ => (·.name)).isEmpty_eq
  simp only [List.isEmpty_map] at empty
  rw [Config.restCheck, Config.restCheck, reordered.sortedBrokers named, empty, ← reordered.rest]

theorem Config.Reordered.canonicalize {config : Config} (ok : raw.canonicalize = .ok config) :
    other.canonicalize = .ok config := by
  obtain ⟨accepted, checked, rfl⟩ := canonicalize_ok.mp ok
  refine canonicalize_ok.mpr ⟨reordered.accepted accepted,
    reordered.restCheck accepted.brokers_named ▸ checked, ?_⟩
  rw [reordered.sortedBrokers accepted.brokers_named, reordered.sortedWorkers accepted, ← reordered.rest]

end

end RabbitRs
