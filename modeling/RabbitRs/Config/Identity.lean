import Mathlib.Data.List.Perm.Basic
import RabbitRs.Config.Order
import RabbitRs.Config.Separation
import RabbitRs.Topology.Conflict

/-!
The fingerprint as an identity of configurations: pools are shared by it.
-/

namespace RabbitRs

open Codec

def WorkerProfile.behaviour (worker : WorkerProfile) : WorkerProfile :=
  { worker with scheduler := { worker.scheduler with maxInFlight := none } }

def PublisherConfigSection.behaviour (publisher : PublisherConfigSection) : PublisherConfigSection :=
  { publisher with mandatory := true, flushInterval := .zero }

/-- The configuration without what is left out of the fingerprint on purpose: the flush interval
and the mandatory flag of the publisher, and the bound of the scheduler that nothing reads. -/
def Config.behaviour (config : Config) : Config :=
  { config with
    workers := config.workers.map (·.behaviour)
    publisher := config.publisher.behaviour }

theorem ValidatedConfig.legible (v : ValidatedConfig) (legible : v.config.Legible) :
    ∀ worker ∈ v.config.workers, worker.Legible := by
  obtain ⟨config, raw, accepted⟩ := v
  obtain ⟨checked, _, rfl⟩ := canonicalize_ok.mp accepted
  intro worker member
  obtain ⟨short, subscriptions⟩ := legible.workers worker member
  obtain ⟨source, inside, rfl⟩ := List.mem_map.mp ((List.mem_insertionSort _).mp member)
  have sorted := List.perm_insertionSort (fun a b => a.name ≤ b.name) source.subscriptions
  have valid := checked.workers_valid source inside
  simp only [validateWorker, check_bind_ok, refuse_ok, validateSubscriptions_ok] at valid
  obtain ⟨subscribed, -, -, valid⟩ := valid
  refine ⟨short, fun sub listed => ⟨subscriptions sub listed, ?_⟩, ?_⟩
  · have weighted := valid sub (sorted.mem_iff.mp listed)
    simp only [validateSubscription, check_bind_ok, refuse_ok] at weighted
    simpa using weighted.2.1
  · rw [← sorted.isEmpty_eq, List.isEmpty_eq_false_iff] at subscribed
    exact subscribed

theorem sectionStart_of_workers {config : Config} (legible : config.Legible)
    (workers : ∀ worker ∈ config.workers, worker.Legible) (r : Bytes) :
    SectionStart (config.workers.flatMap hashWorker ++ (hashDelay config.delay ++ r)) :=
  next_flatMap (fun _ start => .inr start) (fun _ legible r _ => hashWorker_sectionStart legible r) workers
    (hashDelay_start legible.buckets r)

theorem ValidatedConfig.bytes_iff {v w : ValidatedConfig} (legible : v.config.Legible) (legible' : w.config.Legible) :
    fingerprintBytes v.config = fingerprintBytes w.config ↔ v.config.hashed = w.config.hashed := by
  have shortMode (mode : TopologyMode) : Short (topologyModeName mode) := by cases mode <;> decide
  have shortKind (kind : QueueKind) : Short (queueTypeName kind) := by cases kind <;> decide
  have workers := v.legible legible
  have workers' := w.legible legible'
  constructor
  · intro same
    simp only [fingerprintBytes, List.append_assoc] at same
    obtain ⟨modes, same⟩ := hashValue_inj (shortMode _) (shortMode _) same
    obtain ⟨brokers, same⟩ := hashBrokers_separate _ _ legible.brokers legible'.brokers _ _
      (sectionStart_of_workers legible workers _) (sectionStart_of_workers legible' workers' _) same
    obtain ⟨profiles, same⟩ := hashWorkers_separate _ _ workers workers' _ _ (hashDelay_start legible.buckets _)
      (hashDelay_start legible'.buckets _) same
    obtain ⟨delay, same⟩ := hashDelay_inj legible.buckets legible'.buckets same
    obtain ⟨deadLetter, same⟩ := hashDeadLetter_inj legible.deadLetter legible'.deadLetter same
    obtain ⟨deliveryLimit, same⟩ := hashDeliveryLimit_inj same
    obtain ⟨routes, same⟩ := hashRoutes_separate _ _ legible.routes legible'.routes _ _
      ⟨_, List.append_assoc _ _ _⟩ ⟨_, List.append_assoc _ _ _⟩ same
    obtain ⟨publisher, same⟩ := hashPublisher_inj same
    obtain ⟨consumer, same⟩ := hashConsumer_inj same
    obtain ⟨kinds, same⟩ := hashValue_inj (shortKind _) (shortKind _) same
    obtain ⟨durable, _⟩ := flag_inj (by decide) (by decide) (by decide) (congrArg (· ++ []) same)
    rw [List.map_id, List.map_id] at routes
    simp only [Config.hashed, Config.mk.injEq]
    exact ⟨brokers, profiles, topologyModeName_injective modes, routes, delay, deadLetter, deliveryLimit, publisher,
      consumer, queueTypeName_injective kinds, durable⟩
  · intro same
    rw [← fingerprintBytes_hashed v.config, same, fingerprintBytes_hashed]

theorem Config.validate_ok {raw : Config} {v : ValidatedConfig} :
    raw.validate = .ok v ↔ raw.canonicalize = .ok v.config := by
  unfold Config.validate
  split
  case h_1 config accepted =>
    constructor
    · intro same
      obtain rfl := Except.ok.inj same
      exact accepted
    · intro same
      obtain ⟨_, _⟩ := v
      obtain rfl := Except.ok.inj (accepted.symm.trans same)
      rfl
  case h_2 error refused => simp [refused]

/-- Two configurations that can be read back are hashed alike exactly when the hash sees no difference, and
have one fingerprint exactly then if the digest does not collide on them. Where the hash drops nothing but what
it is meant to, they behave alike. No order of the input's lists changes what is accepted or its fingerprint. -/
theorem fingerprint_identifies (sha256 : Bytes → Bytes) :
    (∀ v w : ValidatedConfig, v.config.Legible → w.config.Legible →
      (fingerprintBytes v.config = fingerprintBytes w.config ↔ v.config.hashed = w.config.hashed) ∧
      ((v.fingerprint sha256 = w.fingerprint sha256 → fingerprintBytes v.config = fingerprintBytes w.config) →
        (v.fingerprint sha256 = w.fingerprint sha256 ↔ v.config.hashed = w.config.hashed) ∧
        (v.config.hashed = v.config.behaviour → w.config.hashed = w.config.behaviour →
          (v.fingerprint sha256 = w.fingerprint sha256 ↔ v.config.behaviour = w.config.behaviour)))) ∧
    ∀ raw other : Config, raw.Reordered other → ∀ v, raw.validate = .ok v → other.validate = .ok v := by
  refine ⟨fun v w legible legible' => ?_, fun raw other reordered v accepted => ?_⟩
  · have bytes := ValidatedConfig.bytes_iff legible legible'
    refine ⟨bytes, fun apart => ?_⟩
    have prints : v.fingerprint sha256 = w.fingerprint sha256 ↔ v.config.hashed = w.config.hashed :=
      Iff.trans ⟨apart, congrArg sha256⟩ bytes
    refine ⟨prints, fun exactly exactly' => ?_⟩
    rw [prints, exactly, exactly']
  · exact Config.validate_ok.mpr (reordered.canonicalize (Config.validate_ok.mp accepted))

def westBroker : BrokerConfig := { mainBroker with name := "west", hosts := [⟨"west", 5672⟩, ⟨"east", 5672⟩] }

def keyedConfig (brokers : List BrokerConfig) (routingKey : Option String) : Config where
  brokers
  workers := [{ name := "billing", subscriptions := [ordersSubscription], scheduler := .weightedFair }]
  topologyMode := .declare
  deadLetter := some { enabled := true, exchange := "dlx", queue := "dead", routingKey }

def keyed (routingKey : Option String) : ValidatedConfig :=
  ⟨keyedConfig [mainBroker, westBroker.sorted] routingKey, keyedConfig [mainBroker, westBroker.sorted] routingKey,
    by cases routingKey <;> rfl⟩

theorem keyed_legible {routingKey : Option String} (short : Short (routingKey.getD "")) :
    (keyed routingKey).config.Legible where
  brokers := by
    intro broker member
    simp only [keyed, keyedConfig, List.mem_cons, List.not_mem_nil, or_false] at member
    rcases member with rfl | rfl
    · exact ⟨by decide, by decide, by decide⟩
    · exact ⟨by decide, by decide, by decide⟩
  workers := by
    intro worker member
    obtain rfl := List.mem_singleton.mp member
    refine ⟨by decide, fun sub listed => ?_⟩
    obtain rfl := List.mem_singleton.mp listed
    exact ⟨by decide, by decide⟩
  buckets := (by decide +kernel : Short (debugDurations ({} : DelayConfig).buckets))
  deadLetter := by
    intro dl on
    cases on
    simp only [DeadLetterConfig.Legible, List.forall_mem_cons, List.not_mem_nil, false_imp_iff, implies_true, and_true]
    exact ⟨by decide, by decide, short⟩
  routes := by simp [keyed, keyedConfig]

/-- SHA-256 on the two streams below. -/
def keyedDigest (bytes : Bytes) : Bytes :=
  if bytes = fingerprintBytes (keyed none).config then
    bigEndian 32 0x0da317e82b14da07a283704b87a3d04d14c307192ba30f1a9a90486c21c7e0eb
  else
    bigEndian 32 0x5242919a00a173a7d14b3a74ba0e4a9b1cd118443eef1e5bccb278933e4fbb96

theorem fingerprint_identifies_keyed :
    (keyed none).fingerprint keyedDigest ≠ (keyed (some "dead")).fingerprint keyedDigest ∧
      (keyed none).config.behaviour ≠ (keyed (some "dead")).config.behaviour ∧
      (keyedConfig [westBroker, mainBroker] none).validate = .ok (keyed none) := by
  have differ : (keyed none).fingerprint keyedDigest ≠ (keyed (some "dead")).fingerprint keyedDigest := by decide +kernel
  obtain ⟨identity, order⟩ := fingerprint_identifies keyedDigest
  obtain ⟨-, identifies⟩ := identity (keyed none) (keyed (some "dead")) (keyed_legible (by decide)) (keyed_legible (by decide))
  obtain ⟨-, behaves⟩ := identifies fun same => absurd same differ
  refine ⟨differ, fun same => differ ((behaves (by decide) (by decide)).mpr same),
    order (keyedConfig [mainBroker, westBroker.sorted] none) _ ?_ _ rfl⟩
  refine ⟨⟨_, .swap _ _ _, .cons ⟨?_, rfl⟩ (.cons ⟨.refl _, rfl⟩ .nil)⟩,
    ⟨_, .refl _, .cons ⟨.refl _, rfl⟩ .nil⟩, rfl⟩
  exact List.perm_insertionSort _ _

/-- No routing key and an empty one are hashed alike, and the plans they compile to differ. -/
theorem empty_routing_key_shares_fingerprint :
    (keyedConfig [mainBroker, westBroker] none).validate = .ok (keyed none) ∧
      (keyedConfig [mainBroker, westBroker] (some "")).validate = .ok (keyed (some "")) ∧
      fingerprintBytes (keyed none).config = fingerprintBytes (keyed (some "")).config ∧
      (keyed none).config.behaviour ≠ (keyed (some "")).config.behaviour ∧
      generationPlan (keyed none) [] ≠ generationPlan (keyed (some "")) [] := by
  refine ⟨rfl, rfl, rfl, fun same => ?_, fun same => ?_⟩
  · exact absurd (congrArg Config.deadLetter same) (by decide)
  · exact absurd (congrArg (fun plan => plan.queues.map (·.deadLetterRoutingKey)) same) (by decide +kernel)

theorem reordered_sort {α : Type} {related : α → α → Prop} {change : α → α} (changes : ∀ a, related a (change a))
    (le : α → α → Prop) [DecidableRel le] (xs : List α) :
    ∃ middle, xs.Perm middle ∧ List.Forall₂ related middle ((xs.map change).insertionSort le) := by
  have composed : Relation.Comp (List.Forall₂ related) List.Perm xs ((xs.map change).insertionSort le) := by
    refine ⟨xs.map change, ?_, (List.perm_insertionSort _ _).symm⟩
    rw [List.forall₂_map_right_iff, List.forall₂_same]
    exact fun a _ => changes a
  rwa [List.forall₂_comp_perm_eq_perm_comp_forall₂] at composed

/-- Validation returns its input in another order, and returns what it returned again. -/
theorem validated_again {raw : Config} {v : ValidatedConfig} (accepted : raw.validate = .ok v) :
    raw.Reordered v.config ∧ v.config.validate = .ok v := by
  have ok := Config.validate_ok.mp accepted
  have reordered : raw.Reordered v.config := by
    obtain ⟨-, -, sorted⟩ := canonicalize_ok.mp ok
    rw [sorted]
    refine ⟨reordered_sort (fun broker => ⟨(List.perm_insertionSort _ _).symm, rfl⟩) _ _,
      reordered_sort (fun worker => ⟨(List.perm_insertionSort _ _).symm, rfl⟩) _ _, rfl⟩
  exact ⟨reordered, Config.validate_ok.mpr (reordered.canonicalize ok)⟩

theorem keyed_validated_again : (keyed none).config.brokers ≠ [westBroker, mainBroker] ∧
    (keyed none).config.validate = .ok (keyed none) :=
  ⟨by decide, (validated_again (by rfl : (keyedConfig [mainBroker, westBroker] none).validate = .ok (keyed none))).2⟩

end RabbitRs
