import RabbitRs.Config.Fingerprint

/-!
When the fingerprint bytes determine the configuration. The stream is read from the front: the lists
without a count end where the next bytes cannot start another item.
-/

namespace RabbitRs

open Codec

/-! ### What is hashed of a configuration -/

namespace Duration

def wholeSecs (d : Duration) : Duration := ofNanos (d.asSecs * 10 ^ 9)

def wholeMillis (d : Duration) : Duration := ofNanos (d.asMillis * 10 ^ 6)

end Duration

def TlsConfig.hashed (tls : TlsConfig) : TlsConfig :=
  { tls with
    serverName := tls.serverName.filter (· ≠ "")
    caCert := tls.caCert.filter (· ≠ "")
    clientCert := tls.clientCert.filter (· ≠ "")
    clientKey := tls.clientKey.filter (· ≠ "") }

def BrokerConfig.hashed (broker : BrokerConfig) : BrokerConfig :=
  { broker with tls := broker.tls.hashed, heartbeat := broker.heartbeat.wholeSecs }

def PrefetchConfig.hashed : PrefetchConfig → PrefetchConfig
  | .fixed value => .fixed value
  | .adaptive initial min max targetBuffer =>
    .adaptive initial min max (.ofNanos (Min.min targetBuffer.asMillis u64Max * 10 ^ 6))

def SubscriptionConfig.hashed (sub : SubscriptionConfig) : SubscriptionConfig :=
  { sub with prefetch := sub.prefetch.hashed }

def WorkerProfile.hashed (worker : WorkerProfile) : WorkerProfile where
  name := worker.name
  subscriptions := worker.subscriptions.map (·.hashed)
  scheduler := { worker.scheduler with maxInFlight := none }

def DelayConfig.hashed (delay : DelayConfig) : DelayConfig :=
  { delay with queueExpiryMargin := delay.queueExpiryMargin.wholeSecs }

def DeadLetterConfig.hashed (dl : DeadLetterConfig) : DeadLetterConfig :=
  { dl with routingKey := dl.routingKey.filter (· ≠ "") }

def PublisherConfigSection.hashed (publisher : PublisherConfigSection) : PublisherConfigSection :=
  { publisher with
    mandatory := true
    confirmTimeout := publisher.confirmTimeout.wholeMillis
    flushInterval := .zero }

def ConsumerConfigSection.hashed (consumer : ConsumerConfigSection) : ConsumerConfigSection where
  waitTimeout := consumer.waitTimeout.wholeMillis
  maxAttempts := consumer.maxAttempts.filter (· ≠ 0)

/-- A configuration as the hash sees it: durations in whole units, no option for a text that is empty,
and nothing of the fields that are left out. -/
def Config.hashed (config : Config) : Config :=
  { config with
    brokers := config.brokers.map (·.hashed)
    workers := config.workers.map (·.hashed)
    delay := config.delay.hashed
    deadLetter := config.deadLetter.map (·.hashed)
    publisher := config.publisher.hashed
    consumer := config.consumer.hashed }

/-! ### Reading the stream -/

def Bracketed (text : String) : Prop := text.toList.head? = some '['

instance : DecidablePred Bracketed := fun text =>
  inferInstanceAs (Decidable (text.toList.head? = some '['))

/-- Neither a vhost nor the broker of a subscription passes for the list of delays. -/
def Apart (name next : String) : Prop := ∀ mode, name = delayModeName mode → ¬Bracketed next

instance (name next : String) : Decidable (Apart name next) :=
  decidable_of_iff (∀ mode ∈ [DelayMode.auto, .plugin, .ttl], name = delayModeName mode → ¬Bracketed next)
    ⟨fun apart mode => apart mode (by cases mode <;> decide), fun apart mode _ => apart mode⟩

structure BrokerConfig.Legible (broker : BrokerConfig) : Prop where
  short : ∀ text ∈ [broker.name, broker.vhost, broker.credentials.username, broker.credentials.password,
    broker.tls.serverName.getD "", broker.tls.caCert.getD "", broker.tls.clientCert.getD "",
    broker.tls.clientKey.getD ""], Short text
  hosts : ∀ endpoint ∈ broker.hosts, Short endpoint.host ∧ endpoint.port ≠ 0
  apart : Apart broker.name broker.vhost

structure SubscriptionConfig.Legible (sub : SubscriptionConfig) : Prop where
  short : ∀ text ∈ [sub.name, sub.broker, sub.queue], Short text
  apart : Apart sub.name sub.broker

/-- With what validation accepted. -/
structure WorkerProfile.Legible (worker : WorkerProfile) : Prop where
  short : Short worker.name
  subscriptions : ∀ sub ∈ worker.subscriptions, sub.Legible ∧ sub.weight ≠ 0
  subscribed : worker.subscriptions ≠ []

def DeadLetterConfig.Legible (dl : DeadLetterConfig) : Prop :=
  ∀ text ∈ [dl.exchange, dl.queue, dl.routingKey.getD ""], Short text

/-- A configuration whose fingerprint bytes can be read back: texts of a length that fits six bytes,
endpoints with a port, and nothing that passes for the section of the delays. -/
structure Config.Legible (config : Config) : Prop where
  brokers : ∀ broker ∈ config.brokers, broker.Legible
  workers : ∀ worker ∈ config.workers, Short worker.name ∧ ∀ sub ∈ worker.subscriptions, sub.Legible
  buckets : Short (debugDurations config.delay.buckets)
  deadLetter : ∀ dl, config.deadLetter = some dl → dl.Legible
  routes : ∀ entry ∈ config.routes, ∀ text ∈ [entry.1, entry.2.broker, entry.2.exchange, entry.2.routingKey],
    Short text

variable {d e : Duration} {a b : String} {r s : Bytes}

theorem wholeSecs_inj (same : bigEndian 8 d.asSecs ++ r = bigEndian 8 e.asSecs ++ s) :
    d.wholeSecs = e.wholeSecs ∧ r = s := by
  have bound (x : Duration) : x.asSecs < 256 ^ 8 := Nat.div_lt_of_lt_mul (by have := x.bounded; omega)
  obtain ⟨seconds, rest⟩ := bigEndian_inj (bound d) (bound e) same
  exact ⟨by rw [Duration.wholeSecs, seconds, Duration.wholeSecs], rest⟩

theorem wholeMillis_inj (same : bigEndian 16 d.asMillis ++ r = bigEndian 16 e.asMillis ++ s) :
    d.wholeMillis = e.wholeMillis ∧ r = s := by
  have bound (x : Duration) : x.asMillis < 256 ^ 16 := Nat.div_lt_of_lt_mul (by have := x.bounded; omega)
  obtain ⟨millis, rest⟩ := bigEndian_inj (bound d) (bound e) same
  exact ⟨by rw [Duration.wholeMillis, millis, Duration.wholeMillis], rest⟩

def TwoTexts (t : Bytes) : Prop :=
  ∃ x y rest, t = hashValue x ++ (hashValue y ++ rest) ∧ Short x ∧ Short y

def WorkerStart (t : Bytes) : Prop :=
  ∃ worker sub broker queue weight rest,
    t = hashValue worker ++ (hashValue "weighted_fair" ++ (hashValue sub ++ (hashValue broker ++
      (hashValue queue ++ (bigEndian 2 weight ++ rest))))) ∧
    Short worker ∧ Short sub ∧ Short broker ∧ Short queue ∧ weight ≠ 0 ∧ weight < 256 ^ 2

def DelayStart (t : Bytes) : Prop :=
  ∃ mode buckets rest, t = hashValue (delayModeName mode) ++ (hashValue buckets ++ rest) ∧ Short buckets ∧
    Bracketed buckets

theorem short_delayModeName (mode : DelayMode) : Short (delayModeName mode) := by cases mode <;> decide

theorem Apart.not_delayStart (apart : Apart a b) (shortA : Short a) (shortB : Short b) :
    ¬DelayStart (hashValue a ++ (hashValue b ++ r)) := by
  rintro ⟨mode, buckets, rest, same, shortBuckets, bracketed⟩
  obtain ⟨named, same⟩ := hashValue_inj shortA (short_delayModeName mode) same
  obtain ⟨list, _⟩ := hashValue_inj shortB shortBuckets same
  exact apart mode named (list ▸ bracketed)

def SectionStart (t : Bytes) : Prop := WorkerStart t ∨ DelayStart t

theorem SectionStart.twoTexts {t : Bytes} (start : SectionStart t) : TwoTexts t := by
  rcases start with ⟨_, _, _, _, _, _, rfl, short, _⟩ | ⟨mode, _, _, rfl, shortBuckets, _⟩
  · exact ⟨_, _, _, rfl, short, by decide⟩
  · exact ⟨_, _, _, rfl, short_delayModeName mode, shortBuckets⟩

theorem hashEndpoints_separate : Separates TwoTexts
    (fun hosts : List Endpoint => ∀ endpoint ∈ hosts, Short endpoint.host ∧ endpoint.port ≠ 0)
    (List.map id) (List.flatMap hashEndpoint) := by
  refine @separates_flatMap Endpoint UInt8 _ (fun _ => True) _
    (fun endpoint => Short endpoint.host ∧ endpoint.port ≠ 0) id hashEndpoint ?_ ?_ ?_ ?_
  · rintro ⟨host, port⟩ ⟨host', port'⟩ ⟨short, _⟩ ⟨short', _⟩ r s _ _ same
    simp only [hashEndpoint, List.append_assoc] at same
    obtain ⟨hosts, same⟩ := hashValue_inj short short' same
    obtain ⟨ports, same⟩ := uint16_inj same
    exact ⟨Endpoint.mk.injEq _ _ _ _ ▸ ⟨hosts, ports⟩, same⟩
  · exact fun _ _ => trivial
  · exact fun _ _ _ _ => trivial
  · rintro ⟨host, port⟩ ⟨short, port_pos⟩ r _ ⟨x, y, rest, same, shortX, shortY⟩
    simp only [hashEndpoint, List.append_assoc] at same
    obtain ⟨_, same⟩ := hashValue_inj short shortX same
    exact number_ne_length (fun zero => port_pos (UInt16.toNat_inj.mp zero)) port.toNat_lt shortY same

theorem hashBroker_separates : Separates TwoTexts BrokerConfig.Legible BrokerConfig.hashed hashBroker := by
  rintro ⟨name, hosts, vhost, ⟨user, pass⟩, ⟨enabled, ca, cert, key, verify, server⟩, heartbeat⟩
    ⟨name', hosts', vhost', ⟨user', pass'⟩, ⟨enabled', ca', cert', key', verify', server'⟩, heartbeat'⟩
    legible legible' r s nextR nextS same
  have short := legible.short
  have short' := legible'.short
  simp only [List.forall_mem_cons] at short short'
  simp only [hashBroker, List.append_assoc] at same
  obtain ⟨names, same⟩ := hashValue_inj short.1 short'.1 same
  obtain ⟨vhosts, same⟩ := hashValue_inj short.2.1 short'.2.1 same
  obtain ⟨users, same⟩ := hashValue_inj short.2.2.1 short'.2.2.1 same
  obtain ⟨passwords, same⟩ := hashValue_inj short.2.2.2.1 short'.2.2.2.1 same
  obtain ⟨flags, same⟩ := flag_inj (by decide) (by decide) (by decide) same
  cases verify
  cases verify'
  obtain ⟨_, same⟩ := hashValue_inj (by decide) (by decide) same
  obtain ⟨servers, same⟩ := hashValue_inj short.2.2.2.2.1 short'.2.2.2.2.1 same
  obtain ⟨authorities, same⟩ := hashValue_inj short.2.2.2.2.2.1 short'.2.2.2.2.2.1 same
  obtain ⟨certificates, same⟩ := hashValue_inj short.2.2.2.2.2.2.1 short'.2.2.2.2.2.2.1 same
  obtain ⟨keys, same⟩ := hashValue_inj short.2.2.2.2.2.2.2.1 short'.2.2.2.2.2.2.2.1 same
  obtain ⟨heartbeats, same⟩ := wholeSecs_inj same
  obtain ⟨endpoints, same⟩ := hashEndpoints_separate _ _ legible.hosts legible'.hosts _ _ nextR nextS same
  rw [List.map_id, List.map_id] at endpoints
  refine ⟨?_, same⟩
  simp only [BrokerConfig.hashed, TlsConfig.hashed, BrokerConfig.mk.injEq, Credentials.mk.injEq, TlsConfig.mk.injEq,
    true_and]
  exact ⟨names, endpoints, vhosts, ⟨users, passwords⟩, ⟨flags, filter_of_getD authorities,
    filter_of_getD certificates, filter_of_getD keys, filter_of_getD servers⟩, heartbeats⟩

theorem hashBroker_twoTexts {broker : BrokerConfig} (legible : broker.Legible) (r : Bytes) :
    TwoTexts (hashBroker broker ++ r) := by
  simp only [hashBroker, List.append_assoc]
  exact ⟨_, _, _, rfl, legible.short _ (by simp), legible.short _ (by simp)⟩

theorem hashBroker_not_sectionStart {broker : BrokerConfig} (legible : broker.Legible) (r : Bytes) :
    ¬SectionStart (hashBroker broker ++ r) := by
  have short := legible.short
  simp only [List.forall_mem_cons] at short
  simp only [hashBroker, List.append_assoc]
  rintro (⟨worker, sub, host, queue, weight, rest, same, shortWorker, shortSub, shortHost, shortQueue,
    positive, bound⟩ | start)
  · obtain ⟨_, same⟩ := hashValue_inj short.1 shortWorker same
    obtain ⟨_, same⟩ := hashValue_inj short.2.1 (by decide) same
    obtain ⟨_, same⟩ := hashValue_inj short.2.2.1 shortSub same
    obtain ⟨_, same⟩ := hashValue_inj short.2.2.2.1 shortHost same
    obtain ⟨_, same⟩ := hashValue_inj (by split <;> decide) shortQueue same
    exact number_ne_length positive bound (by cases broker.tls.verify; decide) same.symm
  · exact legible.apart.not_delayStart short.1 short.2.1 start

theorem hashBrokers_separate : Separates SectionStart
    (fun brokers : List BrokerConfig => ∀ broker ∈ brokers, broker.Legible) (List.map BrokerConfig.hashed)
    (List.flatMap hashBroker) :=
  separates_flatMap hashBroker_separates (fun _ start => start.twoTexts)
    (fun _ legible r _ => hashBroker_twoTexts legible r) (fun _ legible r _ => hashBroker_not_sectionStart legible r)

theorem hashPrefetch_separates :
    Separates (fun _ => True) (fun _ => True) PrefetchConfig.hashed hashPrefetch := by
  intro a b _ _ r s _ _ same
  cases a with
  | fixed value =>
    cases b with
    | fixed other =>
      simp only [hashPrefetch, List.append_assoc] at same
      obtain ⟨_, same⟩ := hashValue_inj (by decide) (by decide) same
      obtain ⟨values, same⟩ := uint16_inj same
      exact ⟨by rw [values], same⟩
    | adaptive =>
      simp only [hashPrefetch, List.append_assoc] at same
      exact absurd (hashValue_inj (by decide) (by decide) same).1 (by decide)
  | adaptive initial min max target =>
    cases b with
    | fixed =>
      simp only [hashPrefetch, List.append_assoc] at same
      exact absurd (hashValue_inj (by decide) (by decide) same).1 (by decide)
    | adaptive initial' min' max' target' =>
      simp only [hashPrefetch, List.append_assoc] at same
      obtain ⟨_, same⟩ := hashValue_inj (by decide) (by decide) same
      obtain ⟨initials, same⟩ := uint16_inj same
      obtain ⟨mins, same⟩ := uint16_inj same
      obtain ⟨maxs, same⟩ := uint16_inj same
      have bound (n : Nat) : Min.min n u64Max < 256 ^ 8 := (Nat.min_le_right _ _).trans_lt (by decide)
      obtain ⟨millis, same⟩ := bigEndian_inj (bound _) (bound _) same
      exact ⟨by simp only [PrefetchConfig.hashed, initials, mins, maxs, millis], same⟩

theorem hashSubscription_separates :
    Separates (fun _ => True) (fun sub => sub.Legible ∧ sub.weight ≠ 0) SubscriptionConfig.hashed
      hashSubscription := by
  rintro ⟨name, broker, queue, weight, prefetch, bytes, early, noAck⟩
    ⟨name', broker', queue', weight', prefetch', bytes', early', noAck'⟩ ⟨⟨short, -⟩, -⟩ ⟨⟨short', -⟩, -⟩ r s _ _ same
  simp only [List.forall_mem_cons] at short short'
  simp only [hashSubscription, List.append_assoc] at same
  obtain ⟨names, same⟩ := hashValue_inj short.1 short'.1 same
  obtain ⟨brokers, same⟩ := hashValue_inj short.2.1 short'.2.1 same
  obtain ⟨queues, same⟩ := hashValue_inj short.2.2.1 short'.2.2.1 same
  obtain ⟨weights, same⟩ := uint16_inj same
  obtain ⟨prefetches, same⟩ := hashPrefetch_separates _ _ trivial trivial _ _ trivial trivial same
  obtain ⟨budgets, same⟩ := uint64_inj same
  obtain ⟨earlies, same⟩ := flag_inj (by decide) (by decide) (by decide) same
  obtain ⟨noAcks, same⟩ := flag_inj (by decide) (by decide) (by decide) same
  refine ⟨?_, same⟩
  simp only [SubscriptionConfig.hashed, SubscriptionConfig.mk.injEq]
  exact ⟨names, brokers, queues, weights, prefetches, budgets, earlies, noAcks⟩

theorem hashSubscription_not_sectionStart {sub : SubscriptionConfig} (legible : sub.Legible)
    (weighted : sub.weight ≠ 0) (r : Bytes) : ¬SectionStart (hashSubscription sub ++ r) := by
  have short := legible.short
  simp only [List.forall_mem_cons] at short
  simp only [hashSubscription, List.append_assoc]
  rintro (⟨worker, first, host, queue, weight, rest, same, shortWorker, shortFirst, shortHost, _⟩
    | start)
  · obtain ⟨_, same⟩ := hashValue_inj short.1 shortWorker same
    obtain ⟨_, same⟩ := hashValue_inj short.2.1 (by decide) same
    obtain ⟨_, same⟩ := hashValue_inj short.2.2.1 shortFirst same
    exact number_ne_length (fun zero => weighted (UInt16.toNat_inj.mp zero)) sub.weight.toNat_lt shortHost same
  · exact legible.apart.not_delayStart short.1 short.2.1 start

theorem hashSubscriptions_separate : Separates SectionStart
    (fun subs : List SubscriptionConfig => ∀ sub ∈ subs, sub.Legible ∧ sub.weight ≠ 0)
    (List.map SubscriptionConfig.hashed) (List.flatMap hashSubscription) :=
  separates_flatMap hashSubscription_separates (fun _ _ => trivial) (fun _ _ _ _ => trivial)
    (fun _ legible r _ => hashSubscription_not_sectionStart legible.1 legible.2 r)

theorem schedulerName_eq (strategy : SchedulerStrategy) : schedulerName strategy = "weighted_fair" := by
  cases strategy
  rfl

theorem hashWorker_separates : Separates SectionStart WorkerProfile.Legible WorkerProfile.hashed hashWorker := by
  rintro ⟨name, subs, ⟨strategy, tuned⟩⟩ ⟨name', subs', ⟨strategy', tuned'⟩⟩ legible legible' r s nextR
    nextS same
  simp only [hashWorker, List.append_assoc] at same
  cases strategy
  cases strategy'
  obtain ⟨names, same⟩ := hashValue_inj legible.short legible'.short same
  obtain ⟨_, same⟩ := hashValue_inj (by decide) (by decide) same
  obtain ⟨subscriptions, same⟩ := hashSubscriptions_separate _ _ legible.subscriptions
    legible'.subscriptions _ _ nextR nextS same
  refine ⟨?_, same⟩
  simp only [WorkerProfile.hashed, WorkerProfile.mk.injEq, and_true]
  exact ⟨names, subscriptions⟩

theorem hashWorker_sectionStart {worker : WorkerProfile} (legible : worker.Legible) (r : Bytes) :
    SectionStart (hashWorker worker ++ r) := by
  cases subs : worker.subscriptions with
  | nil => exact absurd subs legible.subscribed
  | cons sub rest =>
    obtain ⟨⟨short, -⟩, weighted⟩ := legible.subscriptions sub (subs ▸ List.mem_cons_self)
    simp only [List.forall_mem_cons] at short
    simp only [hashWorker, schedulerName_eq, subs, List.flatMap_cons, hashSubscription, List.append_assoc]
    exact .inl ⟨_, _, _, _, _, _, rfl, legible.short, short.1, short.2.1, short.2.2.1,
      fun zero => weighted (UInt16.toNat_inj.mp zero), sub.weight.toNat_lt⟩

theorem hashWorker_not_delayStart {worker : WorkerProfile} (legible : worker.Legible) (r : Bytes) :
    ¬DelayStart (hashWorker worker ++ r) := by
  simp only [hashWorker, schedulerName_eq, List.append_assoc]
  exact Apart.not_delayStart (fun _ _ => by decide) legible.short (by decide)

theorem hashWorkers_separate : Separates DelayStart
    (fun workers : List WorkerProfile => ∀ worker ∈ workers, worker.Legible) (List.map WorkerProfile.hashed)
    (List.flatMap hashWorker) :=
  separates_flatMap hashWorker_separates (fun _ start => .inr start)
    (fun _ legible r _ => hashWorker_sectionStart legible r)
    (fun _ legible r _ => hashWorker_not_delayStart legible r)

theorem hashDelay_start {delay : DelayConfig} (short : Short (debugDurations delay.buckets)) (r : Bytes) :
    DelayStart (hashDelay delay ++ r) := by
  simp only [hashDelay, List.append_assoc]
  refine ⟨_, _, _, rfl, short, ?_⟩
  simp [Bracketed, debugDurations]

theorem hashDelay_inj {a b : DelayConfig} (shortA : Short (debugDurations a.buckets))
    (shortB : Short (debugDurations b.buckets)) (same : hashDelay a ++ r = hashDelay b ++ s) :
    a.hashed = b.hashed ∧ r = s := by
  obtain ⟨mode, buckets, maxBuckets, margin⟩ := a
  obtain ⟨mode', buckets', maxBuckets', margin'⟩ := b
  simp only [hashDelay, List.append_assoc] at same
  obtain ⟨modes, same⟩ := hashValue_inj (short_delayModeName _) (short_delayModeName _) same
  obtain ⟨rendered, same⟩ := hashValue_inj shortA shortB same
  obtain ⟨maxima, same⟩ := uint64_inj same
  obtain ⟨margins, same⟩ := wholeSecs_inj same
  refine ⟨?_, same⟩
  simp only [DelayConfig.hashed, DelayConfig.mk.injEq]
  exact ⟨delayModeName_injective modes, debugDurations_injective rendered, maxima, margins⟩

theorem hashDeadLetter_inj {a b : Option DeadLetterConfig} (legibleA : ∀ dl, a = some dl → dl.Legible)
    (legibleB : ∀ dl, b = some dl → dl.Legible) (same : hashDeadLetter a ++ r = hashDeadLetter b ++ s) :
    a.map (·.hashed) = b.map (·.hashed) ∧ r = s := by
  cases a with
  | none =>
    cases b with
    | none => exact ⟨rfl, (hashValue_inj (by decide) (by decide) same).2⟩
    | some dl =>
      simp only [hashDeadLetter, List.append_assoc] at same
      exact absurd (hashValue_inj (by decide) (by decide) same).1 (by decide)
  | some dl =>
    cases b with
    | none =>
      simp only [hashDeadLetter, List.append_assoc] at same
      exact absurd (hashValue_inj (by decide) (by decide) same).1 (by decide)
    | some dl' =>
      have short := legibleA dl rfl
      have short' := legibleB dl' rfl
      simp only [DeadLetterConfig.Legible, List.forall_mem_cons] at short short'
      obtain ⟨enabled, exchange, queue, key⟩ := dl
      obtain ⟨enabled', exchange', queue', key'⟩ := dl'
      simp only [hashDeadLetter, List.append_assoc] at same
      obtain ⟨_, same⟩ := hashValue_inj (by decide) (by decide) same
      obtain ⟨flags, same⟩ := flag_inj (by decide) (by decide) (by decide) same
      obtain ⟨exchanges, same⟩ := hashValue_inj short.1 short'.1 same
      obtain ⟨queues, same⟩ := hashValue_inj short.2.1 short'.2.1 same
      obtain ⟨keys, same⟩ := hashValue_inj short.2.2.1 short'.2.2.1 same
      refine ⟨?_, same⟩
      simp only [Option.map_some, DeadLetterConfig.hashed, Option.some.injEq, DeadLetterConfig.mk.injEq]
      exact ⟨flags, exchanges, queues, filter_of_getD keys⟩

theorem hashDeliveryLimit_inj {a b : Option UInt32}
    (same : hashDeliveryLimit a ++ r = hashDeliveryLimit b ++ s) : a = b ∧ r = s := by
  cases a with
  | none =>
    cases b with
    | none => exact ⟨rfl, (hashValue_inj (by decide) (by decide) same).2⟩
    | some limit =>
      simp only [hashDeliveryLimit, List.append_assoc] at same
      exact absurd (hashValue_inj (by decide) (by decide) same).1 (by decide)
  | some limit =>
    cases b with
    | none =>
      simp only [hashDeliveryLimit, List.append_assoc] at same
      exact absurd (hashValue_inj (by decide) (by decide) same).1 (by decide)
    | some limit' =>
      simp only [hashDeliveryLimit, List.append_assoc] at same
      obtain ⟨limits, same⟩ := uint32_inj (hashValue_inj (by decide) (by decide) same).2
      exact ⟨by rw [limits], same⟩

def PublisherStart (t : Bytes) : Prop := ∃ rest, t = hashValue "publisher" ++ rest

theorem hashRoutes_separate : Separates PublisherStart
    (fun routes : List (String × RouteConfig) => ∀ entry ∈ routes,
      ∀ text ∈ [entry.1, entry.2.broker, entry.2.exchange, entry.2.routingKey], Short text)
    (List.map id) (List.flatMap hashRoute) := by
  refine @separates_flatMap _ UInt8 _ (fun _ => True) _ (fun entry : String × RouteConfig =>
    ∀ text ∈ [entry.1, entry.2.broker, entry.2.exchange, entry.2.routingKey], Short text) id hashRoute ?_ ?_ ?_ ?_
  · rintro ⟨name, ⟨broker, exchange, key⟩⟩ ⟨name', ⟨broker', exchange', key'⟩⟩ short short' r s _ _ same
    simp only [List.forall_mem_cons] at short short'
    simp only [hashRoute, List.append_assoc] at same
    obtain ⟨_, same⟩ := hashValue_inj (by decide) (by decide) same
    obtain ⟨names, same⟩ := hashValue_inj short.1 short'.1 same
    obtain ⟨brokers, same⟩ := hashValue_inj short.2.1 short'.2.1 same
    obtain ⟨exchanges, same⟩ := hashValue_inj short.2.2.1 short'.2.2.1 same
    obtain ⟨keys, same⟩ := hashValue_inj short.2.2.2.1 short'.2.2.2.1 same
    refine ⟨?_, same⟩
    simp only [id_eq, Prod.mk.injEq, RouteConfig.mk.injEq]
    exact ⟨names, brokers, exchanges, keys⟩
  · exact fun _ _ => trivial
  · exact fun _ _ _ _ => trivial
  · rintro entry _ r _ ⟨rest, same⟩
    simp only [hashRoute, List.append_assoc] at same
    exact absurd (hashValue_inj (by decide) (by decide) same).1 (by decide)

theorem hashPublisher_inj {a b : PublisherConfigSection} (same : hashPublisher a ++ r = hashPublisher b ++ s) :
    a.hashed = b.hashed ∧ r = s := by
  have shortMode (mode : SafetyMode) : Short (safetyModeName mode) := by cases mode <;> decide
  simp only [hashPublisher, List.append_assoc] at same
  obtain ⟨_, same⟩ := hashValue_inj (by decide) (by decide) same
  obtain ⟨modes, same⟩ := hashValue_inj (shortMode _) (shortMode _) same
  obtain ⟨confirms, same⟩ := flag_inj (by decide) (by decide) (by decide) same
  obtain ⟨timeouts, same⟩ := wholeMillis_inj same
  refine ⟨?_, same⟩
  simp only [PublisherConfigSection.hashed, PublisherConfigSection.mk.injEq, true_and, and_true]
  exact ⟨safetyModeName_injective modes, confirms, timeouts⟩

theorem hashConsumer_inj {a b : ConsumerConfigSection} (same : hashConsumer a ++ r = hashConsumer b ++ s) :
    a.hashed = b.hashed ∧ r = s := by
  simp only [hashConsumer, List.append_assoc] at same
  obtain ⟨_, same⟩ := hashValue_inj (by decide) (by decide) same
  obtain ⟨waits, same⟩ := wholeMillis_inj same
  obtain ⟨caps, same⟩ := uint32_inj same
  refine ⟨?_, same⟩
  simp only [ConsumerConfigSection.hashed, ConsumerConfigSection.mk.injEq]
  exact ⟨waits, filter_of_getD caps⟩

/-! ### The hash sees no more -/

theorem getD_filter {α : Type} [DecidableEq α] (p : Option α) (default : α) :
    (p.filter (· ≠ default)).getD default = p.getD default := by
  cases p with
  | none => rfl
  | some value => by_cases same : value = default <;> simp [Option.filter, same]

theorem asSecs_wholeSecs (d : Duration) : d.wholeSecs.asSecs = d.asSecs := by
  have := d.bounded
  simp only [Duration.wholeSecs, Duration.asSecs, Duration.ofNanos]
  omega

theorem asMillis_ofMillis {n : Nat} (bound : n < 2 ^ 64 * 10 ^ 3) : (Duration.ofNanos (n * 10 ^ 6)).asMillis = n := by
  simp only [Duration.asMillis, Duration.ofNanos]
  omega

theorem asMillis_wholeMillis (d : Duration) : d.wholeMillis.asMillis = d.asMillis :=
  asMillis_ofMillis (Nat.div_lt_of_lt_mul (by have := d.bounded; omega))

theorem flatMap_hashed {α : Type} {enc : α → Bytes} {hashed : α → α} (same : ∀ a, enc (hashed a) = enc a) (xs : List α) :
    (xs.map hashed).flatMap enc = xs.flatMap enc := by
  rw [List.flatMap_map]
  exact congrArg (List.flatMap · xs) (funext same)

theorem hashBroker_hashed (broker : BrokerConfig) : hashBroker broker.hashed = hashBroker broker := by
  unfold hashBroker BrokerConfig.hashed TlsConfig.hashed
  dsimp only
  rw [getD_filter, getD_filter, getD_filter, getD_filter, asSecs_wholeSecs]

theorem hashPrefetch_hashed (prefetch : PrefetchConfig) : hashPrefetch prefetch.hashed = hashPrefetch prefetch := by
  cases prefetch with
  | fixed => rfl
  | adaptive _ _ _ target =>
    have le : Min.min target.asMillis u64Max ≤ u64Max := Nat.min_le_right _ _
    unfold hashPrefetch PrefetchConfig.hashed
    dsimp only
    rw [asMillis_ofMillis (le.trans_lt (by decide)), Nat.min_eq_left le]

theorem hashSubscription_hashed (sub : SubscriptionConfig) : hashSubscription sub.hashed = hashSubscription sub := by
  unfold hashSubscription SubscriptionConfig.hashed
  dsimp only
  rw [hashPrefetch_hashed]

theorem hashWorker_hashed (worker : WorkerProfile) : hashWorker worker.hashed = hashWorker worker := by
  unfold hashWorker WorkerProfile.hashed
  rw [flatMap_hashed hashSubscription_hashed]

theorem hashDelay_hashed (delay : DelayConfig) : hashDelay delay.hashed = hashDelay delay := by
  unfold hashDelay DelayConfig.hashed
  rw [asSecs_wholeSecs]

theorem hashDeadLetter_hashed (dl : Option DeadLetterConfig) : hashDeadLetter (dl.map (·.hashed)) = hashDeadLetter dl := by
  cases dl with
  | none => rfl
  | some dl =>
    unfold hashDeadLetter DeadLetterConfig.hashed
    dsimp only [Option.map_some]
    rw [getD_filter]

theorem hashPublisher_hashed (publisher : PublisherConfigSection) : hashPublisher publisher.hashed = hashPublisher publisher := by
  unfold hashPublisher PublisherConfigSection.hashed
  rw [asMillis_wholeMillis]

theorem hashConsumer_hashed (consumer : ConsumerConfigSection) : hashConsumer consumer.hashed = hashConsumer consumer := by
  unfold hashConsumer ConsumerConfigSection.hashed
  rw [asMillis_wholeMillis, getD_filter]

theorem fingerprintBytes_hashed (config : Config) : fingerprintBytes config.hashed = fingerprintBytes config := by
  unfold fingerprintBytes Config.hashed
  dsimp only
  rw [flatMap_hashed hashBroker_hashed, flatMap_hashed hashWorker_hashed, hashDelay_hashed, hashDeadLetter_hashed,
    hashPublisher_hashed, hashConsumer_hashed]

end RabbitRs
