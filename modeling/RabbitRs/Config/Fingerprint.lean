import RabbitRs.Config.Rendering

/-!
The configuration fingerprint (`ConfigFingerprint::calculate`): the bytes fed to the hash, field by
field. Texts carry their length, the lists carry no count.
-/

namespace RabbitRs

open Codec

def utf8 (text : String) : Bytes := text.toUTF8.data.toList

def Duration.asSecs (d : Duration) : Nat := d.nanos / 10 ^ 9

def u64Max : Nat := 2 ^ 64 - 1

def hashValue (text : String) : Bytes := counted (utf8 text)

def tlsVerifyName : TlsVerify → String
  | .peer => "peer"

def topologyModeName : TopologyMode → String
  | .declare => "declare"
  | .verify => "verify"
  | .external => "external"

def schedulerName : SchedulerStrategy → String
  | .weightedFair => "weighted_fair"

def delayModeName : DelayMode → String
  | .auto => "auto"
  | .plugin => "plugin"
  | .ttl => "ttl"

def safetyModeName : SafetyMode → String
  | .blind => "blind"
  | .unconfirmed => "unsafe"
  | .safe => "safe"

def queueTypeName : QueueKind → String
  | .classic => "queue_type:classic"
  | .quorum => "queue_type:quorum"

def hashEndpoint (endpoint : Endpoint) : Bytes :=
  hashValue endpoint.host ++ bigEndian 2 endpoint.port.toNat

def hashBroker (broker : BrokerConfig) : Bytes :=
  hashValue broker.name
    ++ hashValue broker.vhost
    ++ hashValue broker.credentials.username
    ++ hashValue broker.credentials.password
    ++ hashValue (if broker.tls.enabled then "tls" else "plain")
    ++ hashValue (tlsVerifyName broker.tls.verify)
    ++ hashValue (broker.tls.serverName.getD "")
    ++ hashValue (broker.tls.caCert.getD "")
    ++ hashValue (broker.tls.clientCert.getD "")
    ++ hashValue (broker.tls.clientKey.getD "")
    ++ bigEndian 8 broker.heartbeat.asSecs
    ++ broker.hosts.flatMap hashEndpoint

def hashPrefetch : PrefetchConfig → Bytes
  | .fixed value => hashValue "prefetch:fixed" ++ bigEndian 2 value.toNat
  | .adaptive initial min max targetBuffer =>
      hashValue "prefetch:adaptive"
        ++ bigEndian 2 initial.toNat
        ++ bigEndian 2 min.toNat
        ++ bigEndian 2 max.toNat
        ++ bigEndian 8 (Min.min targetBuffer.asMillis u64Max)

def hashSubscription (sub : SubscriptionConfig) : Bytes :=
  hashValue sub.name
    ++ hashValue sub.broker
    ++ hashValue sub.queue
    ++ bigEndian 2 sub.weight.toNat
    ++ hashPrefetch sub.prefetch
    ++ bigEndian 8 sub.maxBufferedBytes.toNat
    ++ hashValue (if sub.earlyAck then "early_ack" else "no_early_ack")
    ++ hashValue (if sub.noAck then "no_ack" else "ack")

def hashWorker (worker : WorkerProfile) : Bytes :=
  hashValue worker.name
    ++ hashValue (schedulerName worker.scheduler.strategy)
    ++ worker.subscriptions.flatMap hashSubscription

def hashDelay (delay : DelayConfig) : Bytes :=
  hashValue (delayModeName delay.mode)
    ++ hashValue (debugDurations delay.buckets)
    ++ bigEndian 8 delay.maxBuckets.toNat
    ++ bigEndian 8 delay.queueExpiryMargin.asSecs

def hashDeadLetter : Option DeadLetterConfig → Bytes
  | some dl =>
      hashValue "dead_letter"
        ++ hashValue (if dl.enabled then "1" else "0")
        ++ hashValue dl.exchange
        ++ hashValue dl.queue
        ++ hashValue (dl.routingKey.getD "")
  | none => hashValue "no_dead_letter"

def hashDeliveryLimit : Option UInt32 → Bytes
  | some limit => hashValue "delivery_limit" ++ bigEndian 4 limit.toNat
  | none => hashValue "no_delivery_limit"

def hashRoute (entry : String × RouteConfig) : Bytes :=
  hashValue "route"
    ++ hashValue entry.1
    ++ hashValue entry.2.broker
    ++ hashValue entry.2.exchange
    ++ hashValue entry.2.routingKey

/-- Neither `mandatory` nor `flush_interval` is hashed; milliseconds are a `u128`. -/
def hashPublisher (publisher : PublisherConfigSection) : Bytes :=
  hashValue "publisher"
    ++ hashValue (safetyModeName publisher.safety)
    ++ hashValue (if publisher.confirms then "confirms" else "no_confirms")
    ++ bigEndian 16 publisher.confirmTimeout.asMillis

def hashConsumer (consumer : ConsumerConfigSection) : Bytes :=
  hashValue "consumer"
    ++ bigEndian 16 consumer.waitTimeout.asMillis
    ++ bigEndian 4 (consumer.maxAttempts.getD 0).toNat

def fingerprintBytes (config : Config) : Bytes :=
  hashValue (topologyModeName config.topologyMode)
    ++ config.brokers.flatMap hashBroker
    ++ config.workers.flatMap hashWorker
    ++ hashDelay config.delay
    ++ hashDeadLetter config.deadLetter
    ++ hashDeliveryLimit config.deliveryLimit
    ++ config.routes.flatMap hashRoute
    ++ hashPublisher config.publisher
    ++ hashConsumer config.consumer
    ++ hashValue (queueTypeName config.queueType)
    ++ hashValue (if config.queueDurable then "queue_durable:true" else "queue_durable:false")

def ValidatedConfig.fingerprint (sha256 : Bytes → Bytes) (v : ValidatedConfig) : Bytes :=
  sha256 (fingerprintBytes v.config)

/-- Shorter than 2^48 bytes, so that a length starts with two zero bytes. -/
def Short (text : String) : Prop := (utf8 text).length < 256 ^ 6

instance : DecidablePred Short := fun text => inferInstanceAs (Decidable ((utf8 text).length < 256 ^ 6))

theorem utf8_injective {a b : String} (same : utf8 a = utf8 b) : a = b :=
  String.toByteArray_inj.mp (ByteArray.ext (Array.toList_inj.mp same))

variable {a b : String} {r s : Bytes}

theorem hashValue_inj (shortA : Short a) (shortB : Short b) (same : hashValue a ++ r = hashValue b ++ s) :
    a = b ∧ r = s := by
  have wide {text : String} (short : Short text) : (utf8 text).length < 256 ^ 8 :=
    Nat.lt_trans short (by decide)
  obtain ⟨texts, rest⟩ := counted_separates (fun _ => True) _ _ (wide shortA) (wide shortB) r s trivial
    trivial same
  exact ⟨utf8_injective texts, rest⟩

theorem bigEndian_inj {width m n : Nat} (boundM : m < 256 ^ width) (boundN : n < 256 ^ width)
    (same : bigEndian width m ++ r = bigEndian width n ++ s) : m = n ∧ r = s :=
  bigEndian_separates width (fun _ => True) m n boundM boundN r s trivial trivial same

theorem number_ne_length {n : Nat} (positive : n ≠ 0) (bound : n < 256 ^ 2) (short : Short a) :
    bigEndian 2 n ++ r ≠ hashValue a ++ s := by
  intro same
  have zeros : bigEndian 8 (utf8 a).length = bigEndian 2 0 ++ bigEndian 6 (utf8 a).length :=
    bigEndian_short 2 short
  rw [hashValue, counted, zeros, List.append_assoc, List.append_assoc] at same
  exact positive (bigEndian_inj bound (by decide) same).1

theorem uint16_inj {m n : UInt16} (same : bigEndian 2 m.toNat ++ r = bigEndian 2 n.toNat ++ s) :
    m = n ∧ r = s := by
  obtain ⟨numbers, rest⟩ := bigEndian_inj m.toNat_lt n.toNat_lt same
  exact ⟨UInt16.toNat_inj.mp numbers, rest⟩

theorem uint32_inj {m n : UInt32} (same : bigEndian 4 m.toNat ++ r = bigEndian 4 n.toNat ++ s) :
    m = n ∧ r = s := by
  obtain ⟨numbers, rest⟩ := bigEndian_inj m.toNat_lt n.toNat_lt same
  exact ⟨UInt32.toNat_inj.mp numbers, rest⟩

theorem uint64_inj {m n : UInt64} (same : bigEndian 8 m.toNat ++ r = bigEndian 8 n.toNat ++ s) :
    m = n ∧ r = s := by
  obtain ⟨numbers, rest⟩ := bigEndian_inj m.toNat_lt n.toNat_lt same
  exact ⟨UInt64.toNat_inj.mp numbers, rest⟩

theorem flag_inj {p q : Bool} {yes no : String} (shortYes : Short yes) (shortNo : Short no)
    (differ : yes ≠ no)
    (same : hashValue (if p then yes else no) ++ r = hashValue (if q then yes else no) ++ s) :
    p = q ∧ r = s := by
  have short (flag : Bool) : Short (if flag then yes else no) := by cases flag <;> assumption
  obtain ⟨texts, rest⟩ := hashValue_inj (short p) (short q) same
  refine ⟨?_, rest⟩
  cases p <;> cases q
  · rfl
  · exact absurd texts.symm differ
  · exact absurd texts differ
  · rfl

theorem filter_of_getD {α : Type} [DecidableEq α] {p q : Option α} {default : α}
    (same : p.getD default = q.getD default) : p.filter (· ≠ default) = q.filter (· ≠ default) := by
  have kept (p : Option α) : p.filter (· ≠ default) = (some (p.getD default)).filter (· ≠ default) := by
    cases p <;> simp [Option.filter]
  rw [kept p, kept q, same]

theorem topologyModeName_injective : Function.Injective topologyModeName := by
  intro a b same
  cases a <;> cases b <;> first | rfl | exact absurd same (by decide)

theorem delayModeName_injective : Function.Injective delayModeName := by
  intro a b same
  cases a <;> cases b <;> first | rfl | exact absurd same (by decide)

theorem safetyModeName_injective : Function.Injective safetyModeName := by
  intro a b same
  cases a <;> cases b <;> first | rfl | exact absurd same (by decide)

theorem queueTypeName_injective : Function.Injective queueTypeName := by
  intro a b same
  cases a <;> cases b <;> first | rfl | exact absurd same (by decide)

end RabbitRs
