import RabbitRs.Lib.History
import RabbitRs.Publisher.DelayRoute

/-!
What a publisher puts on the wire, and when a log of it honours the delays asked for. The
publisher actor and the blind pump each keep one cache of the delay infrastructure they declared.
-/

namespace RabbitRs.Publisher

open History

/-- An open channel; `opened` is the generation of the connection it was opened on. -/
structure Channel where
  opened : Nat
  id : Nat
  deriving DecidableEq

/-- A declaration the broker accepted, with the publication that needed it, or a write. -/
inductive WireEvent where
  | declare (channel : Channel) (declaration : Declaration) (request : PublishRequest)
  | publish (channel : Channel) (request : PublishRequest) (write : TransportPublish)

def WireEvent.declaredName : WireEvent → Option String
  | .declare _ declaration _ => some declaration.name
  | .publish _ _ _ => none

def declaredNames (log : List WireEvent) : List String := log.filterMap WireEvent.declaredName

section

variable (sha256 : Bytes → Bytes)

/-- What one entry owes to the log before it: declarations are new, and a delayed write goes
through infrastructure declared by then. -/
def Justified (strategy : Option DelayStrategy) (before : List WireEvent) : WireEvent → Prop
  | .declare _ declaration request => ∃ chosen route, strategy = some chosen ∧ request.delay ≠ 0 ∧
      routeRequested sha256 chosen request = .ok route ∧ declaration = route.infrastructure ∧
      declaration.name ∉ declaredNames before
  | .publish _ request write =>
      (∃ mandatory, routeTransportRequest sha256 request strategy mandatory = .ok write) ∧
      ∀ chosen route, strategy = some chosen → request.delay ≠ 0 →
        routeRequested sha256 chosen request = .ok route →
        route.infrastructure.name ∈ declaredNames before

def Honest (strategy : Option DelayStrategy) (log : List WireEvent) : Prop :=
  Each (Justified sha256 strategy) log

/-- The plugin path: the delayed exchange of the destination, the publication's own key, and a
header that asks for exactly its delay. -/
def DelayedByPlugin (before : List WireEvent) (request : PublishRequest) (write : TransportPublish) : Prop :=
  write.exchange = delayedExchangeName request.destination.exchange ∧
    write.routingKey = request.destination.routingKey ∧
    (∃ delay : Int64, (publishHeaderFields write.properties).lookup "x-delay" =
      some (.longLongInt delay) ∧ delay.toInt = request.delay.toNat) ∧
    ∃ channel needed, .declare channel (.exchange (delayedExchangeSpec write.exchange)) needed ∈ before

/-- The TTL path: a queue declared before, which keeps the message for the delay at least, outlives
it, and dead-letters it to the destination. -/
def DelayedByQueue (before : List WireEvent) (request : PublishRequest) (write : TransportPublish) : Prop :=
  write.exchange = "" ∧ ∃ channel spec needed, .declare channel (.queue spec) needed ∈ before ∧
    spec.name = write.routingKey ∧
    (∃ ttl expires : UInt32,
      (queueArguments spec).lookup "x-message-ttl" = some (.longUInt ttl) ∧
      (queueArguments spec).lookup "x-expires" = some (.longUInt expires) ∧
      request.delay.toNat ≤ ttl.toNat ∧ ttl < expires) ∧
    spec.deadLetterExchange = some request.destination.exchange ∧
    spec.deadLetterRoutingKey = some request.destination.routingKey

def HonoursDelay (strategy : DelayStrategy) (before : List WireEvent) (request : PublishRequest)
    (write : TransportPublish) : Prop :=
  { exchange := write.exchange, routingKey := write.routingKey } ≠ request.destination ∧ match strategy with
    | .plugin => DelayedByPlugin before request write
    | .ttlBuckets _ => DelayedByQueue before request write

def LeastBucket (buckets : List Duration) (delay : UInt64) (bucket : Duration) : Prop :=
  bucket ∈ buckets ∧ delay.toNat ≤ bucket.asMillis ∧
    ∀ other ∈ buckets, delay.toNat ≤ other.asMillis → bucket ≤ other

def DeclaredFor (before : List WireEvent) (name : String) (destination : Destination) : Prop :=
  ∀ channel declaration needed, .declare channel declaration needed ∈ before →
    declaration.name = name → needed.destination = destination

/-- The delays a configuration can express on the wire. -/
def Expressible (config : Config) (before : List WireEvent) (request : PublishRequest) : Prop :=
  match DelayStrategy.compile config with
  | .plugin => request.delay.toNat ≤ i64Max
  | .ttlBuckets plan => ∃ bucket, LeastBucket config.delay.buckets request.delay bucket ∧
      bucket.asMillis < u32Max ∧
      request.destination ≠
        { exchange := "", routingKey := plan.stableQueueName sha256 request.destination bucket } ∧
      DeclaredFor before (plan.stableQueueName sha256 request.destination bucket) request.destination

variable {sha256 : Bytes → Bytes} {strategy : DelayStrategy} {log : List WireEvent}

theorem Honest.declaration (honest : Honest sha256 (some strategy) log) {channel : Channel}
    {declaration : Declaration} {needed : PublishRequest}
    (logged : .declare channel declaration needed ∈ log) :
    ∃ route, routeRequested sha256 strategy needed = .ok route ∧ declaration = route.infrastructure := by
  obtain ⟨before, after, split⟩ := List.append_of_mem logged
  obtain ⟨chosen, route, same, _, routed, declares, _⟩ := honest before _ after split
  cases same
  exact ⟨route, routed, declares⟩

theorem Honest.declared_once (honest : Honest sha256 (some strategy) log) {left right : WireEvent}
    {name : String} (leftIn : left ∈ log) (rightIn : right ∈ log)
    (leftName : left.declaredName = some name) (rightName : right.declaredName = some name) :
    left = right := by
  have distinct : (log.filterMap WireEvent.declaredName).Nodup := by
    refine Each.nodup_keys ?_ honest
    intro before event k justified named
    cases event with
    | declare channel declaration request =>
      obtain ⟨_, _, _, _, _, _, fresh⟩ := justified
      cases named
      exact fresh
    | publish channel request write => cases named
  exact eq_of_key distinct leftIn rightIn leftName rightName

theorem mem_declaredNames {name : String} : name ∈ declaredNames log ↔
    ∃ channel declaration needed, .declare channel declaration needed ∈ log ∧ declaration.name = name := by
  constructor
  · intro member
    obtain ⟨event, logged, named⟩ := List.mem_filterMap.mp member
    cases event with
    | declare channel declaration needed =>
      exact ⟨channel, declaration, needed, logged, Option.some.inj named⟩
    | publish channel request write => cases named
  · rintro ⟨channel, declaration, needed, logged, rfl⟩
    exact List.mem_filterMap.mpr ⟨_, logged, rfl⟩

theorem Honest.delayed_write {channel : Channel} {request : PublishRequest} {write : TransportPublish}
    (honest : Honest sha256 (some strategy) (log ++ [.publish channel request write]))
    (delayed : request.delay ≠ 0) :
    ∃ route, routeRequested sha256 strategy request = .ok route ∧ write.exchange = route.exchange ∧
      write.routingKey = route.routingKey ∧
      write.properties.delayMs = (if route.queue.isNone then some route.delayMs else none) ∧
      route.infrastructure.name ∈ declaredNames log := by
  obtain ⟨⟨mandatory, written⟩, declared⟩ := honest.last
  obtain ⟨route, routed, rfl⟩ := (routeTransportRequest_delayed sha256 delayed).mp written
  exact ⟨route, routed, rfl, rfl, rfl, declared strategy route rfl delayed routed⟩

theorem clampI64_eq_iff {delay : UInt64} : clampI64 delay = delay.toNat ↔ delay.toNat ≤ i64Max := by
  unfold clampI64
  omega

theorem clampI64_toInt {delay routed : UInt64} (clamped : routed.toNat = clampI64 delay) :
    (Int64.ofNat (clampI64 routed)).toInt = clampI64 delay := by
  have same : clampI64 routed = clampI64 delay := by
    unfold clampI64 at *
    omega
  have small : clampI64 delay < 2 ^ 63 := by
    unfold clampI64 i64Max
    omega
  rw [same, Int64.toInt_ofNat_of_lt small]

theorem delayedByPlugin_iff {channel : Channel} {request : PublishRequest} {write : TransportPublish}
    (honest : Honest sha256 (some .plugin) (log ++ [.publish channel request write]))
    (delayed : request.delay ≠ 0) :
    DelayedByPlugin log request write ↔ request.delay.toNat ≤ i64Max := by
  obtain ⟨route, routed, exchange, key, properties, declared⟩ := honest.delayed_write delayed
  obtain ⟨clamped, routeExchange, routeKey, noQueue⟩ := routeRequested_shape sha256 routed
  simp only [noQueue, Option.isNone_none, if_true] at properties
  have header := publishHeaderFields_delay write.properties _ properties
  have value := clampI64_toInt clamped
  have infrastructure : ∃ channel needed,
      .declare channel (.exchange (delayedExchangeSpec write.exchange)) needed ∈ log := by
    obtain ⟨channel, declaration, needed, logged, named⟩ := mem_declaredNames.mp declared
    obtain ⟨other, otherRouted, rfl⟩ := Honest.declaration honest.initial logged
    have otherShape := (routeRequested_shape sha256 otherRouted).2
    simp only [DelayedRoute.infrastructure, otherShape.2.2, noQueue, Declaration.name,
      delayedExchangeSpec] at named logged
    rw [exchange, ← named]
    exact ⟨channel, needed, logged⟩
  constructor
  · rintro ⟨_, _, ⟨delay, found, exact⟩, _⟩
    rw [header] at found
    obtain rfl := AmqpValue.longLongInt.inj (Option.some.inj found)
    rw [value] at exact
    exact clampI64_eq_iff.mp (Int.ofNat.inj exact)
  · intro small
    refine ⟨exchange.trans routeExchange, key.trans routeKey, ⟨_, header, ?_⟩, infrastructure⟩
    rw [value, clampI64_eq_iff.mpr small]

theorem LeastBucket.unique {buckets : List Duration} {delay : UInt64} {left right : Duration}
    (leftLeast : LeastBucket buckets delay left) (rightLeast : LeastBucket buckets delay right) :
    left = right :=
  le_antisymm (leftLeast.2.2 right rightLeast.1 rightLeast.2.1)
    (rightLeast.2.2 left leftLeast.1 leftLeast.2.1)

theorem bucketFor_least {config : Config} {plan : TtlBucketPlan} {delay : UInt64} {bucket : Duration}
    (ttl : DelayStrategy.compile config = .ttlBuckets plan)
    (found : plan.bucketFor (.fromMillis delay) = .ok bucket) :
    LeastBucket config.delay.buckets delay bucket := by
  have members := (TtlBucketPlan.compile_ok (DelayStrategy.compile_ttl ttl).2).1
  obtain ⟨member, holds, least⟩ := TtlBucketPlan.bucketFor_ok found
  refine ⟨(members bucket).mp member, Duration.fromMillis_le_iff.mp holds, ?_⟩
  intro other otherMember fits
  exact least other ((members other).mpr otherMember) (Duration.fromMillis_le_iff.mpr fits)

theorem margin_nanos (plan : TtlBucketPlan) : 10 ^ 6 ≤ plan.expiryMargin.nanos := by
  have positive := Duration.le_def.mp plan.margin_pos
  rwa [Duration.fromMillis_nanos] at positive

theorem ttl_lt_expires_iff (plan : TtlBucketPlan) (bucket : Duration) :
    durationMillis bucket < durationMillis (bucket.saturatingAdd plan.expiryMargin) ↔
      bucket.asMillis < u32Max := by
  have margin := margin_nanos plan
  rw [UInt32.lt_iff_toNat_lt, durationMillis_toNat, durationMillis_toNat]
  simp only [Duration.asMillis, Duration.saturatingAdd, Duration.ofNanos, u32Max]
  omega

theorem delayQueueSpec_encoded (plan : TtlBucketPlan) (destination : Destination) (bucket : Duration) :
    (queueArguments (plan.delayQueueSpec sha256 destination bucket)).lookup "x-message-ttl" =
        some (.longUInt (durationMillis bucket)) ∧
      (queueArguments (plan.delayQueueSpec sha256 destination bucket)).lookup "x-expires" =
        some (.longUInt (durationMillis (bucket.saturatingAdd plan.expiryMargin))) := by
  have encoded := @queueArguments_lookup (plan.delayQueueSpec sha256 destination bucket) rfl
  exact ⟨encoded.1, encoded.2.1⟩

theorem Honest.queue_declaration {plan : TtlBucketPlan} {channel : Channel} {declaration : Declaration}
    {needed : PublishRequest} (honest : Honest sha256 (some (.ttlBuckets plan)) log)
    (logged : .declare channel declaration needed ∈ log) :
    ∃ bucket, declaration = .queue (plan.delayQueueSpec sha256 needed.destination bucket) := by
  obtain ⟨route, routed, rfl⟩ := honest.declaration logged
  obtain ⟨bucket, _, queue, _⟩ := (routeRequested_shape sha256 routed).2
  refine ⟨bucket, ?_⟩
  simp only [DelayedRoute.infrastructure, queue]

theorem delayedByQueue_iff {config : Config} {plan : TtlBucketPlan} {channel : Channel}
    {request : PublishRequest} {write : TransportPublish}
    (ttl : DelayStrategy.compile config = .ttlBuckets plan)
    (honest : Honest sha256 (some (.ttlBuckets plan)) (log ++ [.publish channel request write]))
    (delayed : request.delay ≠ 0) :
    ({ exchange := write.exchange, routingKey := write.routingKey } ≠ request.destination ∧
        DelayedByQueue log request write) ↔
      ∃ bucket, LeastBucket config.delay.buckets request.delay bucket ∧ bucket.asMillis < u32Max ∧
        request.destination ≠
          { exchange := "", routingKey := plan.stableQueueName sha256 request.destination bucket } ∧
        DeclaredFor log (plan.stableQueueName sha256 request.destination bucket)
          request.destination := by
  have earlier : Honest sha256 (some (.ttlBuckets plan)) log := honest.initial
  obtain ⟨route, routed, exchange, key, _, declared⟩ := honest.delayed_write delayed
  obtain ⟨clamped, chosen, found, queue, routeExchange, routeKey⟩ := routeRequested_shape sha256 routed
  rw [routeExchange] at exchange
  rw [routeKey] at key
  -- a bucket below the adapter's clamp cannot hold a delay the routing clamped
  have least : request.delay.toNat ≤ u32Max → LeastBucket config.delay.buckets request.delay chosen := by
    intro small
    have whole : route.delayMs = request.delay := by
      apply UInt64.toNat.inj
      rw [clamped, clampI64_eq_iff]
      exact small.trans (by decide)
    rw [← whole]
    exact bucketFor_least ttl found
  constructor
  · rintro ⟨elsewhere, _, channel, spec, needed, logged, named,
      ⟨age, expires, ageFound, expiresFound, long, outlives⟩, deadExchange, deadKey⟩
    obtain ⟨bucket, same⟩ := earlier.queue_declaration logged
    obtain rfl := Declaration.queue.inj same
    obtain ⟨ageEncoded, expiresEncoded⟩ :=
      @delayQueueSpec_encoded sha256 plan needed.destination bucket
    obtain rfl := AmqpValue.longUInt.inj (Option.some.inj (ageEncoded.symm.trans ageFound))
    obtain rfl := AmqpValue.longUInt.inj (Option.some.inj (expiresEncoded.symm.trans expiresFound))
    have below := (ttl_lt_expires_iff plan bucket).mp outlives
    rw [durationMillis_toNat] at long
    have target : needed.destination = request.destination :=
      Destination.ext (Option.some.inj deadExchange) (Option.some.inj deadKey)
    have millis : bucket.asMillis = chosen.asMillis := by
      have name : plan.stableQueueName sha256 needed.destination bucket = write.routingKey := named
      rw [key, target] at name
      exact TtlBucketPlan.stableQueueName_asMillis sha256 name
    refine ⟨chosen, least (by omega), by omega, ?_, ?_⟩
    · intro own
      rw [exchange, key] at elsewhere
      exact elsewhere own.symm
    · intro other declaration otherNeeded otherLogged otherNamed
      have once := earlier.declared_once logged otherLogged (congrArg some (named.trans key))
        (congrArg some otherNamed)
      obtain ⟨_, _, rfl⟩ := WireEvent.declare.inj once
      exact target
  · rintro ⟨bucket, bucketLeast, below, elsewhere, owned⟩
    have small : request.delay.toNat ≤ u32Max := by
      have holds := bucketLeast.2.1
      omega
    obtain rfl := (least small).unique bucketLeast
    simp only [DelayedRoute.infrastructure, queue, Declaration.name] at declared
    obtain ⟨channel, declaration, needed, logged, named⟩ := mem_declaredNames.mp declared
    have target := owned channel declaration needed logged named
    obtain ⟨bucket, rfl⟩ := earlier.queue_declaration logged
    rw [target] at logged named
    have millis : bucket.asMillis = chosen.asMillis :=
      TtlBucketPlan.stableQueueName_asMillis sha256 named
    obtain ⟨ageEncoded, expiresEncoded⟩ :=
      @delayQueueSpec_encoded sha256 plan request.destination bucket
    have holds := bucketLeast.2.1
    refine ⟨?_, exchange, channel, _, needed, logged, named.trans key.symm,
      ⟨_, _, ageEncoded, expiresEncoded, ?_, ?_⟩, rfl, rfl⟩
    · intro direct
      rw [exchange, key] at direct
      exact elsewhere direct.symm
    · rw [durationMillis_toNat]
      omega
    · exact (ttl_lt_expires_iff plan bucket).mpr (by omega)

theorem honoursDelay_iff {config : Config} {channel : Channel} {request : PublishRequest}
    {write : TransportPublish}
    (honest : Honest sha256 (some (DelayStrategy.compile config))
      (log ++ [.publish channel request write]))
    (delayed : request.delay ≠ 0) :
    HonoursDelay (DelayStrategy.compile config) log request write ↔ Expressible sha256 config log request := by
  unfold HonoursDelay Expressible
  cases compiled : DelayStrategy.compile config with
  | plugin =>
    rw [compiled] at honest
    rw [delayedByPlugin_iff honest delayed]
    refine ⟨And.right, fun small => ⟨?_, small⟩⟩
    obtain ⟨exchange, _⟩ := (delayedByPlugin_iff honest delayed).mpr small
    intro direct
    have original := congrArg Destination.exchange direct
    exact delayedExchangeName_ne request.destination.exchange (exchange.symm.trans original)
  | ttlBuckets plan =>
    rw [compiled] at honest
    exact delayedByQueue_iff compiled honest delayed

end

/-- A declared cache that mirrors the log. -/
structure Mirrored (sha256 : Bytes → Bytes) (strategy : Option DelayStrategy)
    (declared : List String) (log : List WireEvent) : Prop where
  honest : Honest sha256 strategy log
  cache : ∀ name, name ∈ declared ↔ name ∈ declaredNames log

def Prepared (sha256 : Bytes → Bytes) (strategy : Option DelayStrategy) (declared : List String)
    (request : PublishRequest) : Prop :=
  ∀ chosen route, strategy = some chosen → request.delay ≠ 0 →
    routeRequested sha256 chosen request = .ok route → route.infrastructure.name ∈ declared

section

variable {sha256 : Bytes → Bytes} {strategy : Option DelayStrategy} {declared : List String}
  {log : List WireEvent} {request : PublishRequest}

theorem missingTopology_ok {chosen : DelayStrategy} {missing : Option Declaration}
    (found : missingTopology sha256 chosen request declared = .ok missing) :
    ∃ route, routeRequested sha256 chosen request = .ok route ∧
      missing = if declared.contains route.infrastructure.name then none
        else some route.infrastructure := by
  unfold missingTopology at found
  rw [bind_ok] at found
  obtain ⟨route, routed, chosen⟩ := found
  exact ⟨route, routed, (Except.ok.inj chosen).symm⟩

theorem prepared_of_ensured
    (ready : ensureDelayTopology sha256 strategy request declared = .ok none) :
    Prepared sha256 strategy declared request := by
  rintro chosen route rfl delayed routed
  simp only [ensureDelayTopology, if_neg delayed] at ready
  obtain ⟨other, otherRouted, missing⟩ := missingTopology_ok ready
  obtain rfl := Except.ok.inj (routed.symm.trans otherRouted)
  split at missing
  · simpa using ‹declared.contains _ = true›
  · cases missing

theorem Mirrored.declare {declaration : Declaration} (channel : Channel)
    (mirrored : Mirrored sha256 strategy declared log)
    (missing : ensureDelayTopology sha256 strategy request declared = .ok (some declaration)) :
    Mirrored sha256 strategy (declaration.name :: declared)
        (log ++ [.declare channel declaration request]) ∧
      Prepared sha256 strategy (declaration.name :: declared) request := by
  unfold ensureDelayTopology at missing
  split at missing
  · cases missing
  case h_2 chosen =>
  split at missing
  · cases missing
  case isFalse delayed =>
  obtain ⟨route, routed, found⟩ := missingTopology_ok missing
  split at found
  · cases found
  case isFalse absent =>
  cases found
  have fresh : route.infrastructure.name ∉ declaredNames log := by
    rw [← mirrored.cache]
    simpa using absent
  refine ⟨⟨mirrored.honest.snoc ⟨chosen, route, rfl, delayed, routed, rfl, fresh⟩, ?_⟩, ?_⟩
  · intro name
    simp [declaredNames, WireEvent.declaredName, mirrored.cache name, or_comm]
  · rintro other otherRoute same _ otherRouted
    cases same
    obtain rfl := Except.ok.inj (routed.symm.trans otherRouted)
    exact List.mem_cons_self

theorem Prepared.mono {more : List String} (prepared : Prepared sha256 strategy declared request)
    (grows : declared ⊆ more) : Prepared sha256 strategy more request :=
  fun chosen route configured delayed routed => grows (prepared chosen route configured delayed routed)

theorem Mirrored.publish {mandatory : Bool} {write : TransportPublish} (channel : Channel)
    (mirrored : Mirrored sha256 strategy declared log)
    (prepared : Prepared sha256 strategy declared request)
    (routed : routeTransportRequest sha256 request strategy mandatory = .ok write) :
    Mirrored sha256 strategy declared (log ++ [.publish channel request write]) := by
  refine ⟨mirrored.honest.snoc ⟨⟨mandatory, routed⟩, ?_⟩, ?_⟩
  · intro chosen route same delayed routedTo
    exact (mirrored.cache _).mp (prepared chosen route same delayed routedTo)
  · intro name
    simp [declaredNames, WireEvent.declaredName, mirrored.cache name]

end

end RabbitRs.Publisher
