import RabbitRs.Config
import RabbitRs.Lib.Codec

/-!
Delay strategies (`topology/delay.rs`): the frozen TTL buckets, the delay queue of a destination and
bucket, and the names of the delay infrastructure. SHA-256 stays a parameter.
-/

namespace RabbitRs

@[ext]
structure Destination where
  exchange : String
  routingKey : String
  deriving DecidableEq

def delayQueuePrefix : String := "rabbit-rs.delay."

def defaultDelayedExchange : String := "rabbit-rs.delayed"

def delayedExchangeName (exchange : String) : String :=
  if exchange = "" then defaultDelayedExchange else exchange ++ ".delayed"

def delayedExchangeSpec (name : String) : ExchangeSpec where
  name := name
  kind := .delayed .direct
  durable := true
  autoDelete := false
  internal := false
  arguments := []

theorem delayedExchangeName_ne (exchange : String) : delayedExchangeName exchange ≠ exchange := by
  unfold delayedExchangeName
  split
  · rename_i empty
    rw [empty]
    decide
  · intro same
    have lengths := congrArg String.length same
    simp at lengths

theorem delayedExchangeName_eq_default {exchange : String} :
    delayedExchangeName exchange = defaultDelayedExchange ↔ exchange = "" ∨ exchange = "rabbit-rs" := by
  unfold delayedExchangeName
  by_cases empty : exchange = ""
  · simp [empty]
  · have spelled : defaultDelayedExchange = "rabbit-rs" ++ ".delayed" := by decide
    rw [if_neg empty, spelled, String.append_left_inj]
    simp [empty]

structure DelayError where
  message : String
  deriving DecidableEq

/-- `Vec::dedup`: drops an element equal to the one after it. -/
def dedupAdjacent : List Duration → List Duration
  | a :: b :: rest => if a = b then dedupAdjacent (b :: rest) else a :: dedupAdjacent (b :: rest)
  | short => short

theorem mem_dedupAdjacent {d : Duration} (ds : List Duration) : d ∈ dedupAdjacent ds ↔ d ∈ ds := by
  fun_induction dedupAdjacent ds with
  | case1 a rest ih => simp_all
  | case2 a b rest _ ih => simp only [List.mem_cons, ih]
  | case3 short _ => rfl

theorem dedupAdjacent_sublist (ds : List Duration) : (dedupAdjacent ds).Sublist ds := by
  fun_induction dedupAdjacent ds with
  | case1 a rest ih => exact ih.cons a
  | case2 a b rest _ ih => exact ih.cons_cons a
  | case3 short _ => exact List.Sublist.refl _

/-- The frozen buckets, in order, and the margin `x-expires` adds to them. -/
structure TtlBucketPlan where
  buckets : List Duration
  expiryMargin : Duration
  sorted : buckets.Pairwise (· ≤ ·)
  margin_pos : Duration.fromMillis 1 ≤ expiryMargin

namespace TtlBucketPlan

def compile (config : DelayConfig) : Except DelayError TtlBucketPlan :=
  if config.buckets.isEmpty then .error ⟨"at least one TTL bucket is required"⟩
  else if config.maxBuckets.toNat < config.buckets.length then
    .error ⟨"TTL bucket count " ++ toString config.buckets.length ++ " exceeds configured maximum "
      ++ toString config.maxBuckets⟩
  else if config.buckets.contains .zero then .error ⟨"TTL buckets must be greater than zero"⟩
  else .ok {
    buckets := dedupAdjacent (config.buckets.insertionSort (· ≤ ·))
    expiryMargin := max config.queueExpiryMargin (.fromMillis 1)
    sorted := (List.pairwise_insertionSort _ _).sublist (dedupAdjacent_sublist _)
    margin_pos := le_max_right _ _ }

theorem compile_ok {config : DelayConfig} {plan : TtlBucketPlan} (ok : compile config = .ok plan) :
    (∀ b, b ∈ plan.buckets ↔ b ∈ config.buckets) ∧
      plan.expiryMargin = max config.queueExpiryMargin (.fromMillis 1) := by
  unfold compile at ok
  split at ok
  · cases ok
  split at ok
  · cases ok
  split at ok
  · cases ok
  obtain rfl := Except.ok.inj ok
  exact ⟨fun b => by rw [mem_dedupAdjacent, List.mem_insertionSort], rfl⟩

def largestBucketMs (plan : TtlBucketPlan) : Nat := (plan.buckets.getLast?.map (·.asMillis)).getD 0

def bucketFor (plan : TtlBucketPlan) (delay : Duration) : Except DelayError Duration :=
  match plan.buckets.find? (fun bucket => delay ≤ bucket) with
  | some bucket => .ok bucket
  | none => .error ⟨"delay exceeds the largest configured TTL bucket ("
      ++ toString plan.largestBucketMs ++ " ms)"⟩

theorem bucketFor_ok {plan : TtlBucketPlan} {delay bucket : Duration}
    (ok : plan.bucketFor delay = .ok bucket) :
    bucket ∈ plan.buckets ∧ delay ≤ bucket ∧ ∀ other ∈ plan.buckets, delay ≤ other → bucket ≤ other := by
  unfold bucketFor at ok
  split at ok
  · rename_i found search
    obtain rfl := Except.ok.inj ok
    have holds := List.find?_some search
    obtain ⟨_, before, after, split, earlier⟩ := List.find?_eq_some_iff_append.mp search
    refine ⟨List.mem_of_find?_eq_some search, by simpa using holds, ?_⟩
    intro other member fits
    have sorted := plan.sorted
    rw [split] at member sorted
    rcases List.mem_append.mp member with skipped | member
    · have short := earlier other skipped
      simp [fits] at short
    · rcases List.mem_cons.mp member with rfl | member
      · exact le_rfl
      · exact (List.pairwise_cons.mp (List.pairwise_append.mp sorted).2.1).1 other member
  · cases ok

theorem bucketFor_error {plan : TtlBucketPlan} {delay : Duration} {error : DelayError}
    (failed : plan.bucketFor delay = .error error) : ∀ bucket ∈ plan.buckets, bucket < delay := by
  unfold bucketFor at failed
  split at failed
  · cases failed
  · rename_i search
    intro bucket member
    simpa using List.find?_eq_none.mp search bucket member

end TtlBucketPlan

theorem eq_of_split_last {Letter : Type*} {mark : Letter} {start start' rest rest' : List Letter}
    (unmarked : mark ∉ rest) (unmarked' : mark ∉ rest')
    (same : start ++ mark :: rest = start' ++ mark :: rest') : rest = rest' := by
  rcases List.append_eq_append_iff.mp same with ⟨between, _, split⟩ | ⟨between, _, split⟩
  · cases between with
    | nil => exact (List.cons.inj split).2
    | cons first middle =>
      have tail := (List.cons.inj split).2
      exact absurd (by simp [tail]) unmarked
  · cases between with
    | nil => exact (List.cons.inj split).2.symm
    | cons first middle =>
      have tail := (List.cons.inj split).2
      exact absurd (by simp [tail]) unmarked'

theorem toString_toList (n : Nat) : (toString n).toList = Nat.toDigits 10 n := by
  rw [Nat.toString_eq_repr, Nat.repr_eq_ofList_toDigits, String.toList_ofList]

theorem undotted_toDigits (n : Nat) : '.' ∉ Nat.toDigits 10 n := by
  intro member
  have digit := Nat.isDigit_of_mem_toDigits (by decide) (by decide) member
  cases digit

def beBytes (width n : Nat) : Bytes :=
  (List.range width).map fun i => (n / 256 ^ (width - 1 - i)).toUInt8

def hashField (value : String) : Bytes := beBytes 8 value.utf8ByteSize ++ value.toUTF8.toList

def hexDigit (n : Nat) : Char := Nat.digitChar n

def hexByte (byte : UInt8) : List Char := [hexDigit (byte.toNat / 16), hexDigit (byte.toNat % 16)]

def hexPrefix (digest : Bytes) (length : Nat) : String :=
  String.ofList (((digest.take ((length + 1) / 2)).flatMap hexByte).take length)

section Names

variable (sha256 : Bytes → Bytes)

def destinationHash (destination : Destination) : String :=
  hexPrefix (sha256 (destination.exchange.toUTF8.toList ++ [0] ++ destination.routingKey.toUTF8.toList)) 16

namespace TtlBucketPlan

def argsFingerprint (plan : TtlBucketPlan) (destination : Destination) (bucket : Duration) : String :=
  hexPrefix (sha256 (beBytes 16 bucket.asMillis ++ beBytes 16 plan.expiryMargin.asMillis
    ++ hashField destination.exchange ++ hashField destination.routingKey)) 8

def stableQueueName (plan : TtlBucketPlan) (destination : Destination) (bucket : Duration) : String :=
  delayQueuePrefix ++ destinationHash sha256 destination ++ "."
    ++ plan.argsFingerprint sha256 destination bucket ++ "." ++ toString bucket.asMillis

theorem stableQueueName_asMillis {plan : TtlBucketPlan} {destination : Destination}
    {left right : Duration} (same : plan.stableQueueName sha256 destination left =
      plan.stableQueueName sha256 destination right) : left.asMillis = right.asMillis := by
  have spelled := congrArg String.toList same
  simp only [stableQueueName, String.toList_append, toString_toList,
    show ".".toList = ['.'] from rfl] at spelled
  rw [List.append_assoc _ ['.'] (Nat.toDigits 10 left.asMillis),
    List.append_assoc _ ['.'] (Nat.toDigits 10 right.asMillis)] at spelled
  exact Codec.toDigits_injective (eq_of_split_last (undotted_toDigits _) (undotted_toDigits _) spelled)

def delayQueueSpec (plan : TtlBucketPlan) (destination : Destination) (bucket : Duration) : QueueSpec where
  name := plan.stableQueueName sha256 destination bucket
  durable := true
  exclusive := false
  autoDelete := false
  kind := .quorum
  deadLetterExchange := some destination.exchange
  deadLetterRoutingKey := some destination.routingKey
  messageTtl := some bucket
  expires := some (bucket.saturatingAdd plan.expiryMargin)
  deliveryLimit := none
  arguments := []

def queueFor (plan : TtlBucketPlan) (destination : Destination) (delay : Duration) :
    Except DelayError QueueSpec := do
  let bucket ← plan.bucketFor delay
  return plan.delayQueueSpec sha256 destination bucket

theorem queueFor_ok {plan : TtlBucketPlan} {destination : Destination} {delay : Duration}
    {spec : QueueSpec} : plan.queueFor sha256 destination delay = .ok spec ↔
      ∃ bucket, plan.bucketFor delay = .ok bucket ∧ spec = plan.delayQueueSpec sha256 destination bucket := by
  simp only [queueFor, bind_ok, pure, Except.pure, Except.ok.injEq, @eq_comm _ spec]

end TtlBucketPlan

end Names

inductive DelayStrategy where
  | plugin
  | ttlBuckets (plan : TtlBucketPlan)

/-- A TTL configuration that does not compile falls back to the plugin. -/
def DelayStrategy.compile (config : Config) : DelayStrategy :=
  match config.delay.mode with
  | .plugin | .auto => .plugin
  | .ttl =>
      match TtlBucketPlan.compile config.delay with
      | .ok plan => .ttlBuckets plan
      | .error _ => .plugin

theorem DelayStrategy.compile_ttl {config : Config} {plan : TtlBucketPlan}
    (ttl : DelayStrategy.compile config = .ttlBuckets plan) :
    config.delay.mode = .ttl ∧ TtlBucketPlan.compile config.delay = .ok plan := by
  unfold compile at ttl
  split at ttl <;> try cases ttl
  split at ttl
  · rename_i mode _ compiled ok
    cases ttl
    exact ⟨mode, ok⟩
  · cases ttl

end RabbitRs
