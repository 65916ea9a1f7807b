import Mathlib.Data.Set.Function
import RabbitRs.Config.Fingerprint
import RabbitRs.Topology.Delay

/-!
What the name of a delay queue says. A name has a destination hash, a fingerprint of the declaring
arguments and the milliseconds of its bucket, with a dot between them.
-/

namespace RabbitRs

theorem toList_loop_drop (bytes : ByteArray) (i : Nat) (front : List UInt8) :
    ByteArray.toList.loop bytes i front = front.reverse ++ bytes.data.toList.drop i := by
  fun_induction ByteArray.toList.loop bytes i front with
  | case1 i front inside ih =>
    have found : bytes.get! i = bytes.data.toList[i] := by simp [ByteArray.get!, inside]
    rw [ih, List.reverse_cons, List.append_assoc, found, List.singleton_append, ← List.drop_eq_getElem_cons]
  | case2 i front outside =>
    rw [List.drop_eq_nil_of_le (Nat.not_lt.mp outside), List.append_nil]

theorem toUTF8_toList (text : String) : text.toUTF8.toList = utf8 text := toList_loop_drop text.toUTF8 0 []

theorem toUInt8_mod (n : Nat) {k : Nat} (positive : 0 < k) : (n % 256 ^ k).toUInt8 = n.toUInt8 := by
  apply UInt8.toNat_inj.mp
  simp only [Nat.toUInt8_eq, UInt8.toNat_ofNat']
  exact Nat.mod_mod_of_dvd n (dvd_pow_self 256 (Nat.ne_of_gt positive))

theorem beBytes_eq (width n : Nat) : beBytes width n = Codec.bigEndian width n := by
  induction width generalizing n with
  | zero => rfl
  | succ width ih =>
    rw [Codec.bigEndian, ← ih]
    simp only [beBytes, List.range_succ_eq_map, List.map_cons, List.map_map, Nat.add_sub_cancel, Nat.sub_zero]
    refine congrArg _ (List.map_congr_left fun i inside => ?_)
    have below := List.mem_range.mp inside
    have exponent : width = (width - 1 - i) + (i + 1) := by omega
    have skipped : width - (i + 1) = width - 1 - i := by omega
    rw [Function.comp_apply, Nat.succ_eq_add_one, skipped]
    nth_rewrite 2 [exponent]
    rw [Nat.pow_add, Nat.mod_mul_right_div_self, toUInt8_mod _ (Nat.succ_pos i)]

/-- The length of a string of the source fits its `usize`. -/
def Addressable (text : String) : Prop := text.utf8ByteSize < 2 ^ 64

instance (text : String) : Decidable (Addressable text) := inferInstanceAs (Decidable (_ < _))

theorem hashField_inj {a b : String} {r s : Bytes} (shortA : Addressable a) (shortB : Addressable b)
    (same : hashField a ++ r = hashField b ++ s) : a = b ∧ r = s := by
  have spelled (text : String) : hashField text = Codec.counted (utf8 text) := by
    rw [hashField, beBytes_eq, toUTF8_toList]
    rfl
  rw [spelled, spelled] at same
  obtain ⟨texts, rest⟩ := Codec.counted_separates (fun _ => True) _ _ shortA shortB r s trivial trivial same
  exact ⟨utf8_injective texts, rest⟩

theorem beBytes_inj {width m n : Nat} {r s : Bytes} (boundM : m < 256 ^ width) (boundN : n < 256 ^ width)
    (same : beBytes width m ++ r = beBytes width n ++ s) : m = n ∧ r = s := by
  rw [beBytes_eq, beBytes_eq] at same
  exact Codec.bigEndian_separates width (fun _ => True) m n boundM boundN r s trivial trivial same

theorem Duration.asMillis_lt (d : Duration) : d.asMillis < 256 ^ 16 := by
  have bound := d.bounded
  rw [asMillis]
  omega

def TtlBucketPlan.argsInput (plan : TtlBucketPlan) (destination : Destination) (bucket : Duration) : Bytes :=
  beBytes 16 bucket.asMillis ++ beBytes 16 plan.expiryMargin.asMillis
    ++ hashField destination.exchange ++ hashField destination.routingKey

/-- SHA-256 idealised: its truncation in names tells these inputs apart. -/
def Idealised (sha256 : Bytes → Bytes) (inputs : Set Bytes) : Prop :=
  inputs.InjOn fun input => hexPrefix (sha256 input) 8

def Destination.Addressed (destination : Destination) : Prop :=
  Addressable destination.exchange ∧ Addressable destination.routingKey

instance (destination : Destination) : Decidable destination.Addressed :=
  inferInstanceAs (Decidable (_ ∧ _))

theorem argsInput_inj {plan plan' : TtlBucketPlan} {destination destination' : Destination}
    {bucket bucket' : Duration} (short : destination.Addressed) (short' : destination'.Addressed)
    (same : plan.argsInput destination bucket = plan'.argsInput destination' bucket') :
    bucket.asMillis = bucket'.asMillis ∧ plan.expiryMargin.asMillis = plan'.expiryMargin.asMillis ∧
      destination = destination' := by
  simp only [TtlBucketPlan.argsInput, List.append_assoc] at same
  obtain ⟨buckets, same⟩ := beBytes_inj bucket.asMillis_lt bucket'.asMillis_lt same
  obtain ⟨margins, same⟩ := beBytes_inj plan.expiryMargin.asMillis_lt plan'.expiryMargin.asMillis_lt same
  obtain ⟨exchanges, same⟩ := hashField_inj short.1 short'.1 same
  rw [← List.append_nil (hashField destination.routingKey),
    ← List.append_nil (hashField destination'.routingKey)] at same
  obtain ⟨keys, -⟩ := hashField_inj short.2 short'.2 same
  exact ⟨buckets, margins, Destination.ext exchanges keys⟩

theorem hexDigit_ne_dot {n : Nat} (small : n < 16) : hexDigit n ≠ '.' := by
  have all : ∀ n < 16, hexDigit n ≠ '.' := by decide
  exact all n small

theorem undotted_hexPrefix (digest : Bytes) (length : Nat) : '.' ∉ (hexPrefix digest length).toList := by
  intro member
  rw [hexPrefix, String.toList_ofList] at member
  obtain ⟨byte, -, found⟩ := List.mem_flatMap.mp (List.mem_of_mem_take member)
  have bound := byte.toNat_lt
  rcases List.mem_cons.mp found with high | found
  · exact hexDigit_ne_dot (by omega) high.symm
  · exact hexDigit_ne_dot (by omega) (List.mem_singleton.mp found).symm

variable (sha256 : Bytes → Bytes)

def legacyDelayQueueName (destination : Destination) (bucket : Duration) : String :=
  delayQueuePrefix ++ destinationHash sha256 destination ++ "." ++ toString bucket.asMillis

theorem stableQueueName_toList (plan : TtlBucketPlan) (destination : Destination) (bucket : Duration) :
    (plan.stableQueueName sha256 destination bucket).toList = delayQueuePrefix.toList ++
      ((destinationHash sha256 destination).toList ++ '.' ::
        ((plan.argsFingerprint sha256 destination bucket).toList ++ '.' ::
          Nat.toDigits 10 bucket.asMillis)) := by
  simp only [TtlBucketPlan.stableQueueName, String.toList_append, toString_toList,
    show ".".toList = ['.'] from rfl, List.append_assoc, List.cons_append, List.nil_append]

theorem legacyDelayQueueName_toList (destination : Destination) (bucket : Duration) :
    (legacyDelayQueueName sha256 destination bucket).toList = delayQueuePrefix.toList ++
      ((destinationHash sha256 destination).toList ++ '.' :: Nat.toDigits 10 bucket.asMillis) := by
  simp only [legacyDelayQueueName, String.toList_append, toString_toList,
    show ".".toList = ['.'] from rfl, List.append_assoc, List.singleton_append]

theorem eq_of_split_first {Letter : Type*} {mark : Letter} {start start' rest rest' : List Letter}
    (unmarked : mark ∉ start) (unmarked' : mark ∉ start')
    (same : start ++ mark :: rest = start' ++ mark :: rest') : start = start' ∧ rest = rest' := by
  have reversed := congrArg List.reverse same
  simp only [List.reverse_append, List.reverse_cons, List.append_assoc, List.singleton_append] at reversed
  have starts := eq_of_split_last (by rwa [List.mem_reverse]) (by rwa [List.mem_reverse]) reversed
  obtain rfl := List.reverse_injective starts
  exact ⟨rfl, (List.cons.inj (List.append_cancel_left same)).2⟩

variable {sha256}

theorem stableQueueName_parts {plan plan' : TtlBucketPlan} {destination destination' : Destination}
    {bucket bucket' : Duration} (same : plan.stableQueueName sha256 destination bucket =
      plan'.stableQueueName sha256 destination' bucket') :
    destinationHash sha256 destination = destinationHash sha256 destination' ∧
      plan.argsFingerprint sha256 destination bucket = plan'.argsFingerprint sha256 destination' bucket' := by
  have spelled := congrArg String.toList same
  rw [stableQueueName_toList, stableQueueName_toList] at spelled
  obtain ⟨hashes, later⟩ := eq_of_split_first (undotted_hexPrefix _ _) (undotted_hexPrefix _ _)
    (List.append_cancel_left spelled)
  obtain ⟨fingerprints, -⟩ := eq_of_split_first (undotted_hexPrefix _ _) (undotted_hexPrefix _ _) later
  exact ⟨String.toList_inj.mp hashes, String.toList_inj.mp fingerprints⟩

theorem legacy_ne_stable (legacy destination : Destination) (plan : TtlBucketPlan) (bucket bucket' : Duration) :
    legacyDelayQueueName sha256 legacy bucket ≠ plan.stableQueueName sha256 destination bucket' := by
  intro same
  have spelled := congrArg String.toList same
  rw [legacyDelayQueueName_toList, stableQueueName_toList] at spelled
  obtain ⟨-, later⟩ := eq_of_split_first (undotted_hexPrefix _ _) (undotted_hexPrefix _ _)
    (List.append_cancel_left spelled)
  have dotted : '.' ∈ Nat.toDigits 10 bucket.asMillis := by
    rw [later]
    exact List.mem_append_right _ List.mem_cons_self
  exact undotted_toDigits _ dotted

def Duration.WholeMillis (d : Duration) : Prop := d.nanos % 10 ^ 6 = 0

instance (d : Duration) : Decidable d.WholeMillis := inferInstanceAs (Decidable (_ = _))

theorem Duration.eq_of_asMillis {a b : Duration} (wholeA : a.WholeMillis) (wholeB : b.WholeMillis)
    (same : a.asMillis = b.asMillis) : a = b := by
  apply Duration.nanos_injective
  unfold WholeMillis at wholeA wholeB
  unfold asMillis at same
  omega

/-- The buckets and the margin are whole milliseconds. -/
def TtlBucketPlan.Whole (plan : TtlBucketPlan) : Prop :=
  (∀ bucket ∈ plan.buckets, bucket.WholeMillis) ∧ plan.expiryMargin.WholeMillis

instance (plan : TtlBucketPlan) : Decidable plan.Whole := inferInstanceAs (Decidable (_ ∧ _))

/-- With SHA-256 idealised on the inputs of two plans, delay queues of one name are declared with the
same arguments, and no legacy name is the name of a current queue. -/
theorem delay_queue_names_bind_arguments {inputs : Set Bytes} (ideal : Idealised sha256 inputs)
    {plan plan' : TtlBucketPlan} (whole : plan.Whole) (whole' : plan'.Whole)
    {destination destination' : Destination} (short : destination.Addressed)
    (short' : destination'.Addressed)
    (hashed : ∀ bucket ∈ plan.buckets, plan.argsInput destination bucket ∈ inputs)
    (hashed' : ∀ bucket ∈ plan'.buckets, plan'.argsInput destination' bucket ∈ inputs)
    {delay delay' : Duration} {spec spec' : QueueSpec}
    (queue : plan.queueFor sha256 destination delay = .ok spec)
    (queue' : plan'.queueFor sha256 destination' delay' = .ok spec') :
    (spec.name = spec'.name → spec = spec') ∧
      ∀ legacy bucket, legacyDelayQueueName sha256 legacy bucket ≠ spec.name := by
  obtain ⟨bucket, chosen, rfl⟩ := (TtlBucketPlan.queueFor_ok sha256).mp queue
  obtain ⟨bucket', chosen', rfl⟩ := (TtlBucketPlan.queueFor_ok sha256).mp queue'
  have known := (TtlBucketPlan.bucketFor_ok chosen).1
  have known' := (TtlBucketPlan.bucketFor_ok chosen').1
  refine ⟨fun same => ?_, fun legacy other => legacy_ne_stable legacy destination plan other bucket⟩
  have fingerprints := (stableQueueName_parts same).2
  have args := ideal (hashed bucket known) (hashed' bucket' known') fingerprints
  obtain ⟨buckets, margins, rfl⟩ := argsInput_inj short short' args
  obtain rfl := Duration.eq_of_asMillis (whole.1 bucket known) (whole'.1 bucket' known') buckets
  have margin := Duration.eq_of_asMillis whole.2 whole'.2 margins
  have name : plan.stableQueueName sha256 destination bucket =
      plan'.stableQueueName sha256 destination bucket := same
  rw [TtlBucketPlan.delayQueueSpec, TtlBucketPlan.delayQueueSpec, name, margin]

def fiveSeconds (margin : UInt64) (positive : Duration.fromMillis 1 ≤ .fromMillis margin) : TtlBucketPlan where
  buckets := [.fromMillis 5000]
  expiryMargin := .fromMillis margin
  sorted := List.pairwise_singleton _ _
  margin_pos := positive

def ordersRoute : Destination := { exchange := "", routingKey := "orders" }

def tenSecondMargin : TtlBucketPlan := fiveSeconds 10000 (by decide)

def twentySecondMargin : TtlBucketPlan := fiveSeconds 20000 (by decide)

/-- SHA-256, as far as the names show it, of the inputs behind the five-second queues of `orders`. -/
def marginDigest (input : Bytes) : Bytes :=
  if input = tenSecondMargin.argsInput ordersRoute (.fromMillis 5000) then
    [0xf1, 0xe2, 0x6b, 0x9d, 0xd5, 0x8c, 0x3a, 0xec]
  else if input = twentySecondMargin.argsInput ordersRoute (.fromMillis 5000) then
    [0xee, 0x6a, 0x31, 0x5d, 0xf4, 0x4b, 0x8b, 0xff]
  else [0x4e, 0x9e, 0x92, 0x8e, 0x61, 0xff, 0xb7, 0x54]

theorem two_margins_named_apart : ∃ spec spec',
    tenSecondMargin.queueFor marginDigest ordersRoute (.fromMillis 3000) = .ok spec ∧
    twentySecondMargin.queueFor marginDigest ordersRoute (.fromMillis 4000) = .ok spec' ∧
    spec.name ≠ spec'.name ∧
    ∀ legacy bucket, legacyDelayQueueName marginDigest legacy bucket ≠ spec.name := by
  have apart : hexPrefix (marginDigest (tenSecondMargin.argsInput ordersRoute (.fromMillis 5000))) 8 ≠
      hexPrefix (marginDigest (twentySecondMargin.argsInput ordersRoute (.fromMillis 5000))) 8 := by
    decide +kernel
  have ideal : Idealised marginDigest {tenSecondMargin.argsInput ordersRoute (.fromMillis 5000),
      twentySecondMargin.argsInput ordersRoute (.fromMillis 5000)} :=
    Set.injOn_pair.mpr fun same => absurd same apart
  have bound := @delay_queue_names_bind_arguments marginDigest _ ideal tenSecondMargin twentySecondMargin
    (by decide) (by decide) ordersRoute ordersRoute (by decide) (by decide)
    (by simp [tenSecondMargin, fiveSeconds]) (by simp [twentySecondMargin, fiveSeconds])
    (.fromMillis 3000) (.fromMillis 4000) _ _ rfl rfl
  refine ⟨_, _, rfl, rfl, fun same => ?_, bound.2⟩
  have expiries := congrArg QueueSpec.expires (bound.1 same)
  exact absurd expiries (by decide)

end RabbitRs
