import Mathlib.Data.List.Chain
import RabbitRs.Consumer.Dispatch

/-!
A message that is released with a delay comes back as a new delivery. Its attempts grow with every
release, so a chain of releases ends at the cap on attempts.
-/

namespace RabbitRs.Consumer

theorem putHeader_lookup (headers : Headers) (name : String) (value : HeaderValue) :
    (putHeader headers name value).lookup name = some value := by
  have smaller : ∀ entry ∈ headers.filter (·.1 < name), name != entry.1 := by
    intro entry member
    refine bne_iff_ne.mpr fun same => ?_
    have less : entry.1 < name := of_decide_eq_true (List.mem_filter.mp member).2
    rw [same] at less
    exact String.lt_irrefl _ less
  have skipped : (headers.filter (·.1 < name)).lookup name = none := List.lookup_eq_none_iff.mpr smaller
  rw [putHeader, List.lookup_append, skipped]
  simp

theorem headerCount_ofNat {headers : Headers} {name : String} {count : Nat} (fits : count ≤ u32Max)
    (found : headers.lookup name = some (.integer (Int64.ofNat count))) : headerCount headers name = some count := by
  have value : (Int64.ofNat count).toInt = count := Int64.toInt_ofNat_of_lt (by unfold u32Max at fits; omega)
  rw [headerCount, found]
  simp only [value]
  rw [if_pos ⟨by omega, by omega⟩, Int.toNat_natCast]

theorem validateAttempts_ok {cap : Option UInt32} {attempts next : Nat}
    (valid : validateAttempts cap attempts = .ok next) :
    next = attempts ∧ ∀ maximum ∈ cap, attempts ≤ maximum.toNat := by
  unfold validateAttempts at valid
  split at valid
  · split at valid
    · cases valid
    · rename_i maximum below
      cases valid
      exact ⟨rfl, fun other same => by cases same; exact not_lt.mp below⟩
  · cases valid
    exact ⟨rfl, fun _ none => by cases none⟩

theorem delayedHeaders_lookup {cap : Option UInt32} {headers next : Headers} {attempts : Nat}
    (released : delayedHeaders cap headers attempts = .ok next) :
    next.lookup applicationAttemptsHeader = some (.integer (Int64.ofNat (saturatingSucc attempts))) := by
  unfold delayedHeaders at released
  cases valid : validateAttempts cap (saturatingSucc attempts) with
  | error error =>
    rw [valid] at released
    cases released
  | ok count =>
    rw [valid] at released
    cases released
    rw [(validateAttempts_ok valid).1]
    exact putHeader_lookup _ _ _

theorem le_countAttempts {headers : Headers} {count : Nat} (redelivered : Bool)
    (found : headerCount headers applicationAttemptsHeader = some count) : count ≤ countAttempts headers redelivered := by
  unfold countAttempts
  rw [found]
  exact le_trans (le_max_right _ _) (le_max_left _ _)

theorem one_le_countAttempts (headers : Headers) (redelivered : Bool) : 1 ≤ countAttempts headers redelivered :=
  le_max_right _ _

theorem delayedHeaders_grows {cap : Option UInt32} {headers next republished : Headers} {attempts : Nat}
    (redelivered : Bool) (released : delayedHeaders cap headers attempts = .ok next)
    (carried : republished.lookup applicationAttemptsHeader = next.lookup applicationAttemptsHeader) :
    saturatingSucc attempts ≤ countAttempts republished redelivered := by
  rw [delayedHeaders_lookup released] at carried
  exact le_countAttempts redelivered (headerCount_ofNat (min_le_right _ _) carried)

section Chains

variable (sha256 : Bytes → Bytes) (sub : Subscription)

/-- `next` is the delivery of the message that the delayed release of `d` published: the count of the
application is the one published, and all else is up to the broker. -/
def Republished (d next : Delivery) : Prop :=
  ∃ delay properties, delay ≠ .zero ∧ sub.delayedProperties sha256 (sub.handed d) delay = .ok properties ∧
    next.headers.lookup applicationAttemptsHeader = properties.headers.lookup applicationAttemptsHeader

variable {sha256 sub}

theorem delayedProperties_headers {item : Item} {delay : Duration} {properties : MessageProperties}
    (released : sub.delayedProperties sha256 item delay = .ok properties) :
    delayedHeaders sub.maxAttempts item.headers item.attempts = .ok properties.headers := by
  unfold Subscription.delayedProperties at released
  split at released
  · cases released
  · cases released
  · split at released
    · cases released
    · split at released
      · cases released
      · split at released
        · cases released
        · rename_i valid
          cases released
          exact valid

theorem Republished.grows {d next : Delivery} (republished : Republished sha256 sub d next) :
    saturatingSucc (sub.handed d).attempts ≤ (sub.handed next).attempts := by
  obtain ⟨delay, properties, -, released, carried⟩ := republished
  exact delayedHeaders_grows _ (delayedProperties_headers released) carried

/-- Whether the actor hands a delivery over: with early acknowledgements the cap only adds an error. -/
def Subscription.hands (sub : Subscription) (d : Delivery) : Bool := sub.earlyAck || !sub.poisons d

theorem capped {maximum : UInt32} (cap : sub.maxAttempts = some maximum) (late : sub.earlyAck = false) {d : Delivery}
    (handed : sub.hands d = true) : (sub.handed d).attempts ≤ maximum.toNat := by
  rw [Subscription.hands, late, Bool.false_or, Bool.not_eq_true', Subscription.poisons, cap, Option.any_some,
    decide_eq_false_iff_not] at handed
  exact not_lt.mp handed

theorem chain_le_cap {maximum : Nat} (below : maximum < u32Max) {first : Delivery} {rest : List Delivery}
    (chain : (first :: rest).IsChain (Republished sha256 sub))
    (within : ∀ d ∈ first :: rest, (sub.handed d).attempts ≤ maximum) :
    (sub.handed first).attempts + rest.length ≤ maximum := by
  induction rest generalizing first with
  | nil => exact within first List.mem_cons_self
  | cons second rest ih =>
    obtain ⟨step, tail⟩ := List.isChain_cons_cons.mp chain
    have grows := step.grows
    have later := ih tail fun d member => within d (List.mem_cons_of_mem _ member)
    have own := within first List.mem_cons_self
    have next : saturatingSucc (sub.handed first).attempts = (sub.handed first).attempts + 1 := by
      unfold saturatingSucc
      omega
    rw [List.length_cons]
    omega

/-- A delivery with fewer attempts than the largest count that is released with a delay comes back with
one more; so under a cap below the largest count, without early acknowledgements, a chain of delayed
releases is handed over as often as the cap says at most. -/
theorem delayed_releases_end : (∀ d next, (sub.handed d).attempts < u32Max → Republished sha256 sub d next →
      (sub.handed d).attempts + 1 ≤ (sub.handed next).attempts) ∧
    ∀ maximum : UInt32, sub.earlyAck = false → sub.maxAttempts = some maximum → maximum.toNat < u32Max →
      ∀ deliveries : List Delivery, deliveries.IsChain (Republished sha256 sub) →
        (∀ d ∈ deliveries, sub.hands d = true) → deliveries.length ≤ maximum.toNat := by
  refine ⟨fun d next fewer republished => ?_, fun maximum late cap below deliveries chain handed => ?_⟩
  · have grows := republished.grows
    unfold saturatingSucc at grows
    omega
  · cases deliveries with
    | nil => exact Nat.zero_le _
    | cons first rest =>
      have within := chain_le_cap below chain fun d member => capped cap late (handed d member)
      have positive : 1 ≤ (sub.handed first).attempts := one_le_countAttempts _ _
      rw [List.length_cons]
      omega

end Chains

def delayedJobs (maximum : UInt32) : Subscription :=
  { jobs with
    maxAttempts := some maximum
    delayStrategy := some .plugin
    destination := some { exchange := "jobs", routingKey := "jobs" } }

def counted (count : Int64) : Delivery := { tag := 1, headers := [(applicationAttemptsHeader, .integer count)] }

/-- Three deliveries of one message under a cap of three. -/
theorem three_releases_under_cap : [counted 1, counted 2, counted 3].IsChain (Republished id (delayedJobs 3)) ∧
    (∀ d ∈ [counted 1, counted 2, counted 3], (delayedJobs 3).hands d = true) ∧
    [counted 1, counted 2, counted 3].length ≤ (3 : UInt32).toNat := by
  have released : ∀ count : Int64, count = 1 ∨ count = 2 →
      Republished id (delayedJobs 3) (counted count) (counted (count + 1)) := by
    rintro count (rfl | rfl)
    · exact ⟨.fromMillis 1000, _, by decide, rfl, by decide⟩
    · exact ⟨.fromMillis 1000, _, by decide, rfl, by decide⟩
  have chain : [counted 1, counted 2, counted 3].IsChain (Republished id (delayedJobs 3)) :=
    List.isChain_cons_cons.mpr ⟨released 1 (.inl rfl), List.isChain_cons_cons.mpr ⟨released 2 (.inr rfl), .singleton _⟩⟩
  have handed : ∀ d ∈ [counted 1, counted 2, counted 3], (delayedJobs 3).hands d = true := by decide
  exact ⟨chain, handed, delayed_releases_end.2 3 rfl rfl (by decide) _ chain handed⟩

/-- Under the largest cap a message with the largest count comes back the same for ever. -/
theorem largest_cap_never_reached : ∃ deliveries : List Delivery,
    deliveries.IsChain (Republished id (delayedJobs 4294967295)) ∧
    (∀ d ∈ deliveries, (delayedJobs 4294967295).hands d = true) ∧
    (4294967295 : UInt32).toNat < deliveries.length := by
  have same : Republished id (delayedJobs 4294967295) (counted 4294967295) (counted 4294967295) :=
    ⟨.fromMillis 1000, _, by decide, rfl, by decide⟩
  have handed : (delayedJobs 4294967295).hands (counted 4294967295) = true := by decide
  refine ⟨List.replicate (u32Max + 1) (counted 4294967295), ?_, ?_, ?_⟩
  · exact List.isChain_replicate_of_rel _ same
  · intro d member
    rw [List.eq_of_mem_replicate member]
    exact handed
  · rw [List.length_replicate]
    decide

end RabbitRs.Consumer
