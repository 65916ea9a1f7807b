import RabbitRs.Consumer.Subscription

/-!
The terminal settlement of a poison delivery against the plan of its generation: a delivery is
rejected towards a dead-letter exchange, or acknowledged and logged, and the plan decides which of
the two is right.
-/

namespace RabbitRs.Consumer

/-- The plan routes what `queue` rejects to a dead-letter queue it declares itself. -/
structure DeadLetters (plan : TopologyPlan) (queue exchange key : String) : Prop where
  declares : plan.mode = .declare
  planned : queue ∈ plan.queues.map (·.name)
  arguments : ∀ spec ∈ plan.queues, spec.name = queue →
    spec.deadLetterExchange = some exchange ∧ spec.deadLetterRoutingKey = some key
  exchangeDeclared : exchange ∈ plan.exchanges.map (·.name)
  bound : ∃ dlq ∈ plan.queues.map (·.name), ⟨dlq, exchange, key⟩ ∈ plan.bindings

/-- What the consumer does with a delivery it gives up on agrees with the plan. -/
structure SettlesAsPlanned (sub : Subscription) (plan : TopologyPlan) : Prop where
  rejected : ∀ tag, sub.EndsIn tag (.reject tag false) → ∃ exchange key, DeadLetters plan sub.queue exchange key
  acknowledged : ∀ tag, sub.EndsIn tag (.ack tag false) → ∀ spec ∈ plan.queues,
    spec.name = sub.queue → spec.deadLetterExchange = none

/-- The dead-letter section is enabled, and the queue is declared once: by one subscription, and
not as the dead-letter queue. -/
def LettersOnce (subs : List SubscriptionConfig) (queue : String) (dl : DeadLetterConfig) : Prop :=
  dl.enabled = true ∧ (subs.map (·.queue)).count queue = 1 ∧ dl.queue ≠ queue

section Plan

variable {config : Config} {subs : List SubscriptionConfig} {queue : String}

theorem plannedQueues_bare (off : enabledDeadLetter config = none) {spec : QueueSpec}
    (member : spec ∈ plannedQueues config subs) : spec.deadLetterExchange = none := by
  rw [plannedQueues_off off] at member
  obtain ⟨_, _, rfl⟩ := List.mem_map.mp member
  rfl

variable {dl : DeadLetterConfig} (on : enabledDeadLetter config = some dl)
  (hosted : queue ∈ subs.map (·.queue))

include on hosted in
theorem plannedQueues_letters_once
    (lettered : ∀ spec ∈ plannedQueues config subs, spec.name = queue → spec.deadLetterExchange ≠ none) :
    (subs.map (·.queue)).count queue = 1 ∧ dl.queue ≠ queue := by
  have some : subs ≠ [] := by
    rintro rfl
    simp at hosted
  have present := List.count_pos_iff.mpr hosted
  constructor
  · by_contra many
    have bare : subscriptionSpec config queue ∈ plannedQueues config subs :=
      (mem_plannedQueues_on on).mpr (.inr (.inl ⟨queue, by omega, rfl⟩))
    exact lettered _ bare rfl rfl
  · intro same
    exact lettered _ ((mem_plannedQueues_on on).mpr (.inr (.inr ⟨some, rfl⟩))) same rfl

include on in
theorem plannedQueues_lettered (once : (subs.map (·.queue)).count queue = 1) (apart : dl.queue ≠ queue) :
    ∀ spec ∈ plannedQueues config subs, spec.name = queue →
      spec.deadLetterExchange = some dl.exchange ∧ spec.deadLetterRoutingKey = some (deadLetterKey dl queue) := by
  intro spec member same
  rcases (mem_plannedQueues_on on).mp member with ⟨other, -, rfl⟩ | ⟨other, twice, rfl⟩ | ⟨-, rfl⟩
  · obtain rfl : other = queue := same
    exact ⟨rfl, rfl⟩
  · obtain rfl : other = queue := same
    omega
  · exact absurd same apart

end Plan

variable {v : ValidatedConfig} {requested : List WorkerProfile} {queue : String}

theorem deadLetters_enabled {dl : DeadLetterConfig} {exchange key : String}
    (lettered : DeadLetters (generationPlan v requested) queue exchange key)
    (on : v.config.deadLetter = some dl) : dl.enabled = true := by
  obtain ⟨_, _, queues, _⟩ := generationPlan_shape v requested
  by_contra off
  obtain ⟨spec, member, same⟩ := List.mem_map.mp lettered.planned
  have bare : spec.deadLetterExchange = none := by
    refine plannedQueues_bare ?_ (queues ▸ member)
    simpa [enabledDeadLetter, on, Option.filter] using off
  rw [(lettered.arguments spec member same).1] at bare
  cases bare

theorem deadLetters_iff {dl : DeadLetterConfig} (declares : v.config.topologyMode = .declare)
    (hosted : queue ∈ (generationSubscriptions v requested).map (·.queue))
    (on : v.config.deadLetter = some dl) :
    (∃ exchange key, DeadLetters (generationPlan v requested) queue exchange key) ↔
      LettersOnce (generationSubscriptions v requested) queue dl := by
  obtain ⟨mode, exchanges, queues, bindings⟩ := generationPlan_shape v requested
  constructor
  · rintro ⟨exchange, key, lettered⟩
    have enabled := deadLetters_enabled lettered on
    have chosen : enabledDeadLetter v.config = some dl := by simp [enabledDeadLetter, on, enabled]
    refine ⟨enabled, plannedQueues_letters_once chosen hosted fun spec member same => ?_⟩
    rw [(lettered.arguments spec (queues ▸ member) same).1]
    simp
  · rintro ⟨enabled, once, apart⟩
    have chosen : enabledDeadLetter v.config = some dl := by simp [enabledDeadLetter, on, enabled]
    obtain ⟨sub, hostedSub, named⟩ := List.mem_map.mp hosted
    have planned : PlannedBinding v.config (generationSubscriptions v requested) (deadLetterBinding dl queue) :=
      named ▸ .deadLetter chosen hostedSub
    have known := plannedBinding_known planned
    refine ⟨dl.exchange, deadLetterKey dl queue, mode.trans declares, ?_, ?_, ?_, dl.queue, ?_, ?_⟩
    · rw [queues, plannedQueues_names]
      exact List.mem_append_left _ hosted
    · intro spec member same
      exact plannedQueues_lettered chosen once apart spec (queues ▸ member) same
    · rw [exchanges]
      exact known.2
    · rw [queues]
      exact known.1
    · exact (bindings _).mpr planned

/-- What the consumer gives up on is settled as the plan has it exactly when nothing is settled on
the wire, no dead-letter section is configured, or the section is enabled and the queue declared
once. -/
theorem settlesAsPlanned_iff (v : ValidatedConfig) (requested : List WorkerProfile)
    (sub : SubscriptionConfig) (key : ConnectionKey) (generation index : Nat) (hasPublisher : Bool)
    (declares : v.config.topologyMode = .declare) (hosted : sub ∈ generationSubscriptions v requested) :
    SettlesAsPlanned (.establish v.config key generation index hasPublisher sub) (generationPlan v requested) ↔
      (sub.noAck = true ∧ sub.earlyAck = true) ∨
        ∀ dl, v.config.deadLetter = some dl → LettersOnce (generationSubscriptions v requested) sub.queue dl := by
  obtain ⟨_, _, queues, _⟩ := generationPlan_shape v requested
  have listed : sub.queue ∈ (generationSubscriptions v requested).map (·.queue) := List.mem_map_of_mem hosted
  constructor
  · intro planned
    by_cases silent : sub.noAck = true ∧ sub.earlyAck = true
    · exact .inl silent
    · refine .inr fun dl on => (deadLetters_iff declares listed on).mp (planned.rejected 0 ?_)
      rw [Subscription.endsIn_iff]
      have settled : (sub.noAck && sub.earlyAck) = false := by simpa using silent
      exact ⟨by simp [Subscription.settles, Subscription.establish, settled],
        by simp [Subscription.establish, spawnPoisonSettlement, on]⟩
  · intro either
    constructor
    · intro tag ends
      obtain ⟨settles, frame⟩ := (Subscription.endsIn_iff _ _ _).mp ends
      cases on : v.config.deadLetter with
      | none => simp [Subscription.establish, spawnPoisonSettlement, on] at frame
      | some dl =>
        rcases either with silent | once
        · simp [Subscription.settles, Subscription.establish, silent] at settles
        · exact (deadLetters_iff declares listed on).mpr (once dl on)
    · intro tag ends spec member same
      obtain ⟨settles, frame⟩ := (Subscription.endsIn_iff _ _ _).mp ends
      cases on : v.config.deadLetter with
      | none => exact plannedQueues_bare (by simp [enabledDeadLetter, on]) (queues ▸ member)
      | some dl => simp [Subscription.establish, spawnPoisonSettlement, on] at frame

def letteredConfig (enabled : Bool) : Config where
  brokers := [mainBroker]
  workers := [{ name := "billing", subscriptions := [ordersSubscription], scheduler := .weightedFair }]
  topologyMode := .declare
  deadLetter := some { enabled, exchange := "dlx", queue := "dead", routingKey := none }

def lettered (enabled : Bool) : ValidatedConfig :=
  ⟨letteredConfig enabled, letteredConfig enabled, by cases enabled <;> rfl⟩

theorem lettered_settlesAsPlanned :
    SettlesAsPlanned (.establish (letteredConfig true) ⟨[]⟩ 1 0 true ordersSubscription)
      (generationPlan (lettered true) []) := by
  refine (settlesAsPlanned_iff (lettered true) [] ordersSubscription ⟨[]⟩ 1 0 true rfl ?_).mpr (.inr ?_)
  · exact List.mem_singleton.mpr rfl
  · rintro dl same
    cases same
    exact ⟨rfl, rfl, by decide⟩

/-- Switched off, the section still makes the consumer reject, and the plan dead-letters nothing:
the broker drops the message. -/
theorem disabled_section_rejects_into_nowhere : (letteredConfig false).validate = .ok (lettered false) ∧
      ordersSubscription ∈ generationSubscriptions (lettered false) [] ∧
      (Subscription.establish (letteredConfig false) ⟨[]⟩ 1 0 true ordersSubscription).EndsIn 1 (.reject 1 false) ∧
      ¬SettlesAsPlanned (.establish (letteredConfig false) ⟨[]⟩ 1 0 true ordersSubscription)
        (generationPlan (lettered false) []) := by
  refine ⟨rfl, List.mem_singleton.mpr rfl, .oversized rfl, fun planned => ?_⟩
  obtain ⟨_, _, letters⟩ := planned.rejected 1 (.oversized rfl)
  cases deadLetters_enabled letters rfl

end RabbitRs.Consumer
