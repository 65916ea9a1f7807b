import RabbitRs.Topology.Release

/-!
A consumer subscription as the coordinator builds it (`establish_requested_profile`,
`consumer/set.rs`), and the terminal settlement of a delivery the actor will not hand out
(`settle_poison`, `settle_oversized`).
-/

namespace RabbitRs.Consumer

structure ConnectionKey where
  bytes : Bytes
  deriving DecidableEq

/-- What a settlement is fenced by. -/
structure ChannelIdentity where
  connectionKey : ConnectionKey
  generation : Nat
  channelId : UInt16
  deriving DecidableEq

inductive DeliveryState where
  | pending | acked | rejected | lost | autoAcked
  deriving DecidableEq

inductive Frame where
  | ack (tag : Nat) (multiple : Bool)
  | reject (tag : Nat) (requeue : Bool)
  deriving DecidableEq

/-- `max_attempts` of `none` disables the cap. -/
structure Subscription where
  id : String
  identity : ChannelIdentity
  queue : String
  prefetch : PrefetchConfig
  weight : UInt16
  earlyAck : Bool
  noAck : Bool
  maxBufferedBytes : UInt64
  maxAttempts : Option UInt32
  hasDeadLetter : Bool
  delayStrategy : Option DelayStrategy
  destination : Option Destination

/-- `u16::try_from(index + 1).unwrap_or(u16::MAX)`. -/
def channelId (index : Nat) : UInt16 := (min (index + 1) 65535).toUInt16

/-- The subscription of `sub`, the `index`-th of its worker, for a generation; the destination of
delayed releases is set once the pool has a publisher. -/
def Subscription.establish (config : Config) (key : ConnectionKey) (generation index : Nat)
    (hasPublisher : Bool) (sub : SubscriptionConfig) : Subscription where
  id := sub.name
  identity := { connectionKey := key, generation, channelId := channelId index }
  queue := sub.queue
  prefetch := sub.prefetch
  weight := sub.weight
  earlyAck := sub.earlyAck
  noAck := sub.noAck
  maxBufferedBytes := sub.maxBufferedBytes
  -- `NonZeroU32::new`
  maxAttempts := config.consumer.maxAttempts.filter (· != 0)
  hasDeadLetter := config.deadLetter.isSome
  delayStrategy := some (DelayStrategy.compile config)
  destination := if hasPublisher then some (releaseDestination sub) else none

def spawnPoisonSettlement (hasDeadLetter : Bool) (tag : Nat) : Frame × DeliveryState :=
  if hasDeadLetter then (.reject tag false, .rejected) else (.ack tag false, .acked)

def poisonSettlementMessage (detail messageId : String) (hasDeadLetter : Bool) : String :=
  if hasDeadLetter then
    detail ++ "; message " ++ messageId ++ " rejected with requeue=false toward the dead-letter exchange"
  else
    detail ++ "; message " ++ messageId
      ++ " acknowledged and dropped (no dead-letter exchange configured)"

namespace Subscription

variable (sub : Subscription)

/-- The frame of `settle_poison`: none under `no_ack`, none for a delivery of another generation
or channel. -/
def settlePoison (identity : Option ChannelIdentity) (tag : Nat) : Option Frame :=
  if !sub.noAck && identity == some sub.identity then some (spawnPoisonSettlement sub.hasDeadLetter tag).1
  else none

def settleOversized (tag : Nat) : Option Frame := sub.settlePoison (some sub.identity) tag

/-- The frame of the completion arm for a settlement that failed with `MaxAttempts` or
`InvalidDelay`. -/
def settleUndeliverable (identity : ChannelIdentity) (tag : Nat) : Option Frame :=
  if sub.identity = identity then some (spawnPoisonSettlement sub.hasDeadLetter tag).1 else none

/-- The frames a delivery can end in without the embedder having settled it. Attempts are only
capped without `early_ack`, and only then is there a token to release with a delay. -/
inductive EndsIn (tag : Nat) : Frame → Prop where
  | attempts {frame : Frame} : sub.earlyAck = false →
      sub.settlePoison (some sub.identity) tag = some frame → EndsIn tag frame
  | oversized {frame : Frame} : sub.settleOversized tag = some frame → EndsIn tag frame
  | undeliverable {identity : ChannelIdentity} {frame : Frame} : sub.earlyAck = false →
      sub.settleUndeliverable identity tag = some frame → EndsIn tag frame

def settles : Bool := !(sub.noAck && sub.earlyAck)

theorem endsIn_iff (tag : Nat) (frame : Frame) : sub.EndsIn tag frame ↔
      sub.settles = true ∧ frame = (spawnPoisonSettlement sub.hasDeadLetter tag).1 := by
  constructor
  · rintro (⟨early, settled⟩ | ⟨settled⟩ | ⟨early, settled⟩)
    · simp only [settlePoison, Option.ite_none_right_eq_some, Option.some.injEq] at settled
      exact ⟨by simp [settles, early], settled.2.symm⟩
    · simp only [settleOversized, settlePoison, Option.ite_none_right_eq_some, Option.some.injEq,
        Bool.and_eq_true, Bool.not_eq_true'] at settled
      exact ⟨by simp [settles, settled.1.1], settled.2.symm⟩
    · simp only [settleUndeliverable, Option.ite_none_right_eq_some, Option.some.injEq] at settled
      exact ⟨by simp [settles, early], settled.2.symm⟩
  · rintro ⟨settled, rfl⟩
    cases early : sub.earlyAck with
    | false => exact .undeliverable early (if_pos rfl)
    | true =>
      have acked : sub.noAck = false := by simpa [settles, early] using settled
      exact .oversized (by simp [settleOversized, settlePoison, acked])

end Subscription

end RabbitRs.Consumer
