import RabbitRs.Consumer.Attempts
import RabbitRs.Consumer.Subscription
import RabbitRs.Lib.Ordered

/-!
One subscription of the consumer set actor (`consumer/actor.rs`) with the broker's side of its
channel. What the actor keeps in maps under a subscription or a channel key is one lane here.
-/

namespace RabbitRs.Consumer

open Ordered (Table)

inductive ConsumerErrorKind where
  | closed | staleGeneration | sourceReplaced | alreadySettled | alreadySettling
  | settlementInProgress | transport | publish | missingPublisher | invalidSubscription
  | maxAttempts | invalidDelay
  deriving DecidableEq

structure ConsumerError where
  kind : ConsumerErrorKind
  message : String
  transportSource : Option TransportError := none
  deriving DecidableEq

abbrev Outcome := Except ConsumerError DeliveryState

structure SettlementError where
  tag : Nat
  subscription : String
  kind : ConsumerErrorKind
  message : String
  deriving DecidableEq

/-- A delivery of the transport; its exchange and routing key are never read. -/
structure Delivery where
  tag : Nat
  redelivered : Bool := false
  messageId : Option String := none
  correlationId : Option String := none
  headers : Headers := []
  payload : Bytes := []
  deriving DecidableEq

def Delivery.size (delivery : Delivery) : Nat := delivery.payload.length

/-- A delivery as the embedder gets it. Its token is the one the lane keeps under the tag. -/
structure Item where
  id : String
  correlationId : Option String
  subscription : String
  payload : Bytes
  headers : Headers
  attempts : Nat
  tag : Nat
  deriving DecidableEq

structure Token where
  item : Item
  state : DeliveryState
  settling : Bool := false

inductive QueueItem where
  | delivery (item : Item)
  | failure (error : ConsumerError)
  deriving DecidableEq

inductive Settlement where
  | ack
  | release (delay : Duration)
  | reject (requeue : Bool)
  deriving DecidableEq

/-- The state `try_settle` gives the token before the command is sent. -/
def Settlement.terminal : Settlement → DeliveryState
  | .ack => .acked
  | .release delay => if delay = .zero then .rejected else .acked
  | .reject _ => .rejected

/-- Entries are `Pending` from their insertion to their removal; `true` once one has a token. -/
structure Ledger where
  pending : Table Nat Bool := .empty
  ackedPrefix : Nat := 0

structure Through where
  target : Nat
  affected : List Nat
  deriving DecidableEq

/-- How far `execute_settlement` is; `publishing` and `confirmed` are those of a delayed release. -/
inductive Progress where
  | started
  | publishing
  | confirmed
  | finished (result : Outcome)

structure SettlementFuture where
  tag : Nat
  settlement : Settlement
  progress : Progress := .started

structure ThroughFuture where
  through : Through
  result : Option Outcome := none

def SettlementFuture.frame (future : SettlementFuture) : Option Frame :=
  match future.progress, future.settlement with
  | .started, .ack => some (.ack future.tag false)
  | .started, .reject requeue => some (.reject future.tag requeue)
  | .started, .release delay => if delay = .zero then some (.reject future.tag true) else none
  | .confirmed, _ => some (.ack future.tag false)
  | _, _ => none

def Frame.covers : Frame → Nat → Bool
  | .ack upTo true, tag => tag ≤ upTo
  | .ack tag false, other => other = tag
  | .reject tag _, other => other = tag

/-- What the actor keeps under one subscription and its channel key, with the broker's side of the
channel: the last tag it used and the tags it holds outstanding. The fields from `arrived` on are
history: the deliveries received, the tags settled for good, those of them never handed out, the
tags an acknowledgement or a rejection was decided for, those a rejection reached the broker for,
and whether a subtraction from the byte count was cut off at zero. -/
structure Lane where
  buffer : List Delivery := []
  bufferedBytes : Nat := 0
  ledger : Ledger := {}
  earlyAcked : List Nat := []
  tokens : Nat → Option Token := fun _ => none
  inFlight : Bool := false
  pendingSettlements : List SettlementFuture := []
  pendingSettleThroughs : List ThroughFuture := []
  settlementQueue : List (Nat × Settlement) := []
  settleThroughQueue : List Through := []
  ackedBatch : Table Nat Unit := .empty
  tasks : List Frame := []
  lastTag : Nat := 0
  outstanding : List Nat := []
  arrived : List Delivery := []
  settled : List Nat := []
  discarded : List Nat := []
  ackChosen : List Nat := []
  rejectChosen : List Nat := []
  rejectReached : List Nat := []
  saturated : Bool := false

namespace Lane

def releaseBytes (lane : Lane) (bytes : Nat) : Lane :=
  { lane with
    bufferedBytes := lane.bufferedBytes - bytes
    saturated := lane.saturated || lane.bufferedBytes < bytes }

def sizeOf (lane : Lane) (tag : Nat) : Nat := ((lane.tokens tag).map (·.item.payload.length)).getD 0

def changeToken (lane : Lane) (tag : Nat) (change : Token → Token) : Lane :=
  { lane with tokens := Function.update lane.tokens tag ((lane.tokens tag).map change) }

def setState (lane : Lane) (tag : Nat) (state : DeliveryState) : Lane :=
  lane.changeToken tag fun token => { token with state }

def setSettling (lane : Lane) (tag : Nat) (settling : Bool) : Lane :=
  lane.changeToken tag fun token => { token with settling }

def receive (lane : Lane) (delivery : Delivery) : Lane :=
  { lane with
    ledger := { lane.ledger with pending := lane.ledger.pending.insert delivery.tag false }
    arrived := lane.arrived ++ [delivery] }

def enroll (lane : Lane) (delivery : Delivery) : Lane :=
  { lane with
    buffer := lane.buffer ++ [delivery]
    bufferedBytes := lane.bufferedBytes + delivery.size }

def chooseAck (lane : Lane) (tags : List Nat) : Lane := { lane with ackChosen := lane.ackChosen ++ tags }

def chooseReject (lane : Lane) (tag : Nat) : Lane :=
  { lane with rejectChosen := lane.rejectChosen ++ [tag] }

def spawn (lane : Lane) (frame : Frame) : Lane :=
  let lane := { lane with tasks := lane.tasks ++ [frame] }
  match frame with
  | .ack tag _ => lane.chooseAck [tag]
  | .reject tag _ => lane.chooseReject tag

def settle (lane : Lane) (tag : Nat) : Lane :=
  { lane with
    ledger := { lane.ledger with pending := lane.ledger.pending.erase tag }
    settled := lane.settled ++ [tag] }

/-- A settlement that the closing actor completes; it keeps no ledger any more. -/
def recordSettled (lane : Lane) (tags : List Nat) : Lane := { lane with settled := lane.settled ++ tags }

/-- What `settle_poison` does to the lane; `frame` is the settlement it spawns, if any. -/
def settlePoison (lane : Lane) (frame : Option Frame) (tag bytes : Nat) : Lane :=
  let lane := (frame.elim lane lane.spawn).releaseBytes bytes
  { lane.settle tag with discarded := lane.discarded ++ [tag] }

/-- The bounded ring of early-acked tags, and the task that acknowledges. -/
def earlyAck (lane : Lane) (capacity tag : Nat) : Lane :=
  let ring := if capacity ≤ lane.earlyAcked.length then lane.earlyAcked.tail else lane.earlyAcked
  { lane with earlyAcked := ring ++ [tag], tasks := lane.tasks ++ [.ack tag false] }

def handEarly (lane : Lane) (item : Item) (size : Nat) (rest : List Delivery) : Lane :=
  { lane.releaseBytes size with
    buffer := rest
    tokens := Function.update lane.tokens item.tag (some { item, state := .autoAcked })
    settled := lane.settled ++ [item.tag] }

/-- A new token, entered in the ledger before the hand-off is tried. -/
def tokenize (lane : Lane) (item : Item) : Lane :=
  { lane with
    tokens := Function.update lane.tokens item.tag (some { item, state := .pending })
    ledger := { lane.ledger with pending := lane.ledger.pending.modify item.tag fun _ => true } }

def launchSettlement (lane : Lane) (params : Nat × Settlement) : Lane :=
  { lane with
    inFlight := true
    pendingSettlements := lane.pendingSettlements ++ [{ tag := params.1, settlement := params.2 }] }

def launchSettleThrough (lane : Lane) (through : Through) : Lane :=
  { lane with
    inFlight := true
    pendingSettleThroughs := lane.pendingSettleThroughs ++ [{ through }] }

def enqueueSettlement (lane : Lane) (params : Nat × Settlement) : Lane :=
  if lane.inFlight then { lane with settlementQueue := lane.settlementQueue ++ [params] }
  else lane.launchSettlement params

def enqueueSettleThrough (lane : Lane) (through : Through) : Lane :=
  if lane.inFlight then { lane with settleThroughQueue := lane.settleThroughQueue ++ [through] }
  else lane.launchSettleThrough through

/-- Single settlements go before cumulative ones. -/
def drainSettlementQueue (lane : Lane) : Lane :=
  match lane.settlementQueue, lane.settleThroughQueue with
  | params :: rest, _ => { lane with settlementQueue := rest }.launchSettlement params
  | [], through :: rest => { lane with settleThroughQueue := rest }.launchSettleThrough through
  | [], [] => lane

/-- The run of recorded acks above the settled prefix; the first pending tag without one ends it. -/
def ackedRun (lane : Lane) : List Nat :=
  ((lane.ledger.pending.after lane.ledger.ackedPrefix).takeWhile fun entry =>
    lane.ackedBatch.keys.contains entry.1).map (·.1)

/-- Recorded acks beyond the run whose tag is still pending. -/
def stragglers (lane : Lane) : List Nat :=
  ((lane.ackedBatch.after (lane.ackedRun.getLast?.getD lane.ledger.ackedPrefix)).map (·.1)).filter
    fun tag => lane.ledger.pending.keys.contains tag

def flushAcked (lane : Lane) : Lane :=
  if lane.inFlight || lane.ackedBatch.entries.isEmpty then lane
  else
    let run := lane.ackedRun
    let stragglers := lane.stragglers.map fun tag => (tag, Settlement.ack)
    let lane := { lane with ackedBatch := .empty }
    match run.getLast? with
    | some target =>
      let lane := lane.launchSettleThrough { target, affected := run }
      { lane with settlementQueue := lane.settlementQueue ++ stragglers }
    | none => stragglers.foldl enqueueSettlement lane

def acceptAck (lane : Lane) (tag : Nat) : Lane :=
  let lane := (lane.setSettling tag true).chooseAck [tag]
  { lane with ackedBatch := lane.ackedBatch.insert tag () }

def acceptSettlement (lane : Lane) (tag : Nat) (settlement : Settlement) : Lane :=
  let lane := lane.setSettling tag true
  let lane := if settlement.terminal = .rejected then lane.chooseReject tag else lane
  lane.enqueueSettlement (tag, settlement)

def acceptThrough (lane : Lane) (through : Through) : Lane :=
  let lane := lane.setSettling through.target true
  let lane := through.affected.foldl (fun lane tag => lane.setSettling tag true) lane
  (lane.chooseAck through.affected).enqueueSettleThrough through

def prefixGap : ConsumerError :=
  { kind := .transport, message := "non-contiguous delivery prefix — gap in delivery tags" }

def prefixUndelivered : ConsumerError :=
  { kind := .transport, message := "delivery in prefix has no token — undelivered message in ledger" }

def prefixMissing : ConsumerError := { kind := .transport, message := "delivery tag not found in ledger" }

def walkPrefix (target : Nat) : Nat → List (Nat × Bool) → List Nat → Except ConsumerError (List Nat)
  | expected, [], tokens => if expected ≤ target then .error prefixMissing else .ok tokens
  | expected, (tag, dispatched) :: rest, tokens =>
    if tag ≠ expected then .error prefixGap
    else if dispatched then walkPrefix target (expected + 1) rest (tokens ++ [tag])
    else .error prefixUndelivered

def validatePrefix (lane : Lane) (target : Nat) : Except ConsumerError (List Nat) :=
  walkPrefix target (lane.ledger.ackedPrefix + 1)
    ((lane.ledger.pending.after lane.ledger.ackedPrefix).filter (·.1 ≤ target)) []

def retireSettlement (lane : Lane) (index : Nat) : Lane :=
  { lane with inFlight := false, pendingSettlements := lane.pendingSettlements.eraseIdx index }

def retireSettleThrough (lane : Lane) (index : Nat) : Lane :=
  { lane with inFlight := false, pendingSettleThroughs := lane.pendingSettleThroughs.eraseIdx index }

def releaseAffected (lane : Lane) (affected : List Nat) : Lane :=
  affected.foldl (fun lane tag => lane.releaseBytes (lane.sizeOf tag)) lane

def settleThrough (lane : Lane) (through : Through) (acked : Bool) : Lane :=
  { lane with
    ledger := {
      pending := lane.ledger.pending.filter fun tag =>
        !(lane.ledger.ackedPrefix < tag && tag ≤ through.target)
      ackedPrefix := if acked then through.target else lane.ledger.ackedPrefix }
    settled := lane.settled ++ through.affected }

def markAffected (lane : Lane) (affected : List Nat) (state : DeliveryState) : Lane :=
  affected.foldl (fun lane tag => (lane.setState tag state).setSettling tag false) lane

/-- A settlement frame on the channel; one that fails leaves the broker as it was. -/
def transmit (lane : Lane) (frame : Frame) (reached : Bool) : Lane :=
  if reached then
    let lane := { lane with outstanding := lane.outstanding.filter fun tag => !frame.covers tag }
    match frame with
    | .ack _ _ => lane
    | .reject tag _ => { lane with rejectReached := lane.rejectReached ++ [tag] }
  else lane

end Lane

end RabbitRs.Consumer
