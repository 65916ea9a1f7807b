import Mathlib.Logic.Relation
import RabbitRs.Consumer.Actor

/-!
One subscription of the actor seen alone. `Quiet` lists what can happen to it without a decision of
the embedder and without a frame on the wire, `Flow` the part that moves deliveries on, `Marked`
those decisions and frames.
-/

namespace RabbitRs.Consumer

open Ordered (Table)

inductive LaneCommand where
  | settle (tag : Nat) (settlement : Settlement)
  | through (tag : Nat)

/-- A completed operation between the release of its bytes and the removal of its ledger entries. -/
inductive Finishing where
  | settlement (tag : Nat) (result : Outcome)
  | through (through : Through) (result : Outcome)

/-- `winding` says that the actor is past the last read of its ledgers, `closed` that it has ended. -/
structure View where
  lane : Lane
  parked : List Delivery
  incoming : List Delivery
  queue : List Item
  popped : List Item
  commands : List LaneCommand
  sending : List (Nat × Settlement)
  winding : Bool
  finishing : Option Finishing := none
  closed : Bool := false

/-- The actor may read the ledger: no completion is under way, and it is not winding up. -/
def View.Ready (v : View) : Prop := v.finishing = none ∧ v.winding = false

section Selection

variable {Value : Type*}

def ofSub (id : String) (entries : List (String × Value)) : List Value :=
  entries.filterMap fun entry => if entry.1 = id then some entry.2 else none

variable (id other : String) (value : Value) (entries more : List (String × Value))

@[simp] theorem ofSub_nil : ofSub id ([] : List (String × Value)) = [] := rfl

@[simp] theorem ofSub_cons_self : ofSub id ((id, value) :: entries) = value :: ofSub id entries := by
  simp [ofSub]

theorem ofSub_cons_other {id other : String} (ne : other ≠ id) :
    ofSub id ((other, value) :: entries) = ofSub id entries := by
  simp [ofSub, ne]

@[simp] theorem ofSub_append : ofSub id (entries ++ more) = ofSub id entries ++ ofSub id more := by
  simp [ofSub]

end Selection

def arriving : Except TransportError Delivery → Option Delivery
  | .ok delivery => some delivery
  | .error _ => none

def QueueItem.itemOf (id : String) : QueueItem → Option Item
  | .delivery item => if item.subscription = id then some item else none
  | .failure _ => none

def Command.laneCommand (id : String) : Command → Option LaneCommand
  | .settle other tag settlement => if other = id then some (.settle tag settlement) else none
  | .settleThrough other tag => if other = id then some (.through tag) else none
  | .settleForeign _ | .prefetchStats => none

def Sending.own (id : String) (sending : Sending) : Option (Nat × Settlement) :=
  if sending.id = id then some (sending.tag, sending.settlement) else none

def Stage.winding : Stage → Bool
  | .draining | .closed => true
  | _ => false

def Stage.ended : Stage → Bool
  | .closed => true
  | _ => false

def State.view (s : State) (id : String) : View where
  lane := s.lanes id
  parked := ofSub id s.parked
  incoming := (ofSub id s.incoming).filterMap arriving
  queue := s.queue.filterMap (QueueItem.itemOf id)
  popped := s.popped.filter (·.subscription == id)
  commands := s.control.filterMap (Command.laneCommand id)
  sending := s.sending.filterMap (Sending.own id)
  winding := s.stage.winding
  closed := s.stage.ended

namespace Subscription

variable (sub : Subscription)

def handed (delivery : Delivery) : Item :=
  sub.item delivery (countAttempts delivery.headers delivery.redelivered)

def poisons (delivery : Delivery) : Bool :=
  sub.maxAttempts.any fun maximum => maximum.toNat < countAttempts delivery.headers delivery.redelivered

end Subscription

namespace Lane

variable (lane : Lane)

/-- The lane side of `settle_poison` for a delivery of this channel. -/
def discard (sub : Subscription) (delivery : Delivery) : Lane :=
  lane.settlePoison (sub.settlePoison (some sub.identity) delivery.tag) delivery.tag delivery.size

def discardOversized (sub : Subscription) (delivery : Delivery) : Lane :=
  { lane with bufferedBytes := lane.bufferedBytes + delivery.size }.discard sub delivery

def conclude (sub : Subscription) (tag : Nat) (result : Outcome) : Lane :=
  match result with
  | .ok terminal => lane.setState tag terminal
  | .error error =>
    match error.kind with
    | .staleGeneration | .transport => lane.setState tag .lost
    | .maxAttempts | .invalidDelay =>
      (lane.spawn (spawnPoisonSettlement sub.hasDeadLetter tag).1).setState tag
        (spawnPoisonSettlement sub.hasDeadLetter tag).2
    | _ => lane.setState tag .pending

def beginSettlement (index tag : Nat) (result : Outcome) : Lane :=
  let lane := lane.retireSettlement index
  if State.isTerminal result then lane.releaseBytes (lane.sizeOf tag) else lane

def endSettlement (sub : Subscription) (tag : Nat) (result : Outcome) : Lane :=
  let lane := if State.isTerminal result then lane.settle tag else lane
  ((lane.setSettling tag false).conclude sub tag result).drainSettlementQueue

def beginThrough (index : Nat) (through : Through) (result : Outcome) : Lane :=
  let lane := lane.retireSettleThrough index
  if State.throughTerminal result then lane.releaseAffected through.affected else lane

def endThrough (through : Through) (result : Outcome) : Lane :=
  let lane := if State.throughTerminal result then lane.settleThrough through (State.throughAcked result)
    else lane
  (lane.markAffected through.affected (State.throughState result)).drainSettlementQueue

def closeState : Outcome → DeliveryState
  | .ok terminal => terminal
  | .error _ => .lost

def closeSettlement (index tag : Nat) (result : Outcome) : Lane :=
  ((((lane.retireSettlement index).setState tag (closeState result)).setSettling tag
    false).recordSettled [tag]).drainSettlementQueue

def closeThrough (index : Nat) (through : Through) (result : Outcome) : Lane :=
  (((lane.retireSettleThrough index).markAffected through.affected
    (closeState result)).recordSettled through.affected).drainSettlementQueue

end Lane

/-- A delayed release that goes on without a frame: published, or failed. -/
inductive SettlementFuture.Releases (future : SettlementFuture) : Progress → Prop where
  | publish {delay : Duration} : future.progress = .started → future.settlement = .release delay →
      delay ≠ .zero → future.Releases .publishing
  | unpublished {delay : Duration} (error : ConsumerError) : future.progress = .started →
      future.settlement = .release delay → delay ≠ .zero →
      error.kind ≠ .transport → error.kind ≠ .staleGeneration → future.Releases (.finished (.error error))
  | unconfirmed (error : ConsumerError) : future.progress = .publishing →
      error.kind ≠ .transport → error.kind ≠ .staleGeneration → future.Releases (.finished (.error error))

/-- A delivery on its way from the pump to the hand-off queue. -/
inductive Flow (sub : Subscription) (capacity : Nat) : View → View → Prop where
  | park {v : View} {d : Delivery} {rest : List Delivery} : v.incoming = d :: rest →
      sub.oversized d.size = false →
      Flow sub capacity v { v with
        incoming := rest, lane := v.lane.receive d, parked := v.parked ++ [d] }
  | enroll {v : View} {d : Delivery} {rest : List Delivery} : v.incoming = d :: rest → v.parked = [] →
      sub.overBudget v.lane d.size = false →
      Flow sub capacity v { v with incoming := rest, lane := (v.lane.receive d).enroll d }
  | refuse {v : View} {d : Delivery} {rest : List Delivery} : v.incoming = d :: rest →
      sub.oversized d.size = true →
      Flow sub capacity v { v with
        incoming := rest, lane := (v.lane.receive d).discardOversized sub d }
  | unpark {v : View} {d : Delivery} {rest : List Delivery} : v.parked = d :: rest →
      sub.overBudget v.lane d.size = false →
      Flow sub capacity v { v with parked := rest, lane := v.lane.enroll d }
  | unparkOversized {v : View} {d : Delivery} {rest : List Delivery} : v.parked = d :: rest →
      sub.oversized d.size = true →
      Flow sub capacity v { v with parked := rest, lane := v.lane.discardOversized sub d }
  | poison {v : View} {d : Delivery} {rest : List Delivery} : v.lane.buffer = d :: rest →
      sub.earlyAck = false → sub.poisons d = true →
      Flow sub capacity v { v with lane := { v.lane with buffer := rest }.discard sub d }
  | earlyAck {v : View} {d : Delivery} {rest : List Delivery} : v.lane.buffer = d :: rest →
      sub.earlyAck = true → sub.noAck = false → d.tag ∉ v.lane.earlyAcked →
      Flow sub capacity v { v with lane := v.lane.earlyAck capacity d.tag }
  | handEarly {v : View} {d : Delivery} {rest : List Delivery} : v.lane.buffer = d :: rest →
      sub.earlyAck = true → (sub.noAck = true ∨ d.tag ∈ v.lane.earlyAcked) →
      Flow sub capacity v { v with
        lane := v.lane.handEarly (sub.handed d) d.size rest
        queue := v.queue ++ [sub.handed d] }
  | tokenize {v : View} {d : Delivery} {rest : List Delivery} : v.lane.buffer = d :: rest →
      sub.earlyAck = false → sub.poisons d = false →
      Flow sub capacity v { v with lane := v.lane.tokenize (sub.handed d) }
  | hand {v : View} {d : Delivery} {rest : List Delivery} : v.lane.buffer = d :: rest →
      sub.earlyAck = false → sub.poisons d = false →
      Flow sub capacity v { v with
        lane := { v.lane.tokenize (sub.handed d) with buffer := rest }
        queue := v.queue ++ [sub.handed d] }

/-- What else happens to one subscription of the actor. -/
inductive Quiet (sub : Subscription) (capacity : Nat) : View → View → Prop where
  | flow {v w : View} : Flow sub capacity v w → Quiet sub capacity v w
  | deliver {v : View} (d : Delivery) : d.tag = v.lane.lastTag + 1 → Quiet sub capacity v { v with
        incoming := v.incoming ++ [d]
        lane := { v.lane with
          lastTag := d.tag
          outstanding := if sub.noAck then v.lane.outstanding else v.lane.outstanding ++ [d.tag] } }
  | pop {v : View} {item : Item} {rest : List Item} : v.queue = item :: rest →
      Quiet sub capacity v { v with queue := rest, popped := v.popped ++ [item] }
  | claim {v : View} {tag : Nat} {token : Token} (settlement : Settlement) :
      tag ∈ v.popped.map (·.tag) → v.lane.tokens tag = some token → token.state = .pending →
      Quiet sub capacity v { v with
        lane := v.lane.setState tag settlement.terminal
        sending := v.sending ++ [(tag, settlement)] }
  | send {v : View} {tag : Nat} {settlement : Settlement} {rest : List (Nat × Settlement)} :
      v.sending.Perm ((tag, settlement) :: rest) →
      Quiet sub capacity v { v with sending := rest, commands := v.commands ++ [.settle tag settlement] }
  | giveUp {v : View} {tag : Nat} {settlement : Settlement} {rest : List (Nat × Settlement)}
      {state : DeliveryState} : v.sending.Perm ((tag, settlement) :: rest) →
      state = .pending ∨ state = .lost →
      Quiet sub capacity v { v with sending := rest, lane := v.lane.setState tag state }
  | request {v : View} {tag : Nat} : tag ∈ v.popped.map (·.tag) →
      Quiet sub capacity v { v with commands := v.commands ++ [.through tag] }
  | decline {v : View} {command : LaneCommand} {rest : List LaneCommand} : v.commands = command :: rest →
      Quiet sub capacity v { v with commands := rest }
  | acceptAck {v : View} {tag : Nat} {rest : List LaneCommand} :
      v.commands = .settle tag .ack :: rest → (v.lane.tokens tag).any (·.settling) = false →
      Quiet sub capacity v { v with commands := rest, lane := v.lane.acceptAck tag }
  | flush {v : View} : v.Ready → Quiet sub capacity v { v with lane := v.lane.flushAcked }
  | progress {v : View} {index : Nat} {future : SettlementFuture} (progress : Progress) :
      v.lane.pendingSettlements[index]? = some future → future.Releases progress →
      Quiet sub capacity v { v with lane := v.lane.setProgress index future progress }
  | confirm {v : View} {index : Nat} {future : SettlementFuture} :
      v.lane.pendingSettlements[index]? = some future → future.progress = .publishing →
      Quiet sub capacity v { v with
        lane := (v.lane.chooseAck [future.tag]).setProgress index future .confirmed }
  | beginSettlement {v : View} {index : Nat} {future : SettlementFuture}
      {result : Outcome} : v.finishing = none → v.winding = false →
      v.lane.pendingSettlements[index]? = some future → future.progress = .finished result →
      Quiet sub capacity v { v with
        lane := v.lane.beginSettlement index future.tag result
        finishing := some (.settlement future.tag result) }
  | endSettlement {v : View} {tag : Nat} {result : Outcome} : v.finishing = some (.settlement tag result) →
      Quiet sub capacity v { v with lane := v.lane.endSettlement sub tag result, finishing := none }
  | beginThrough {v : View} {index : Nat} {future : ThroughFuture}
      {result : Outcome} : v.finishing = none → v.winding = false →
      v.lane.pendingSettleThroughs[index]? = some future → future.result = some result →
      Quiet sub capacity v { v with
        lane := v.lane.beginThrough index future.through result
        finishing := some (.through future.through result) }
  | endThrough {v : View} {through : Through} {result : Outcome} :
      v.finishing = some (.through through result) →
      Quiet sub capacity v { v with lane := v.lane.endThrough through result, finishing := none }
  | windUp {v : View} : v.finishing = none → Quiet sub capacity v { v with winding := true }
  | closeSettlement {v : View} {index : Nat} {future : SettlementFuture}
      {result : Outcome} : v.winding = true →
      v.lane.pendingSettlements[index]? = some future → future.progress = .finished result →
      Quiet sub capacity v { v with lane := v.lane.closeSettlement index future.tag result }
  | closeThrough {v : View} {index : Nat} {future : ThroughFuture}
      {result : Outcome} : v.winding = true →
      v.lane.pendingSettleThroughs[index]? = some future → future.result = some result →
      Quiet sub capacity v { v with lane := v.lane.closeThrough index future.through result }
  | dropFutures {v : View} : v.winding = true → Quiet sub capacity v { v with
        lane := { v.lane with pendingSettlements := [], pendingSettleThroughs := [] }
        closed := true }

/-- A decision of the embedder that the actor takes up, or a frame on the wire. -/
inductive Mark where
  | settle (tag : Nat) (settlement : Settlement)
  | through (through : Through)
  | frame (frame : Frame) (reached : Bool)
  deriving DecidableEq

inductive Marked : View → Mark → View → Prop where
  | settle {v : View} {tag : Nat} {settlement : Settlement} {rest : List LaneCommand} : v.Ready →
      v.commands = .settle tag settlement :: rest → settlement ≠ .ack →
      (v.lane.tokens tag).any (·.settling) = false →
      Marked v (.settle tag settlement) { v with
        commands := rest, lane := v.lane.acceptSettlement tag settlement }
  | through {v : View} {through : Through} {rest : List LaneCommand} : v.Ready →
      v.commands = .through through.target :: rest →
      (v.lane.tokens through.target).any (·.state != .pending) = false →
      (v.lane.tokens through.target).any (·.settling) = false →
      v.lane.ledger.ackedPrefix < through.target →
      v.lane.validatePrefix through.target = .ok through.affected → through.affected ≠ [] →
      Marked v (.through through) { v with commands := rest, lane := v.lane.acceptThrough through }
  | perform {v : View} {index : Nat} {future : SettlementFuture} {frame : Frame}
      (answer : Except TransportError Unit) : v.lane.pendingSettlements[index]? = some future →
      future.frame = some frame →
      Marked v (.frame frame (reached answer)) { v with
        lane := (v.lane.transmit frame (reached answer)).setProgress index future
          (.finished (answerState frame.outcome answer)) }
  | performThrough {v : View} {index : Nat} {future : ThroughFuture} (answer : Except TransportError Unit) :
      v.lane.pendingSettleThroughs[index]? = some future → future.result = none →
      Marked v (.frame (.ack future.through.target true) (reached answer)) { v with
        lane := (v.lane.transmit (.ack future.through.target true) (reached answer)).setResult index future
          (answerState .acked answer) }
  | task {v : View} {index : Nat} {frame : Frame} (answer : Except TransportError Unit) :
      v.lane.tasks[index]? = some frame →
      Marked v (.frame frame (reached answer)) { v with
        lane := { v.lane.transmit frame (reached answer) with tasks := v.lane.tasks.eraseIdx index } }

def Flows (sub : Subscription) (capacity : Nat) : View → View → Prop :=
  Relation.ReflTransGen (Flow sub capacity)

def Path (sub : Subscription) (capacity : Nat) : View → View → Prop :=
  Relation.ReflTransGen (Quiet sub capacity)

/-- What of a command the actor takes up for a subscription; acknowledgements are only recorded. -/
def State.takesUp (s : State) (id : String) : Command → Option Mark
  | .settle name tag settlement =>
    if name = id ∧ settlement ≠ .ack ∧ s.settling id tag = false then some (.settle tag settlement)
    else none
  | .settleThrough name tag =>
    if name = id ∧ ((s.lanes id).tokens tag).any (·.state != .pending) = false ∧
        s.settling id tag = false ∧ (s.lanes id).ledger.ackedPrefix < tag then
      match (s.lanes id).validatePrefix tag with
      | .ok (first :: rest) => some (.through { target := tag, affected := first :: rest })
      | _ => none
    else none
  | .settleForeign _ | .prefetchStats => none

/-- The decision a step takes up for a subscription, or the frame it puts on its channel. -/
def Event.marks (s : State) (id : String) : Event → Option Mark
  | .control => s.control.head?.bind (s.takesUp id)
  | .perform name index answer =>
    if name = id then
      ((s.lanes id).pendingSettlements[index]?.bind (·.frame)).map (.frame · (reached answer))
    else none
  | .performThrough name index answer =>
    if name = id then
      ((s.lanes id).pendingSettleThroughs[index]?).map fun future =>
        .frame (.ack future.through.target true) (reached answer)
    else none
  | .runTask name index answer =>
    if name = id then (s.lanes id).tasks[index]?.map (.frame · (reached answer)) else none
  | _ => none

end RabbitRs.Consumer
