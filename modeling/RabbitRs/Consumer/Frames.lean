import RabbitRs.Consumer.Channel

/-!
What the operations of a lane leave alone, by its parts: stock, books, bytes and what the broker
holds outstanding (its core), and the desk where settlements are staged.
-/

namespace RabbitRs.Consumer

open Ordered (Table)

structure Stock where
  buffer : List Delivery
  arrived : List Delivery
  discarded : List Nat
  lastTag : Nat
  earlyAcked : List Nat

structure Books where
  ledger : Ledger
  settled : List Nat

structure Bytesheet where
  bufferedBytes : Nat
  saturated : Bool

structure Desk where
  inFlight : Bool
  pendingSettlements : List SettlementFuture
  pendingSettleThroughs : List ThroughFuture
  settlementQueue : List (Nat × Settlement)
  settleThroughQueue : List Through
  ackedBatch : Table Nat Unit

structure Core where
  stock : Stock
  books : Books
  bytesheet : Bytesheet
  outstanding : List Nat

structure Choices where
  ackChosen : List Nat
  rejectChosen : List Nat
  rejectReached : List Nat
  tasks : List Frame

namespace Lane

variable (lane : Lane)

def stock : Stock := ⟨lane.buffer, lane.arrived, lane.discarded, lane.lastTag, lane.earlyAcked⟩

def books : Books := ⟨lane.ledger, lane.settled⟩

def bytesheet : Bytesheet := ⟨lane.bufferedBytes, lane.saturated⟩

def desk : Desk :=
  ⟨lane.inFlight, lane.pendingSettlements, lane.pendingSettleThroughs, lane.settlementQueue,
    lane.settleThroughQueue, lane.ackedBatch⟩

def core : Core := ⟨lane.stock, lane.books, lane.bytesheet, lane.outstanding⟩

def choices : Choices := ⟨lane.ackChosen, lane.rejectChosen, lane.rejectReached, lane.tasks⟩

def offDesk : Lane :=
  { lane with
    inFlight := false
    pendingSettlements := []
    pendingSettleThroughs := []
    settlementQueue := []
    settleThroughQueue := []
    ackedBatch := .empty }

def offTokens : Lane := { lane with tokens := fun _ => none }

def offBytes : Lane := { lane with bufferedBytes := 0, saturated := false }

variable {lane}

theorem foldl_keeps {Part Value : Type*} {operate : Lane → Part → Lane} (look : Lane → Value)
    (keeps : ∀ lane part, look (operate lane part) = look lane) (parts : List Part) (lane : Lane) :
    look (parts.foldl operate lane) = look lane := by
  induction parts generalizing lane with
  | nil => rfl
  | cons part rest ih => rw [List.foldl_cons, ih, keeps]

theorem enqueueSettlement_offDesk (params : Nat × Settlement) :
    (lane.enqueueSettlement params).offDesk = lane.offDesk := by
  unfold enqueueSettlement
  split <;> rfl

theorem enqueueSettleThrough_offDesk (through : Through) :
    (lane.enqueueSettleThrough through).offDesk = lane.offDesk := by
  unfold enqueueSettleThrough
  split <;> rfl

theorem drainSettlementQueue_offDesk : lane.drainSettlementQueue.offDesk = lane.offDesk := by
  unfold drainSettlementQueue
  split <;> rfl

theorem flushAcked_offDesk : lane.flushAcked.offDesk = lane.offDesk := by
  unfold flushAcked
  split
  · rfl
  · dsimp only
    split
    · rfl
    · rw [foldl_keeps offDesk fun _ _ => enqueueSettlement_offDesk _]
      rfl

theorem markAffected_offTokens (affected : List Nat) (state : DeliveryState) :
    (lane.markAffected affected state).offTokens = lane.offTokens := by
  refine foldl_keeps offTokens ?_ affected lane
  exact fun _ _ => rfl

def claimAll (lane : Lane) (affected : List Nat) : Lane :=
  affected.foldl (fun lane tag => lane.setSettling tag true) lane

theorem claimAll_offTokens (affected : List Nat) : (lane.claimAll affected).offTokens = lane.offTokens := by
  refine foldl_keeps offTokens ?_ affected lane
  exact fun _ _ => rfl

theorem acceptThrough_eq (through : Through) : lane.acceptThrough through =
      (((lane.setSettling through.target true).claimAll through.affected).chooseAck
        through.affected).enqueueSettleThrough through := rfl

theorem releaseAffected_offBytes (affected : List Nat) :
    (lane.releaseAffected affected).offBytes = lane.offBytes := by
  refine foldl_keeps offBytes ?_ affected lane
  exact fun _ _ => rfl

theorem tokens_of_offDesk {other : Lane} (same : lane.offDesk = other.offDesk) : lane.tokens = other.tokens := by
  have parts := congrArg Lane.tokens same
  exact parts

theorem drainSettlementQueue_tokens : lane.drainSettlementQueue.tokens = lane.tokens :=
  tokens_of_offDesk drainSettlementQueue_offDesk

theorem spawn_tokens (frame : Frame) : (lane.spawn frame).tokens = lane.tokens := by
  cases frame <;> rfl

theorem transmit_tokens (frame : Frame) (reached : Bool) : (lane.transmit frame reached).tokens = lane.tokens := by
  cases reached <;> cases frame <;> rfl

theorem releaseAffected_tokens (affected : List Nat) : (lane.releaseAffected affected).tokens = lane.tokens := by
  have parts := congrArg Lane.tokens (@releaseAffected_offBytes lane affected)
  exact parts

theorem acceptSettlement_tokens {tag : Nat} {settlement : Settlement} :
    (lane.acceptSettlement tag settlement).tokens = (lane.setSettling tag true).tokens := by
  refine (tokens_of_offDesk (enqueueSettlement_offDesk _)).trans ?_
  split <;> rfl

theorem acceptThrough_tokens {through : Through} : (lane.acceptThrough through).tokens =
      ((lane.setSettling through.target true).claimAll through.affected).tokens := by
  rw [acceptThrough_eq, tokens_of_offDesk (enqueueSettleThrough_offDesk _)]
  rfl

def states (lane : Lane) (tag : Nat) : Option DeliveryState := (lane.tokens tag).map (·.state)

theorem states_of_tokens {other : Lane} (same : lane.tokens = other.tokens) : lane.states = other.states := by
  funext tag
  rw [states, states, same]

theorem setSettling_states (tag : Nat) (settling : Bool) : (lane.setSettling tag settling).states = lane.states := by
  funext other
  unfold states setSettling changeToken
  by_cases same : other = tag
  · simp [same, Function.comp_def]
  · simp [same]

theorem acceptSettlement_states (tag : Nat) (settlement : Settlement) :
    (lane.acceptSettlement tag settlement).states = lane.states :=
  (states_of_tokens acceptSettlement_tokens).trans (setSettling_states tag true)

theorem acceptThrough_states (through : Through) : (lane.acceptThrough through).states = lane.states := by
  refine (states_of_tokens acceptThrough_tokens).trans ?_
  refine (foldl_keeps states ?_ through.affected _).trans (setSettling_states through.target true)
  exact fun lane tag => setSettling_states tag true

theorem core_of_offDesk {other : Lane} (same : lane.offDesk = other.offDesk) : lane.core = other.core := by
  have parts := congrArg core same
  exact parts

theorem core_of_offTokens {other : Lane} (same : lane.offTokens = other.offTokens) :
    lane.core = other.core := by
  have parts := congrArg core same
  exact parts

@[simp] theorem enqueueSettlement_core (params : Nat × Settlement) :
    (lane.enqueueSettlement params).core = lane.core :=
  core_of_offDesk (enqueueSettlement_offDesk params)

@[simp] theorem enqueueSettleThrough_core (through : Through) :
    (lane.enqueueSettleThrough through).core = lane.core :=
  core_of_offDesk (enqueueSettleThrough_offDesk through)

@[simp] theorem drainSettlementQueue_core : lane.drainSettlementQueue.core = lane.core :=
  core_of_offDesk drainSettlementQueue_offDesk

@[simp] theorem flushAcked_core : lane.flushAcked.core = lane.core :=
  core_of_offDesk flushAcked_offDesk

@[simp] theorem markAffected_core (affected : List Nat) (state : DeliveryState) :
    (lane.markAffected affected state).core = lane.core :=
  core_of_offTokens (markAffected_offTokens affected state)

@[simp] theorem spawn_core (frame : Frame) : (lane.spawn frame).core = lane.core := by
  cases frame <;> rfl

def giveUp (lane : Lane) (tag bytes : Nat) : Lane :=
  { (lane.releaseBytes bytes).settle tag with discarded := lane.discarded ++ [tag] }

theorem discard_core (sub : Subscription) (d : Delivery) :
    (lane.discard sub d).core = (lane.giveUp d.tag d.size).core := by
  unfold discard settlePoison
  cases sub.settlePoison (some sub.identity) d.tag with
  | none => rfl
  | some frame => cases frame <;> rfl

def deduct (lane : Lane) (frame : Frame) (reached : Bool) : List Nat :=
  if reached then lane.outstanding.filter fun tag => !frame.covers tag else lane.outstanding

theorem transmit_eq (frame : Frame) (reached : Bool) : ∃ rejectReached, lane.transmit frame reached =
    { lane with outstanding := lane.deduct frame reached, rejectReached } := by
  cases reached <;> cases frame <;> exact ⟨_, rfl⟩

theorem transmit_core (frame : Frame) (reached : Bool) :
    (lane.transmit frame reached).core = { lane.core with outstanding := lane.deduct frame reached } := by
  cases reached <;> cases frame <;> rfl

@[simp] theorem acceptSettlement_core (tag : Nat) (settlement : Settlement) :
    (lane.acceptSettlement tag settlement).core = lane.core := by
  unfold acceptSettlement
  dsimp only
  rw [enqueueSettlement_core]
  split <;> rfl

@[simp] theorem acceptThrough_core (through : Through) : (lane.acceptThrough through).core = lane.core := by
  rw [acceptThrough_eq, enqueueSettleThrough_core]
  change ((lane.setSettling through.target true).claimAll through.affected).core = lane.core
  exact core_of_offTokens (claimAll_offTokens through.affected)

@[simp] theorem conclude_core (sub : Subscription) (tag : Nat)
    (result : Outcome) : (lane.conclude sub tag result).core = lane.core := by
  cases result with
  | ok terminal => rfl
  | error error =>
    obtain ⟨kind, message, source⟩ := error
    cases kind
    case maxAttempts | invalidDelay => exact spawn_core _
    all_goals rfl

theorem beginSettlement_core (index tag : Nat) (result : Outcome) :
    (lane.beginSettlement index tag result).core =
      if State.isTerminal result then (lane.releaseBytes (lane.sizeOf tag)).core else lane.core := by
  unfold beginSettlement
  dsimp only
  split <;> rfl

theorem endSettlement_core (sub : Subscription) (tag : Nat) (result : Outcome) :
    (lane.endSettlement sub tag result).core =
      if State.isTerminal result then (lane.settle tag).core else lane.core := by
  unfold endSettlement
  dsimp only
  rw [drainSettlementQueue_core, conclude_core]
  split <;> rfl

theorem beginThrough_core (index : Nat) (through : Through) (result : Outcome) :
    (lane.beginThrough index through result).core =
      if State.throughTerminal result then ((lane.retireSettleThrough index).releaseAffected through.affected).core
      else lane.core := by
  unfold beginThrough
  dsimp only
  split <;> rfl

theorem endThrough_core (through : Through) (result : Outcome) : (lane.endThrough through result).core =
      if State.throughTerminal result then (lane.settleThrough through (State.throughAcked result)).core
      else lane.core := by
  unfold endThrough
  dsimp only
  rw [drainSettlementQueue_core, markAffected_core]
  split <;> rfl

theorem closeSettlement_core (index tag : Nat) (result : Outcome) :
    (lane.closeSettlement index tag result).core = (lane.recordSettled [tag]).core :=
  drainSettlementQueue_core

theorem closeThrough_core (index : Nat) (through : Through) (result : Outcome) :
    (lane.closeThrough index through result).core = (lane.recordSettled through.affected).core := by
  unfold closeThrough
  rw [drainSettlementQueue_core]
  have marked := @markAffected_core (lane.retireSettleThrough index) through.affected (closeState result)
  have recorded := congrArg (fun core : Core =>
    { core with books := { core.books with settled := core.books.settled ++ through.affected } }) marked
  exact recorded

theorem stock_of_core {other : Lane} (same : lane.core = other.core) : lane.stock = other.stock :=
  congrArg Core.stock same

theorem discard_stock (sub : Subscription) (d : Delivery) :
    (lane.discard sub d).stock = { lane.stock with discarded := lane.discarded ++ [d.tag] } := by
  have parts := congrArg Core.stock (@discard_core lane sub d)
  exact parts

theorem releaseAffected_stock (affected : List Nat) : (lane.releaseAffected affected).stock = lane.stock := by
  have parts := congrArg stock (@releaseAffected_offBytes lane affected)
  exact parts

theorem transmit_stock (frame : Frame) (reached : Bool) : (lane.transmit frame reached).stock = lane.stock :=
  congrArg Core.stock (transmit_core frame reached)

theorem beginSettlement_stock (index tag : Nat) (result : Outcome) :
    (lane.beginSettlement index tag result).stock = lane.stock := by
  refine (congrArg Core.stock (beginSettlement_core index tag result)).trans ?_
  split <;> rfl

theorem endSettlement_stock (sub : Subscription) (tag : Nat)
    (result : Outcome) : (lane.endSettlement sub tag result).stock = lane.stock := by
  refine (congrArg Core.stock (endSettlement_core sub tag result)).trans ?_
  split <;> rfl

theorem beginThrough_stock (index : Nat) (through : Through)
    (result : Outcome) :
    (lane.beginThrough index through result).stock = lane.stock := by
  refine (congrArg Core.stock (beginThrough_core index through result)).trans ?_
  split
  · exact releaseAffected_stock _
  · rfl

theorem endThrough_stock (through : Through) (result : Outcome) :
    (lane.endThrough through result).stock = lane.stock := by
  refine (congrArg Core.stock (endThrough_core through result)).trans ?_
  split <;> rfl

theorem closeSettlement_stock (index tag : Nat) (result : Outcome) :
    (lane.closeSettlement index tag result).stock = lane.stock :=
  congrArg Core.stock (closeSettlement_core index tag result)

theorem closeThrough_stock (index : Nat) (through : Through) (result : Outcome) :
    (lane.closeThrough index through result).stock = lane.stock :=
  congrArg Core.stock (closeThrough_core index through result)

theorem books_of_core {other : Lane} (same : lane.core = other.core) : lane.books = other.books :=
  congrArg Core.books same

theorem ledger_of_books {other : Lane} (same : lane.books = other.books) : lane.ledger = other.ledger :=
  congrArg Books.ledger same

theorem discard_books (sub : Subscription) (d : Delivery) :
    (lane.discard sub d).books = (lane.settle d.tag).books := by
  have parts := congrArg Core.books (@discard_core lane sub d)
  exact parts

theorem releaseAffected_books (affected : List Nat) : (lane.releaseAffected affected).books = lane.books := by
  have parts := congrArg books (@releaseAffected_offBytes lane affected)
  exact parts

theorem transmit_books (frame : Frame) (reached : Bool) : (lane.transmit frame reached).books = lane.books :=
  congrArg Core.books (transmit_core frame reached)

theorem beginSettlement_books (index tag : Nat) (result : Outcome) :
    (lane.beginSettlement index tag result).books = lane.books := by
  refine (congrArg Core.books (beginSettlement_core index tag result)).trans ?_
  split <;> rfl

theorem endSettlement_books (sub : Subscription) (tag : Nat) (result : Outcome) :
    (lane.endSettlement sub tag result).books =
      if State.isTerminal result then (lane.settle tag).books else lane.books := by
  refine (congrArg Core.books (endSettlement_core sub tag result)).trans ?_
  split <;> rfl

theorem beginThrough_books (index : Nat) (through : Through) (result : Outcome) :
    (lane.beginThrough index through result).books = lane.books := by
  refine (congrArg Core.books (beginThrough_core index through result)).trans ?_
  split
  · exact releaseAffected_books _
  · rfl

theorem endThrough_books (through : Through) (result : Outcome) : (lane.endThrough through result).books =
      if State.throughTerminal result then (lane.settleThrough through (State.throughAcked result)).books
      else lane.books := by
  refine (congrArg Core.books (endThrough_core through result)).trans ?_
  split <;> rfl

theorem desk_of_offTokens {other : Lane} (same : lane.offTokens = other.offTokens) :
    lane.desk = other.desk := by
  have parts := congrArg desk same
  exact parts

theorem markAffected_desk (affected : List Nat) (state : DeliveryState) :
    (lane.markAffected affected state).desk = lane.desk :=
  desk_of_offTokens (markAffected_offTokens affected state)

theorem releaseAffected_desk (affected : List Nat) : (lane.releaseAffected affected).desk = lane.desk := by
  have parts := congrArg desk (@releaseAffected_offBytes lane affected)
  exact parts

theorem spawn_desk (frame : Frame) : (lane.spawn frame).desk = lane.desk := by
  cases frame <;> rfl

theorem discard_desk (sub : Subscription) (d : Delivery) : (lane.discard sub d).desk = lane.desk := by
  unfold discard settlePoison
  cases sub.settlePoison (some sub.identity) d.tag with
  | none => rfl
  | some frame => cases frame <;> rfl

theorem transmit_desk (frame : Frame) (reached : Bool) : (lane.transmit frame reached).desk = lane.desk := by
  cases reached <;> cases frame <;> rfl

theorem conclude_desk (sub : Subscription) (tag : Nat) (result : Outcome) :
    (lane.conclude sub tag result).desk = lane.desk := by
  cases result with
  | ok terminal => rfl
  | error error =>
    obtain ⟨kind, message, source⟩ := error
    cases kind
    case maxAttempts | invalidDelay => exact spawn_desk _
    all_goals rfl

end Lane

end RabbitRs.Consumer
