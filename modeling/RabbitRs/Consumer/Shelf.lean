import RabbitRs.Consumer.Frames
import RabbitRs.Consumer.Refinement

/-!
The deliveries the actor still has to hand over, and the scheduler over them: only the arms that
dispatch move anything here, and what they do after the dispatch leaves its result alone.
-/

namespace RabbitRs.Consumer

variable {sha256 : Bytes → Bytes} {settings : Settings} {sub : Subscription} {s t : State} {e : Event}

structure Shelf where
  scheduler : Scheduler
  buffer : String → List Delivery
  parked : List (String × Delivery)

/-- The shelf with the tokens; `ended` has the tags settled and those discarded. -/
structure Counter where
  shelf : Shelf
  sending : List Sending
  states : String → Nat → Option DeliveryState
  ended : String → List Nat × List Nat

/-- The shelf with what a dispatch weighs it against. -/
structure Front where
  shelf : Shelf
  bytes : String → Nat
  queue : List QueueItem
  sourceErrors : List ConsumerError

structure Lane.Face where
  buffer : List Delivery
  bytes : Nat

def Lane.face (lane : Lane) : Lane.Face := ⟨lane.buffer, lane.bufferedBytes⟩

def Lane.ended (lane : Lane) : List Nat × List Nat := (lane.settled, lane.discarded)

theorem Lane.ended_of {lane other : Lane} (stock : lane.stock = other.stock) (books : lane.books = other.books) :
    lane.ended = other.ended :=
  congrArg₂ (fun stock books => (books.settled, stock.discarded)) stock books

theorem Lane.ended_of_core {lane other : Lane} (same : lane.core = other.core) : lane.ended = other.ended :=
  ended_of (stock_of_core same) (books_of_core same)

namespace State

def shelf (s : State) : Shelf where
  scheduler := s.scheduler
  buffer id := (s.lanes id).buffer
  parked := s.parked

def counter (s : State) : Counter where
  shelf := s.shelf
  sending := s.sending
  states id := (s.lanes id).states
  ended id := (s.lanes id).ended

def front (s : State) : Front where
  shelf := s.shelf
  bytes id := (s.lanes id).bufferedBytes
  queue := s.queue
  sourceErrors := s.sourceErrors

theorem shelf_modify_eq (id : String) (change : Lane → Lane) : (s.modify id change).shelf =
    { s.shelf with buffer := Function.update s.shelf.buffer id (change (s.lanes id)).buffer } := by
  have buffers : (fun name => ((s.modify id change).lanes name).buffer) =
      Function.update (fun name => (s.lanes name).buffer) id (change (s.lanes id)).buffer := by
    funext name
    unfold modify
    by_cases here : name = id
    · subst here
      simp
    · simp [here]
  exact congrArg (fun buffer => { s.shelf with buffer }) buffers

theorem part_modify {Part : Type} (part : Lane → Part) {id : String} {change : Lane → Lane}
    (same : part (change (s.lanes id)) = part (s.lanes id)) (name : String) :
    part ((s.modify id change).lanes name) = part (s.lanes name) := by
  unfold modify
  by_cases here : name = id
  · subst here
    simpa using same
  · simp [here]

theorem shelf_modify {id : String} {change : Lane → Lane}
    (same : (change (s.lanes id)).buffer = (s.lanes id).buffer) : (s.modify id change).shelf = s.shelf :=
  congrArg (fun buffer => { s.shelf with buffer }) (funext (part_modify Lane.buffer same))

theorem counter_modify {id : String} {change : Lane → Lane}
    (buffer : (change (s.lanes id)).buffer = (s.lanes id).buffer)
    (states : (change (s.lanes id)).states = (s.lanes id).states)
    (ended : (change (s.lanes id)).ended = (s.lanes id).ended) : (s.modify id change).counter = s.counter := by
  unfold counter
  rw [shelf_modify buffer, funext (part_modify Lane.states states), funext (part_modify Lane.ended ended)]
  rfl

theorem bytes_modify {id : String} {change : Lane → Lane}
    (same : (change (s.lanes id)).bufferedBytes = (s.lanes id).bufferedBytes) (name : String) :
    ((s.modify id change).lanes name).bufferedBytes = (s.lanes name).bufferedBytes :=
  part_modify Lane.bufferedBytes same name

theorem front_modify {id : String} {change : Lane → Lane}
    (same : (change (s.lanes id)).face = (s.lanes id).face) : (s.modify id change).front = s.front := by
  have shelf := shelf_modify (congrArg Lane.Face.buffer same)
  have bytes : (fun name => ((s.modify id change).lanes name).bufferedBytes) =
      fun name => (s.lanes name).bufferedBytes := funext (bytes_modify (congrArg Lane.Face.bytes same))
  unfold front
  rw [shelf, bytes]
  rfl

@[simp] theorem front_recordOutcome (result : Outcome) : (s.recordOutcome result).front = s.front := by
  unfold recordOutcome
  split <;> rfl

@[simp] theorem front_recordPoison (hasDeadLetter : Bool) : (s.recordPoison hasDeadLetter).front = s.front := by
  cases hasDeadLetter <;> rfl

@[simp] theorem front_refuse (id : String) (tag : Nat) (kind : ConsumerErrorKind) (message : String) :
    (s.refuse id tag kind message).front = s.front := rfl

@[simp] theorem front_refuseThrough (id : String) (through : Through)
    (result : Outcome) : (s.refuseThrough id through result).front = s.front := by
  cases result <;> rfl

@[simp] theorem front_afterArm : s.afterArm.front = s.front := by
  unfold afterArm
  split <;> rfl

theorem counter_afterArm : s.afterArm.counter = s.counter := by
  unfold afterArm
  split <;> rfl

theorem shelf_afterArm : s.afterArm.shelf = s.shelf := congrArg Counter.shelf counter_afterArm

end State

namespace Lane

variable {lane : Lane}

theorem drainSettlementQueue_face : lane.drainSettlementQueue.face = lane.face := by
  have parts := congrArg face (@drainSettlementQueue_offDesk lane)
  exact parts

theorem markAffected_face (affected : List Nat) (state : DeliveryState) :
    (lane.markAffected affected state).face = lane.face := by
  have parts := congrArg face (@markAffected_offTokens lane affected state)
  exact parts

theorem spawn_face (frame : Frame) : (lane.spawn frame).face = lane.face := by
  cases frame <;> rfl

theorem releaseAffected_buffer (affected : List Nat) :
    (lane.releaseAffected affected).buffer = lane.buffer := by
  have parts := congrArg buffer (@releaseAffected_offBytes lane affected)
  exact parts

theorem buffer_of_core {other : Lane} (same : lane.core = other.core) : lane.buffer = other.buffer :=
  congrArg Stock.buffer (stock_of_core same)

theorem transmit_ended (frame : Frame) (reached : Bool) : (lane.transmit frame reached).ended = lane.ended :=
  ended_of (transmit_stock frame reached) (transmit_books frame reached)

theorem transmit_buffer (frame : Frame) (reached : Bool) : (lane.transmit frame reached).buffer = lane.buffer :=
  congrArg Stock.buffer (transmit_stock frame reached)

end Lane

namespace State

@[simp] theorem front_concludeSettlement (tag : Nat) (result : Outcome) :
    (s.concludeSettlement sub tag result).front = s.front := by
  unfold concludeSettlement
  split
  · exact front_modify rfl
  · split
    · exact (front_refuse ..).trans (front_modify rfl)
    · exact (front_refuse ..).trans (front_modify rfl)
    · refine (front_refuse ..).trans ((front_recordPoison _).trans (front_modify ?_))
      exact Lane.spawn_face _
    · refine (front_refuse ..).trans ((front_recordPoison _).trans (front_modify ?_))
      exact Lane.spawn_face _
    · exact (front_refuse ..).trans (front_modify rfl)

theorem counter_flushAcked : s.flushAcked.counter = s.counter := by
  have lanes : (fun id => ((s.lanes id).flushAcked).buffer) = fun id => (s.lanes id).buffer := by
    funext id
    have parts := congrArg Lane.buffer (@Lane.flushAcked_offDesk (s.lanes id))
    exact parts
  have states : (fun id => ((s.lanes id).flushAcked).states) = fun id => (s.lanes id).states := by
    funext id
    exact Lane.states_of_tokens (Lane.tokens_of_offDesk Lane.flushAcked_offDesk)
  have ended : (fun id => ((s.lanes id).flushAcked).ended) = fun id => (s.lanes id).ended :=
    funext fun _ => Lane.ended_of_core Lane.flushAcked_core
  change Counter.mk ⟨s.scheduler, fun id => ((s.lanes id).flushAcked).buffer, s.parked⟩ s.sending
    (fun id => ((s.lanes id).flushAcked).states) (fun id => ((s.lanes id).flushAcked).ended) = s.counter
  rw [lanes, states, ended]
  rfl

theorem counter_handleCommand (command : Command) : (s.handleCommand settings command).counter = s.counter := by
  have accepted {id : String} {change : Lane → Lane} (core : (change (s.lanes id)).core = (s.lanes id).core)
      (states : (change (s.lanes id)).states = (s.lanes id).states) : (s.modify id change).counter = s.counter :=
    counter_modify (Lane.buffer_of_core core) states (Lane.ended_of_core core)
  cases command with
  | settle id tag settlement =>
    unfold handleCommand handleSettle
    dsimp only
    split
    · rfl
    · split
      · exact counter_modify rfl (Lane.setSettling_states tag true) rfl
      · exact accepted (Lane.acceptSettlement_core _ _) (Lane.acceptSettlement_states _ _)
      · exact accepted (Lane.acceptSettlement_core _ _) (Lane.acceptSettlement_states _ _)
  | settleThrough id tag =>
    unfold handleCommand handleSettleThrough
    dsimp only
    split
    · rfl
    · split
      · rfl
      · split
        · rfl
        · split
          · rfl
          · rfl
          · exact accepted (Lane.acceptThrough_core _) (Lane.acceptThrough_states _)
  | settleForeign token =>
    unfold handleCommand handleSettleForeign
    dsimp only
    split
    · rfl
    · split
      · rfl
      · split <;> rfl
  | prefetchStats => rfl

theorem shelf_closeSettlement (index tag : Nat) (result : Outcome) :
    (s.closeSettlement sub index tag result).shelf = s.shelf := by
  unfold closeSettlement
  dsimp only
  have last : ∀ u : State, (u.modify sub.id fun lane =>
      ((lane.setSettling tag false).recordSettled [tag]).drainSettlementQueue).shelf = u.shelf :=
    fun u => shelf_modify (congrArg Lane.Face.buffer Lane.drainSettlementQueue_face)
  rw [last]
  cases result with
  | ok terminal => exact (shelf_modify rfl).trans (shelf_modify rfl)
  | error error =>
    exact (congrArg Front.shelf (front_refuse ..)).trans ((shelf_modify rfl).trans (shelf_modify rfl))

theorem shelf_closeSettleThrough (index : Nat) (through : Through)
    (result : Outcome) :
    (s.closeSettleThrough sub index through result).shelf = s.shelf := by
  unfold closeSettleThrough
  dsimp only
  refine (shelf_modify (congrArg Lane.Face.buffer Lane.drainSettlementQueue_face)).trans ?_
  refine (congrArg Front.shelf (front_refuseThrough ..)).trans ?_
  refine (shelf_modify ?_).trans (shelf_modify rfl)
  exact congrArg Lane.Face.buffer (Lane.markAffected_face _ _)

end State

def Event.dispatching : Event → Bool
  | .incoming | .notified | .settled _ _ | .throughSettled _ _ => true
  | _ => false

def Event.claiming : Event → Bool
  | .claim _ _ _ | .send _ => true
  | _ => false

theorem quiet_counter (stepped : step sha256 settings s e = some t) (quiet : e.dispatching = false)
    (resting : e.claiming = false) : t.counter = s.counter := by
  cases e
  case incoming | notified | settled | throughSettled => cases quiet
  case claim | send => cases resting
  case control =>
    simp only [step] at stepped
    split at stepped
    iterate 3
      · cases stepped
        rw [State.counter_afterArm, State.counter_handleCommand]
        rfl
    · cases stepped
  case controlDry =>
    simp only [step] at stepped
    split at stepped
    · cases stepped
      rfl
    · cases stepped
      exact @State.counter_flushAcked s
    · cases stepped
  case incomingDry =>
    simp only [step, Option.ite_none_right_eq_some, Option.some.injEq] at stepped
    obtain ⟨-, rfl⟩ := stepped
    split
    · exact @State.counter_flushAcked s
    · rfl
  case deliver name d =>
    simp only [step, Option.bind_eq_some_iff, Option.ite_none_right_eq_some, Option.some.injEq] at stepped
    obtain ⟨found, -, -, rfl⟩ := stepped
    exact State.counter_modify rfl rfl rfl
  case pop =>
    simp only [step] at stepped
    split at stepped
    · cases stepped
    · cases stepped
      rfl
    · cases stepped
      rfl
  case settleThrough name tag =>
    simp only [step, State.enqueue, Option.ite_none_left_eq_some, Option.ite_none_right_eq_some,
      Option.some.injEq] at stepped
    obtain ⟨-, -, rfl⟩ := stepped
    rfl
  case settleForeign token =>
    simp only [step, State.enqueue, Option.ite_none_left_eq_some, Option.some.injEq] at stepped
    obtain ⟨-, -, rfl⟩ := stepped
    rfl
  case prefetchStats =>
    simp only [step, State.enqueue, Option.ite_none_left_eq_some, Option.some.injEq] at stepped
    obtain ⟨-, rfl⟩ := stepped
    rfl
  case tick =>
    simp only [step, Option.ite_none_right_eq_some, Option.some.injEq] at stepped
    obtain ⟨-, rfl⟩ := stepped
    exact State.counter_afterArm
  case closing | expire =>
    simp only [step, Option.ite_none_right_eq_some, Option.some.injEq] at stepped
    obtain ⟨-, rfl⟩ := stepped
    rfl
  case publish name index answer =>
    simp only [step, Option.bind_eq_some_iff] at stepped
    obtain ⟨found, -, future, -, stepped⟩ := stepped
    split at stepped
    · obtain ⟨-, stepped⟩ := Option.ite_none_right_eq_some.mp stepped
      cases stepped
      exact State.counter_modify rfl rfl rfl
    · cases stepped
  case published name index answer =>
    simp only [step, Option.bind_eq_some_iff] at stepped
    obtain ⟨future, -, stepped⟩ := stepped
    split at stepped
    · obtain ⟨-, stepped⟩ := Option.ite_none_right_eq_some.mp stepped
      cases stepped
      refine State.counter_modify ?_ ?_ ?_ <;> split <;> rfl
    · cases stepped
  case perform name index answer =>
    simp only [step, Option.bind_eq_some_iff, Option.ite_none_right_eq_some, Option.some.injEq] at stepped
    obtain ⟨future, -, frame, -, -, rfl⟩ := stepped
    exact State.counter_modify (Lane.transmit_buffer _ _) (Lane.states_of_tokens (Lane.transmit_tokens _ _))
      (Lane.transmit_ended _ _)
  case performThrough name index answer =>
    simp only [step, Option.bind_eq_some_iff] at stepped
    obtain ⟨future, -, stepped⟩ := stepped
    split at stepped
    · obtain ⟨-, stepped⟩ := Option.ite_none_right_eq_some.mp stepped
      cases stepped
      exact State.counter_modify (Lane.transmit_buffer _ _) (Lane.states_of_tokens (Lane.transmit_tokens _ _))
        (Lane.transmit_ended _ _)
    · cases stepped
  case runTask name index answer =>
    simp only [step, Option.bind_eq_some_iff, Option.ite_none_left_eq_some, Option.some.injEq] at stepped
    obtain ⟨frame, -, -, rfl⟩ := stepped
    exact State.counter_modify (Lane.transmit_buffer _ _) (Lane.states_of_tokens (Lane.transmit_tokens _ _))
      (Lane.transmit_ended _ _)
  all_goals
    cases stepped
    rfl

theorem quiet_shelf (stepped : step sha256 settings s e = some t) (quiet : e.dispatching = false) :
    t.shelf = s.shelf := by
  by_cases resting : e.claiming = false
  · exact congrArg Counter.shelf (quiet_counter stepped quiet resting)
  cases e
  case send index =>
    simp only [step, Option.map_eq_some_iff] at stepped
    obtain ⟨sending, -, rfl⟩ := stepped
    unfold State.finishSend
    split
    · exact State.shelf_modify rfl
    · split
      · exact State.shelf_modify rfl
      · rfl
  case claim name tag settlement =>
    simp only [step, Option.ite_none_right_eq_some, Option.some.injEq] at stepped
    obtain ⟨-, rfl⟩ := stepped
    exact State.shelf_modify rfl
  all_goals exact absurd rfl resting

end RabbitRs.Consumer
