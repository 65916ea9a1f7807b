import RabbitRs.Lib.Keyed
import RabbitRs.Lib.Machine
import RabbitRs.Publisher.Wire

/-!
The publisher actor (`publisher/actor.rs`). A step is one branch of its `select!`, one item of
`publish_queue`, or the answer to one await; answers and the choice of the branch belong to the
environment.
-/

namespace RabbitRs.Publisher

open Keyed (values)

structure PublisherConfig where
  bufferCapacity : Nat
  confirmTimeout : Duration
  maxBufferedBytes : Nat := 64 * 1024 * 1024
  safety : SafetyMode

def PublisherConfig.enablesConfirms (config : PublisherConfig) : Bool := config.safety = .safe

def PublisherConfig.mandatoryFlag (config : PublisherConfig) : Bool := config.safety = .safe

structure Settings where
  config : PublisherConfig
  delayStrategy : Option DelayStrategy

structure ReturnInfo where
  code : UInt16
  text : String
  exchange : String
  routingKey : String
  deriving DecidableEq

inductive PublishOutcome where
  | confirmed (messageId : String)
  | returned (messageId : String) (reply : ReturnInfo)
  deriving DecidableEq

/-- `transport::PublishConfirmation`; of a returned message only the reply is read. -/
inductive PublishConfirmation where
  | ack (returned : Option ReturnInfo)
  | nack (returned : Option ReturnInfo)
  | notRequested

abbrev Outcome := Except PublishError PublishOutcome

/-- A publication and its waiter. The code identifies a waiter by its channel end, the model by
`ticket`; the permit and the byte reservation live as long as the record. -/
structure RetainedPublish where
  ticket : Nat
  request : PublishRequest
  timeout : Nat
  retried : Bool := false
  sequence : Nat := 0

def RetainedPublish.bytes (retained : RetainedPublish) : Nat := retained.request.payload.length

structure InFlightPublish where
  retained : RetainedPublish
  generation : Nat

inductive ConnectionEvent where
  | recovering (generation : Nat)
  | ready (generation : Nat) (channel : Channel) (topologyRestored : Bool)
  | failedPermanent (generation : Nat) (error : TransportError)

/-- `reply` stands for the sender the command carries. -/
inductive Command where
  | publish (retained : RetainedPublish)
  | connectionEvent (event : ConnectionEvent) (reply : Nat)
  | close (reply : Nat)

inductive Phase where
  | ready
  | suspended
  | failedPermanent
  deriving DecidableEq

/-- A wire write the transport has not answered; `ticket` and `channel` record what was written
and where. -/
structure PendingWrite where
  sequence : Nat
  deadline : Nat
  ticket : Nat
  channel : Channel

structure PendingConfirmation where
  sequence : Nat
  generation : Nat
  deadline : Nat
  ticket : Nat
  channel : Channel

inductive Resume where
  | deferred (command : Option Command)
  | recovered (reply : Nat)
  | closing (deadline reply : Nat)

inductive Mode where
  | starting
  | idle
  | draining (pending : List RetainedPublish) (now : Nat) (resume : Resume)
  | declaring (item : RetainedPublish) (channel : Channel) (declaration : Declaration)
      (pending : List RetainedPublish) (resume : Resume)
  | handling (command : Command)
  | enabling (generation : Nat) (channel : Channel) (reply : Nat)
  | closing (deadline reply : Nat)
  | closingChannel (reply : Nat)
  | stopped

def Mode.isStopped : Mode → Bool
  | .stopped => true
  | _ => false

/-- `accepted`, `resolved`, `replies` and `wire` only record what happened. -/
structure State where
  clock : Nat := 0
  commands : List Command := []
  handlesOpen : Bool := true
  permits : Nat
  budget : Nat := 0
  mode : Mode := .starting
  phase : Phase := .ready
  generation : Nat := 1
  channel : Option Channel
  replay : List RetainedPublish := []
  publishing : AList (fun _ : Nat => RetainedPublish) := ∅
  ledger : AList (fun _ : Nat => InFlightPublish) := ∅
  confirmations : List PendingConfirmation := []
  publishInFlight : List PendingWrite := []
  sequence : Nat := 0
  permanentError : Option PublishError := none
  declaredTopology : List String := []
  accepted : Nat := 0
  resolved : List (Nat × Outcome) := []
  replies : List (Nat × Except PublishError Unit) := []
  wire : List WireEvent := []

def closedError (message : String) : PublishError := { kind := .closed, message }

/-- What a waiter sees when its sender is dropped unused. -/
def droppedWaiter : PublishError := closedError "publisher actor closed before resolving the command"

def deadlineExpired : PublishError := { kind := .timeout, message := "publish deadline expired" }

def expiredInRecovery : PublishError :=
  { kind := .timeout, message := "publish deadline expired during connection recovery" }

def permanentFailure (error : Option PublishError) : PublishError :=
  error.getD { kind := .transport, message := "publisher connection failed permanently" }

def State.resolveAll (s : State) (batch : List RetainedPublish) (outcome : RetainedPublish → Outcome) : State :=
  { s with
    resolved := s.resolved ++ batch.map fun retained => (retained.ticket, outcome retained)
    permits := s.permits + batch.length
    budget := s.budget - (batch.map RetainedPublish.bytes).sum }

def State.completeError (s : State) (retained : RetainedPublish) (error : PublishError) : State :=
  s.resolveAll [retained] fun _ => .error error

def State.answer (s : State) (reply : Nat) (result : Except PublishError Unit) : State :=
  { s with replies := s.replies ++ [(reply, result)] }

def sequenceOrder (a b : RetainedPublish) : Prop := a.sequence ≤ b.sequence

instance : DecidableRel sequenceOrder := fun a b => Nat.decLe a.sequence b.sequence

def State.suspend (s : State) (generation : Nat) : State :=
  { s with
    generation := if 0 < generation then max s.generation generation else s.generation
    phase := .suspended
    channel := none
    replay := (s.replay ++ values s.publishing ++
      (values s.ledger).map InFlightPublish.retained).insertionSort sequenceOrder
    publishing := ∅
    ledger := ∅
    confirmations := []
    publishInFlight := [] }

def State.failAll (s : State) (error : PublishError) : State :=
  { s with
    replay := []
    publishing := ∅
    ledger := ∅
    confirmations := []
    publishInFlight := [] }.resolveAll
      (s.replay ++ (values s.ledger).map InFlightPublish.retained ++ values s.publishing)
      fun _ => .error error

def overdue (clock : Nat) (retained : RetainedPublish) : Bool := retained.request.deadline ≤ clock

def lost (clock : Nat) (retained : RetainedPublish) : Bool := overdue clock retained && retained.retried

def rearm (clock : Nat) (retained : RetainedPublish) : RetainedPublish :=
  if overdue clock retained then
    { retained with
      retried := true
      request := { retained.request with deadline := clock + retained.timeout } }
  else retained

def State.expireReplay (s : State) : State :=
  { s with
    replay := (s.replay.filter fun retained => !lost s.clock retained).map (rearm s.clock)
  }.resolveAll (s.replay.filter (lost s.clock)) fun _ => .error expiredInRecovery

def State.hasPendingPublications (s : State) : Bool :=
  !s.replay.isEmpty || !s.publishing.entries.isEmpty || !s.ledger.entries.isEmpty ||
    !s.confirmations.isEmpty || !s.publishInFlight.isEmpty

def State.nextDeadline (s : State) : Option Nat :=
  match s.phase with
  | .ready | .failedPermanent => none
  | .suspended => (s.replay.map fun retained => retained.request.deadline).min?

/-- `HashMap::insert` drops the value it displaces, and with it that publication's waiter. -/
def State.insertPublishing (s : State) (sequence : Nat) (retained : RetainedPublish) : State :=
  { s with publishing := s.publishing.insert sequence retained }.resolveAll
    (s.publishing.lookup sequence).toList fun _ => .error droppedWaiter

def State.insertLedger (s : State) (sequence : Nat) (entry : InFlightPublish) : State :=
  { s with ledger := s.ledger.insert sequence entry }.resolveAll
    ((s.ledger.lookup sequence).toList.map InFlightPublish.retained) fun _ => .error droppedWaiter

inductive WireWriteOutcome where
  | completed (result : Except TransportError Unit)
  | timedOut

inductive ConfirmationResult where
  | completed (result : Except TransportError PublishConfirmation)
  | timedOut

def WireWriteOutcome.isTimedOut : WireWriteOutcome → Bool
  | .timedOut => true
  | .completed _ => false

def ConfirmationResult.isTimedOut : ConfirmationResult → Bool
  | .timedOut => true
  | .completed _ => false

inductive FirstPoll where
  | completed (result : Except TransportError Unit)
  | pending

inductive Event where
  | tick (nanos : Nat)
  | publish (request : PublishRequest)
  | connectionEvent (event : ConnectionEvent) (reply : Nat)
  | close (reply : Nat)
  | dropHandles
  | receive
  | expire
  | written (index : Nat) (outcome : WireWriteOutcome)
  | confirmed (index : Nat) (result : ConfirmationResult)
  | confirmsEnabled (result : Except TransportError Unit)
  | declared (result : Except TransportError Unit) (poll : FirstPoll)
  | proceed (poll : FirstPoll)
  | quiesced
  | channelClosed

section

variable (sha256 : Bytes → Bytes) (settings : Settings)

def waitBound (retained : RetainedPublish) (now : Nat) : Nat :=
  min retained.request.deadline (now + settings.config.confirmTimeout.nanos)

def confirmedOutcome (retained : RetainedPublish) : Outcome :=
  .ok (.confirmed retained.request.properties.messageId)

def handlePublishCompletion (s : State) (write : PendingWrite) (outcome : WireWriteOutcome) : State :=
  match s.publishing.lookup write.sequence with
  | none => s
  | some retained =>
    let t := { s with publishing := s.publishing.erase write.sequence }
    match outcome with
    | .completed (.ok ()) =>
      if settings.config.enablesConfirms then
        { t.insertLedger write.sequence { retained, generation := s.generation } with
          confirmations := s.confirmations ++ [{
            sequence := write.sequence
            generation := s.generation
            deadline := waitBound settings retained s.clock
            ticket := write.ticket
            channel := write.channel }] }
      else t.resolveAll [retained] confirmedOutcome
    | .timedOut => t.completeError retained deadlineExpired
    | .completed (.error error) =>
      if error.isRecoverable then
        { t with replay := s.replay ++ [retained], publishInFlight := [] }.suspend s.generation
      else t.completeError retained (.fromTransport error)

def confirmationOutcome (retained : RetainedPublish) : ConfirmationResult → Outcome
  | .timedOut => .error { kind := .timeout, message := "publisher confirmation timed out" }
  | .completed (.error error) => .error (.fromTransport error)
  | .completed (.ok (.ack (some reply))) | .completed (.ok (.nack (some reply))) =>
    .ok (.returned retained.request.properties.messageId reply)
  | .completed (.ok (.ack none)) => confirmedOutcome retained
  | .completed (.ok (.nack none)) =>
    .error { kind := .nack, message := "broker negatively acknowledged the message" }
  | .completed (.ok .notRequested) =>
    .error { kind := .unconfirmed, message := "publisher confirms were not enabled" }

def ConfirmationResult.recoverable : ConfirmationResult → Bool
  | .completed (.error error) => error.isRecoverable
  | _ => false

def resolveConfirmation (s : State) (confirmation : PendingConfirmation)
    (result : ConfirmationResult) : State :=
  match s.ledger.lookup confirmation.sequence with
  | none => s
  | some entry =>
    if entry.generation ≠ confirmation.generation then s
    else
      let t := { s with ledger := s.ledger.erase confirmation.sequence }
      if result.recoverable then
        { t with replay := s.replay ++ [entry.retained] }.suspend confirmation.generation
      else t.resolveAll [entry.retained] fun retained => confirmationOutcome retained result

def State.resume (s : State) : Resume → State
  | .deferred none => { s with mode := .idle }
  | .deferred (some command) => { s with mode := .handling command }
  | .recovered reply => { s.answer reply (.ok ()) with mode := .idle }
  | .closing deadline reply => { s with mode := .closing deadline reply }

/-- `poll_once` of a wire write. A write that fails at once and recoverably ends the batch. -/
def pollWrite (s : State) (write : PendingWrite) (pending : List RetainedPublish) (resume : Resume)
    (poll : FirstPoll) : State :=
  match poll with
  | .completed result =>
    let t := handlePublishCompletion settings s write (.completed result)
    if t.phase = .suspended then { t with replay := t.replay ++ pending }.resume resume else t
  | .pending =>
    -- the timeout is polled right after the write
    if write.deadline ≤ s.clock then handlePublishCompletion settings s write .timedOut
    else { s with publishInFlight := s.publishInFlight ++ [write] }

/-- The wire attempt of one publication, past its delay topology. -/
def attemptWrite (s : State) (item : RetainedPublish) (channel : Channel)
    (pending : List RetainedPublish) (resume : Resume) (poll : FirstPoll) : State :=
  let sequence := min (s.sequence + 1) (2 ^ 64 - 1)
  let item := { item with sequence := sequence }
  let s := { s with sequence := sequence, mode := .draining pending s.clock resume }
  match routeTransportRequest sha256 item.request settings.delayStrategy
      settings.config.mandatoryFlag with
  | .error error => s.completeError item error
  | .ok request =>
    let s := { s.insertPublishing sequence item with
      wire := s.wire ++ [.publish channel item.request request] }
    pollWrite settings s {
      sequence := sequence
      deadline := waitBound settings item s.clock
      ticket := item.ticket
      channel := channel } pending resume poll

def drainNext (s : State) (pending : List RetainedPublish) (now : Nat) (resume : Resume)
    (poll : FirstPoll) : State :=
  match pending with
  | [] => s.resume resume
  | item :: rest =>
    if overdue now item then
      { s with mode := .draining rest now resume }.completeError item deadlineExpired
    else
      match s.channel with
      | none => { s with replay := s.replay ++ item :: rest }.resume resume
      | some channel =>
        match ensureDelayTopology sha256 settings.delayStrategy item.request s.declaredTopology with
        | .error error => { s with mode := .draining rest s.clock resume }.completeError item error
        | .ok (some declaration) => { s with mode := .declaring item channel declaration rest resume }
        | .ok none => attemptWrite sha256 settings s item channel rest resume poll

/-- The broker's answer to the declaration; an accepted one lets the publication go on. -/
def declareNext (s : State) (item : RetainedPublish) (channel : Channel) (declaration : Declaration)
    (pending : List RetainedPublish) (resume : Resume) (result : Except TransportError Unit)
    (poll : FirstPoll) : State :=
  match result with
  | .error error =>
    { s with mode := .draining pending s.clock resume }.completeError item (refusedTopology error)
  | .ok () =>
    attemptWrite sha256 settings
      { s with
        declaredTopology := declaration.name :: s.declaredTopology
        wire := s.wire ++ [.declare channel declaration item.request] }
      item channel pending resume poll

def acceptPublish (s : State) (pending : List RetainedPublish) (resume : Resume) : State :=
  match s.phase with
  | .ready => { s with mode := .draining pending s.clock resume }
  | .suspended => { s with replay := s.replay ++ pending }.resume resume
  | .failedPermanent =>
    (s.resolveAll pending fun _ => .error (permanentFailure s.permanentError)).resume resume

/-- `flush_replay` on the channel of a generation that is ready. -/
def State.adopt (s : State) (generation : Nat) (channel : Channel) (reply : Nat) : State :=
  let t := { s with generation, channel := some channel, phase := .ready, permanentError := none
           }.expireReplay
  { t with replay := [], mode := .draining t.replay s.clock (.recovered reply) }

def transportFailure (message : String) : PublishError := { kind := .transport, message }

def handleConnectionEvent (s : State) (reply : Nat) : ConnectionEvent → State
  | .recovering generation => { (s.suspend generation).answer reply (.ok ()) with mode := .idle }
  | .ready generation channel topologyRestored =>
    if !topologyRestored then
      { s.answer reply (.error (transportFailure "publisher topology is not restored")) with
        mode := .idle }
    else if generation < s.generation then
      { s.answer reply (.error (transportFailure "publisher recovery generation is stale")) with
        mode := .idle }
    else if settings.config.enablesConfirms then { s with mode := .enabling generation channel reply }
    else s.adopt generation channel reply
  | .failedPermanent generation error =>
    let failure := transportFailure ("publisher connection failed permanently: " ++ error.message)
    { (s.failAll failure).answer reply (.ok ()) with
      generation := max s.generation generation
      phase := .failedPermanent
      channel := none
      permanentError := some failure
      mode := .idle }

def Command.publication : Command → Option RetainedPublish
  | .publish retained => some retained
  | .connectionEvent _ _ | .close _ => none

def Command.dropped : Command → Option (Nat × Except PublishError Unit)
  | .publish _ => none
  | .connectionEvent _ reply => some (reply,
      .error (closedError "publisher actor stopped while handling a connection event"))
  | .close reply => some (reply, .error (closedError "publisher actor stopped during shutdown"))

/-- The task ends: the queue is dropped unread, and with it the waiters and repliers in it. -/
def State.stop (s : State) : State :=
  { s with
    mode := .stopped
    commands := []
    replies := s.replies ++ s.commands.filterMap Command.dropped
  }.resolveAll (s.commands.filterMap Command.publication) fun _ => .error droppedWaiter

/-- The end of `quiesce_and_close`: what is left fails, then the channel is closed. -/
def State.finishClose (s : State) (reply : Nat) : State :=
  let t := s.failAll
    (closedError "publisher actor was closed before the publication could be attempted")
  match t.channel with
  | none => (t.answer reply (.ok ())).stop
  | some _ => { t with channel := none, mode := .closingChannel reply }

def State.beginClose (s : State) (reply : Nat) : State :=
  match s.phase with
  | .ready => { s with
      replay := []
      mode := .draining s.replay s.clock
        (.closing (s.clock + settings.config.confirmTimeout.nanos) reply) }
  | .suspended | .failedPermanent => s.finishClose reply

def handleCommand (s : State) : Command → State
  | .publish retained => acceptPublish s [retained] (.deferred none)
  | .connectionEvent event reply => handleConnectionEvent settings s reply event
  | .close reply => s.beginClose settings reply

/-- The publish commands at the head of the queue, drained as one batch. -/
def leadingPublishes : List Command → List RetainedPublish × List Command
  | .publish retained :: rest =>
    let (batch, others) := leadingPublishes rest
    (retained :: batch, others)
  | others => ([], others)

/-- The `recv` branch: a batch up to the first other command, which is deferred, or that
command itself. -/
def receiveNext (s : State) : Option State :=
  match s.commands with
  | [] =>
    if s.handlesOpen then none
    else some (s.failAll (closedError "all publisher handles were dropped")).stop
  | .publish retained :: rest =>
    let (batch, others) := leadingPublishes rest
    some (acceptPublish { s with commands := others.tail } (retained :: batch)
      (.deferred others.head?))
  | command :: rest => some (handleCommand settings { s with commands := rest } command)

def State.tryPublish (s : State) (request : PublishRequest) : Option State :=
  if s.handlesOpen && !s.mode.isStopped && 0 < s.permits &&
      s.budget + request.payload.length ≤ settings.config.maxBufferedBytes &&
      s.commands.length < max settings.config.bufferCapacity 1 then
    some { s with
      permits := s.permits - 1
      budget := s.budget + request.payload.length
      accepted := s.accepted + 1
      commands := s.commands ++ [.publish {
        ticket := s.accepted
        request := request
        timeout := request.deadline - s.clock }] }
  else none

def State.send (s : State) (command : Command) : Option State :=
  if s.handlesOpen && !s.mode.isStopped &&
      s.commands.length < max settings.config.bufferCapacity 1 then
    some { s with commands := s.commands ++ [command] }
  else none

/-- The actor polls its futures in its own loop and, until the deadline, in the closing loop. -/
def State.polls (s : State) : Bool :=
  match s.mode with
  | .idle => true
  | .closing deadline _ => s.phase = .ready && s.clock < deadline
  | _ => false

def step (s : State) : Event → Option State
  | .tick nanos => some { s with clock := s.clock + nanos }
  | .publish request => s.tryPublish settings request
  | .connectionEvent event reply => s.send settings (.connectionEvent event reply)
  | .close reply => s.send settings (.close reply)
  | .dropHandles => if s.handlesOpen then some { s with handlesOpen := false } else none
  | .receive =>
    match s.mode with
    | .idle => receiveNext settings s
    | _ => none
  | .expire =>
    match s.mode with
    | .idle => if s.nextDeadline.any (· ≤ s.clock) then some s.expireReplay else none
    | _ => none
  | .written index outcome =>
    s.publishInFlight[index]?.bind fun write =>
      if s.polls && (!outcome.isTimedOut || write.deadline ≤ s.clock) then
        some (handlePublishCompletion settings
          { s with publishInFlight := s.publishInFlight.eraseIdx index } write outcome)
      else none
  | .confirmed index result =>
    s.confirmations[index]?.bind fun confirmation =>
      if s.polls && (!result.isTimedOut || confirmation.deadline ≤ s.clock) then
        some (resolveConfirmation
          { s with confirmations := s.confirmations.eraseIdx index } confirmation result)
      else none
  | .confirmsEnabled result =>
    match s.mode, result with
    | .starting, .ok () => some { s with mode := .idle }
    | .starting, .error error => some { s with
        mode := .idle
        phase := .failedPermanent
        permanentError := some (.fromTransport error) }
    | .enabling generation channel reply, .ok () => some (s.adopt generation channel reply)
    | .enabling _ _ reply, .error error => some { s.answer reply (.error (.fromTransport error)) with
        mode := .idle }
    | _, _ => none
  | .declared result poll =>
    match s.mode with
    | .declaring item channel declaration pending resume =>
      some (declareNext sha256 settings s item channel declaration pending resume result poll)
    | _ => none
  | .proceed poll =>
    match s.mode with
    | .draining pending now resume => some (drainNext sha256 settings s pending now resume poll)
    | .handling command => some (handleCommand settings s command)
    | _ => none
  | .quiesced =>
    match s.mode with
    | .closing deadline reply =>
      if s.phase ≠ .ready || !s.hasPendingPublications || deadline ≤ s.clock then
        some (s.finishClose reply)
      else none
    | _ => none
  | .channelClosed =>
    match s.mode with
    | .closingChannel reply => some (s.answer reply (.ok ())).stop
    | _ => none

def initial (channel : Channel) : State where
  permits := max settings.config.bufferCapacity 1
  channel := some channel
  mode := if settings.config.enablesConfirms then .starting else .idle

def machine : StepMachine.Machine State Event where
  Initial s := ∃ channel, s = initial settings channel
  step := step sha256 settings

end

end RabbitRs.Publisher
