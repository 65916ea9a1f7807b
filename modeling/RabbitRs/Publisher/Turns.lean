import RabbitRs.Publisher.Actor

/-!
What a step of the publisher actor can be, with the functions between `step` and a change of the
state taken apart once.
-/

namespace RabbitRs.Publisher

def WireWriteOutcome.recoverable : WireWriteOutcome → Bool
  | .completed (.error error) => error.isRecoverable
  | _ => false

def FirstPoll.recoverable : FirstPoll → Bool
  | .completed (.error error) => error.isRecoverable
  | _ => false

def State.nextSequence (s : State) : Nat := min (s.sequence + 1) (2 ^ 64 - 1)

section

variable (sha256 : Bytes → Bytes) (settings : Settings)

def writeOutcome (retained : RetainedPublish) : WireWriteOutcome → Option Outcome
  | .completed (.ok ()) => if settings.config.enablesConfirms then none else some (confirmedOutcome retained)
  | .completed (.error error) => if error.isRecoverable then none else some (.error (.fromTransport error))
  | .timedOut => some (.error deadlineExpired)

def State.awaiting (s : State) (write : PendingWrite) (retained : RetainedPublish) : State :=
  { { s with publishing := s.publishing.erase write.sequence }.insertLedger write.sequence
      { retained, generation := s.generation } with
    confirmations := s.confirmations ++ [{
      sequence := write.sequence
      generation := s.generation
      deadline := waitBound settings retained s.clock
      ticket := write.ticket
      channel := write.channel }] }

inductive Done (s : State) (write : PendingWrite) : WireWriteOutcome → State → Prop where
  | unknown {outcome : WireWriteOutcome} : s.publishing.lookup write.sequence = none → Done s write outcome s
  | awaits {retained : RetainedPublish} : s.publishing.lookup write.sequence = some retained →
      settings.config.enablesConfirms = true →
      Done s write (.completed (.ok ())) (s.awaiting settings write retained)
  | resolves {retained : RetainedPublish} {outcome : WireWriteOutcome} {answer : Outcome} :
      s.publishing.lookup write.sequence = some retained → writeOutcome settings retained outcome = some answer →
      Done s write outcome ({ s with publishing := s.publishing.erase write.sequence }.resolveAll [retained]
        fun _ => answer)
  | suspends {retained : RetainedPublish} {outcome : WireWriteOutcome} :
      s.publishing.lookup write.sequence = some retained → outcome.recoverable = true →
      Done s write outcome ({ s with
        publishing := s.publishing.erase write.sequence
        replay := s.replay ++ [retained]
        publishInFlight := [] }.suspend s.generation)

def State.numbered (s : State) (pending : List RetainedPublish) (resume : Resume) : State :=
  { s with sequence := s.nextSequence, mode := .draining pending s.clock resume }

def State.written (s : State) (item : RetainedPublish) (channel : Channel) (pending : List RetainedPublish)
    (resume : Resume) (request : TransportPublish) : State :=
  { (s.numbered pending resume).insertPublishing s.nextSequence { item with sequence := s.nextSequence } with
    wire := s.wire ++ [.publish channel item.request request] }

def State.writeOf (s : State) (item : RetainedPublish) (channel : Channel) : PendingWrite where
  sequence := s.nextSequence
  deadline := waitBound settings item s.clock
  ticket := item.ticket
  channel := channel

abbrev Routes (item : RetainedPublish) (request : TransportPublish) : Prop :=
  routeTransportRequest sha256 item.request settings.delayStrategy settings.config.mandatoryFlag = .ok request

inductive Tries (s : State) (item : RetainedPublish) (channel : Channel) (pending : List RetainedPublish)
    (resume : Resume) : FirstPoll → State → Prop where
  | unroutable {poll : FirstPoll} {error : PublishError} : Tries s item channel pending resume poll
        ((s.numbered pending resume).completeError { item with sequence := s.nextSequence } error)
  | answered {request : TransportPublish} {result : Except TransportError Unit} {t : State} :
      Routes sha256 settings item request →
      Done settings (s.written item channel pending resume request) (s.writeOf settings item channel)
        (.completed result) t →
      t.phase ≠ .suspended → Tries s item channel pending resume (.completed result) t
  | broken {request : TransportPublish} {result : Except TransportError Unit} {t : State} :
      Routes sha256 settings item request →
      Done settings (s.written item channel pending resume request) (s.writeOf settings item channel)
        (.completed result) t →
      t.phase = .suspended →
      Tries s item channel pending resume (.completed result) ({ t with replay := t.replay ++ pending }.resume resume)
  | late {request : TransportPublish} {t : State} : Routes sha256 settings item request →
      Done settings (s.written item channel pending resume request) (s.writeOf settings item channel) .timedOut t →
      Tries s item channel pending resume .pending t
  | waits {request : TransportPublish} : Routes sha256 settings item request →
      Tries s item channel pending resume .pending { s.written item channel pending resume request with
        publishInFlight := s.publishInFlight ++ [s.writeOf settings item channel] }

inductive Handles (s : State) : Command → State → Prop where
  | publish {retained : RetainedPublish} :
      Handles s (.publish retained) (acceptPublish s [retained] (.deferred none))
  | recovering {generation reply : Nat} : Handles s (.connectionEvent (.recovering generation) reply)
        { (s.suspend generation).answer reply (.ok ()) with mode := .idle }
  | refuses {generation reply : Nat} {channel : Channel} {restored : Bool} {error : PublishError} :
      (restored && s.generation ≤ generation) = false →
      Handles s (.connectionEvent (.ready generation channel restored) reply)
        { s.answer reply (.error error) with mode := .idle }
  | enables {generation reply : Nat} {channel : Channel} : s.generation ≤ generation →
      settings.config.enablesConfirms = true →
      Handles s (.connectionEvent (.ready generation channel true) reply)
        { s with mode := .enabling generation channel reply }
  | adopts {generation reply : Nat} {channel : Channel} : s.generation ≤ generation →
      settings.config.enablesConfirms = false →
      Handles s (.connectionEvent (.ready generation channel true) reply) (s.adopt generation channel reply)
  | fails {generation reply : Nat} {error : TransportError} {failure : PublishError} :
      Handles s (.connectionEvent (.failedPermanent generation error) reply)
        { (s.failAll failure).answer reply (.ok ()) with
          generation := max s.generation generation
          phase := .failedPermanent
          channel := none
          permanentError := some failure
          mode := .idle }
  | flushes {reply deadline : Nat} : s.phase = .ready → Handles s (.close reply) { s with
        replay := []
        mode := .draining s.replay s.clock (.closing deadline reply) }
  | closes {reply : Nat} : Handles s (.close reply) (s.finishClose reply)

inductive Turns (s : State) : Event → State → Prop where
  | tick {nanos : Nat} : Turns s (.tick nanos) { s with clock := s.clock + nanos }
  | publish {request : PublishRequest} : s.mode.isStopped = false → Turns s (.publish request) { s with
        permits := s.permits - 1
        budget := s.budget + request.payload.length
        accepted := s.accepted + 1
        commands := s.commands ++ [.publish {
          ticket := s.accepted
          request := request
          timeout := request.deadline - s.clock }] }
  | connectionEvent {event : ConnectionEvent} {reply : Nat} : s.mode.isStopped = false →
      Turns s (.connectionEvent event reply) { s with commands := s.commands ++ [.connectionEvent event reply] }
  | close {reply : Nat} : s.mode.isStopped = false →
      Turns s (.close reply) { s with commands := s.commands ++ [.close reply] }
  | dropHandles : Turns s .dropHandles { s with handlesOpen := false }
  | orphaned {error : PublishError} : s.mode = .idle → s.commands = [] → s.handlesOpen = false →
      Turns s .receive (s.failAll error).stop
  | batch {retained : RetainedPublish} {rest : List Command} : s.mode = .idle →
      s.commands = .publish retained :: rest →
      Turns s .receive (acceptPublish { s with commands := (leadingPublishes rest).2.tail }
        (retained :: (leadingPublishes rest).1) (.deferred (leadingPublishes rest).2.head?))
  | command {command : Command} {rest : List Command} {t : State} : s.mode = .idle →
      s.commands = command :: rest → command.publication = none →
      Handles settings { s with commands := rest } command t → Turns s .receive t
  | expire : s.mode = .idle → Turns s .expire s.expireReplay
  | written {index : Nat} {write : PendingWrite} {outcome : WireWriteOutcome} {t : State} :
      s.publishInFlight[index]? = some write → s.polls = true →
      Done settings { s with publishInFlight := s.publishInFlight.eraseIdx index } write outcome t →
      Turns s (.written index outcome) t
  | stale {index : Nat} {confirmation : PendingConfirmation} {result : ConfirmationResult} :
      s.confirmations[index]? = some confirmation → s.polls = true →
      (∀ entry, s.ledger.lookup confirmation.sequence = some entry →
        entry.generation ≠ confirmation.generation) →
      Turns s (.confirmed index result) { s with confirmations := s.confirmations.eraseIdx index }
  | confirms {index : Nat} {confirmation : PendingConfirmation} {result : ConfirmationResult}
      {entry : InFlightPublish} : s.confirmations[index]? = some confirmation → s.polls = true →
      s.ledger.lookup confirmation.sequence = some entry → entry.generation = confirmation.generation →
      result.recoverable = false →
      Turns s (.confirmed index result) ({ s with
        confirmations := s.confirmations.eraseIdx index
        ledger := s.ledger.erase confirmation.sequence }.resolveAll [entry.retained]
          fun retained => confirmationOutcome retained result)
  | loses {index : Nat} {confirmation : PendingConfirmation} {result : ConfirmationResult}
      {entry : InFlightPublish} : s.confirmations[index]? = some confirmation → s.polls = true →
      s.ledger.lookup confirmation.sequence = some entry → entry.generation = confirmation.generation →
      result.recoverable = true →
      Turns s (.confirmed index result) ({ s with
        confirmations := s.confirmations.eraseIdx index
        ledger := s.ledger.erase confirmation.sequence
        replay := s.replay ++ [entry.retained] }.suspend confirmation.generation)
  | started : s.mode = .starting → Turns s (.confirmsEnabled (.ok ())) { s with mode := .idle }
  | unstarted {error : TransportError} : s.mode = .starting → Turns s (.confirmsEnabled (.error error)) { s with
        mode := .idle
        phase := .failedPermanent
        permanentError := some (.fromTransport error) }
  | enabled {generation reply : Nat} {channel : Channel} : s.mode = .enabling generation channel reply →
      Turns s (.confirmsEnabled (.ok ())) (s.adopt generation channel reply)
  | unenabled {generation reply : Nat} {channel : Channel} {error : TransportError} :
      s.mode = .enabling generation channel reply →
      Turns s (.confirmsEnabled (.error error))
        { s.answer reply (.error (.fromTransport error)) with mode := .idle }
  | undeclared {item : RetainedPublish} {channel : Channel} {declaration : Declaration}
      {pending : List RetainedPublish} {resume : Resume} {error : TransportError} {poll : FirstPoll} :
      s.mode = .declaring item channel declaration pending resume →
      Turns s (.declared (.error error) poll)
        ({ s with mode := .draining pending s.clock resume }.completeError item (refusedTopology error))
  | declared {item : RetainedPublish} {channel : Channel} {declaration : Declaration}
      {pending : List RetainedPublish} {resume : Resume} {poll : FirstPoll} {t : State} :
      s.mode = .declaring item channel declaration pending resume →
      Tries sha256 settings { s with
        declaredTopology := declaration.name :: s.declaredTopology
        wire := s.wire ++ [.declare channel declaration item.request] } item channel pending resume poll t →
      Turns s (.declared (.ok ()) poll) t
  | drained {now : Nat} {resume : Resume} {poll : FirstPoll} : s.mode = .draining [] now resume →
      Turns s (.proceed poll) (s.resume resume)
  | drops {item : RetainedPublish} {rest : List RetainedPublish} {now now' : Nat} {resume : Resume}
      {poll : FirstPoll} {error : PublishError} : s.mode = .draining (item :: rest) now resume →
      (overdue now item = true ∨
        ensureDelayTopology sha256 settings.delayStrategy item.request s.declaredTopology = .error error) →
      Turns s (.proceed poll) ({ s with mode := .draining rest now' resume }.completeError item error)
  | parks {pending : List RetainedPublish} {now : Nat} {resume : Resume} {poll : FirstPoll} :
      s.mode = .draining pending now resume → s.channel = none →
      Turns s (.proceed poll) ({ s with replay := s.replay ++ pending }.resume resume)
  | declares {item : RetainedPublish} {rest : List RetainedPublish} {now : Nat} {resume : Resume}
      {poll : FirstPoll} {channel : Channel} {declaration : Declaration} :
      s.mode = .draining (item :: rest) now resume → s.channel = some channel →
      ensureDelayTopology sha256 settings.delayStrategy item.request s.declaredTopology = .ok (some declaration) →
      Turns s (.proceed poll) { s with mode := .declaring item channel declaration rest resume }
  | tries {item : RetainedPublish} {rest : List RetainedPublish} {now : Nat} {resume : Resume}
      {poll : FirstPoll} {channel : Channel} {t : State} : s.mode = .draining (item :: rest) now resume →
      overdue now item = false → s.channel = some channel →
      ensureDelayTopology sha256 settings.delayStrategy item.request s.declaredTopology = .ok none →
      Tries sha256 settings s item channel rest resume poll t → Turns s (.proceed poll) t
  | handled {command : Command} {poll : FirstPoll} {t : State} : s.mode = .handling command →
      Handles settings s command t → Turns s (.proceed poll) t
  | quiesced {deadline reply : Nat} : s.mode = .closing deadline reply → Turns s .quiesced (s.finishClose reply)
  | channelClosed {reply : Nat} : s.mode = .closingChannel reply →
      Turns s .channelClosed (s.answer reply (.ok ())).stop

end

section

variable {sha256 : Bytes → Bytes} {settings : Settings} {s t : State} {event : Event}

theorem handlePublishCompletion_done (write : PendingWrite) (outcome : WireWriteOutcome) :
    Done settings s write outcome (handlePublishCompletion settings s write outcome) := by
  unfold handlePublishCompletion
  split
  · case h_1 missing => exact .unknown missing
  · case h_2 retained found =>
    dsimp only
    split
    · split
      · case isTrue confirms => exact .awaits found confirms
      · case isFalse plain => exact .resolves found (if_neg plain)
    · exact .resolves found rfl
    · case h_3 error =>
      split
      · case isTrue recoverable => exact .suspends found recoverable
      · case isFalse fatal => exact .resolves found (if_neg fatal)

theorem attemptWrite_tries (item : RetainedPublish) (channel : Channel) (pending : List RetainedPublish)
    (resume : Resume) (poll : FirstPoll) :
    Tries sha256 settings s item channel pending resume poll
      (attemptWrite sha256 settings s item channel pending resume poll) := by
  unfold attemptWrite
  dsimp only
  split
  · exact .unroutable
  · case h_2 request routed =>
    unfold pollWrite
    cases poll with
    | completed result =>
      have done := @handlePublishCompletion_done settings (s.written item channel pending resume request)
        (s.writeOf settings item channel) (.completed result)
      dsimp only
      split
      · case isTrue suspended => exact .broken routed done suspended
      · case isFalse awake => exact .answered routed done awake
    | pending =>
      dsimp only
      split
      · exact .late routed (handlePublishCompletion_done _ _)
      · exact .waits routed

theorem handleCommand_handles (command : Command) :
    Handles settings s command (handleCommand settings s command) := by
  cases command with
  | publish retained => exact .publish
  | connectionEvent event reply =>
    cases event with
    | recovering generation => exact .recovering
    | ready generation channel restored =>
      simp only [handleCommand, handleConnectionEvent]
      split
      · case isTrue missing =>
        refine .refuses ?_
        rw [Bool.not_eq_true'] at missing
        rw [missing, Bool.false_and]
      · case isFalse known =>
        obtain rfl : restored = true := by simpa using known
        split
        · case isTrue stale => exact .refuses (by simpa using stale)
        · case isFalse current =>
          split
          · case isTrue confirms => exact .enables (Nat.le_of_not_lt current) confirms
          · case isFalse plain => exact .adopts (Nat.le_of_not_lt current) (Bool.eq_false_of_not_eq_true plain)
    | failedPermanent generation error => exact .fails
  | close reply =>
    simp only [handleCommand, State.beginClose]
    split
    · case h_1 ready => exact .flushes ready
    · exact .closes
    · exact .closes

theorem receive_turns (idle : s.mode = .idle) (received : receiveNext settings s = some t) :
    Turns sha256 settings s .receive t := by
  unfold receiveNext at received
  split at received
  · case h_1 empty =>
    split at received
    · cases received
    · case isFalse dropped =>
      cases received
      exact .orphaned idle empty (Bool.eq_false_of_not_eq_true dropped)
  · case h_2 retained rest queued =>
    cases received
    exact .batch idle queued
  · case h_3 command rest other queued =>
    cases received
    refine .command idle queued ?_ (handleCommand_handles command)
    cases command with
    | publish retained => exact (other retained rfl).elim
    | connectionEvent event reply | close reply => rfl

theorem confirmed_turns {index : Nat} {confirmation : PendingConfirmation} {result : ConfirmationResult}
    (found : s.confirmations[index]? = some confirmation) (polls : s.polls = true) :
    Turns sha256 settings s (.confirmed index result)
      (resolveConfirmation { s with confirmations := s.confirmations.eraseIdx index } confirmation result) := by
  unfold resolveConfirmation
  split
  · case h_1 missing =>
    refine .stale found polls fun entry known => ?_
    cases missing.symm.trans known
  · case h_2 entry known =>
    split
    · case isTrue other =>
      refine .stale found polls fun entry' known' => ?_
      cases known.symm.trans known'
      exact other
    · case isFalse same =>
      have same := not_not.mp same
      dsimp only
      split
      · case isTrue broke => exact .loses found polls known same broke
      · case isFalse calm => exact .confirms found polls known same (Bool.eq_false_of_not_eq_true calm)

theorem proceed_turns {pending : List RetainedPublish} {now : Nat} {resume : Resume}
    (draining : s.mode = .draining pending now resume) (poll : FirstPoll) :
    Turns sha256 settings s (.proceed poll) (drainNext sha256 settings s pending now resume poll) := by
  unfold drainNext
  split
  · exact .drained draining
  · split
    · case isTrue late => exact .drops draining (.inl late)
    · case isFalse early =>
      split
      · case h_1 none => exact .parks draining none
      · case h_2 channel held =>
        split
        · case h_1 error failed => exact .drops draining (.inr failed)
        · case h_2 declaration missing => exact .declares draining held missing
        · case h_3 ready =>
          exact .tries draining (Bool.eq_false_of_not_eq_true early) held ready (attemptWrite_tries _ _ _ _ _)

theorem step_turns (next : step sha256 settings s event = some t) : Turns sha256 settings s event t := by
  cases event with
  | tick nanos =>
    cases next
    exact .tick
  | publish request =>
    obtain ⟨enabled, same⟩ := Option.ite_none_right_eq_some.mp next
    cases same
    simp only [Bool.and_eq_true, Bool.not_eq_true'] at enabled
    exact .publish enabled.1.1.1.2
  | connectionEvent event reply =>
    obtain ⟨enabled, same⟩ := Option.ite_none_right_eq_some.mp next
    cases same
    simp only [Bool.and_eq_true, Bool.not_eq_true'] at enabled
    exact .connectionEvent enabled.1.2
  | close reply =>
    obtain ⟨enabled, same⟩ := Option.ite_none_right_eq_some.mp next
    cases same
    simp only [Bool.and_eq_true, Bool.not_eq_true'] at enabled
    exact .close enabled.1.2
  | dropHandles =>
    obtain ⟨-, same⟩ := Option.ite_none_right_eq_some.mp next
    cases same
    exact .dropHandles
  | receive =>
    simp only [step] at next
    split at next
    · case h_1 idle => exact receive_turns idle next
    · cases next
  | expire =>
    simp only [step] at next
    split at next
    · case h_1 idle =>
      obtain ⟨-, same⟩ := Option.ite_none_right_eq_some.mp next
      cases same
      exact .expire idle
    · cases next
  | written index outcome =>
    simp only [step, Option.bind_eq_some_iff] at next
    obtain ⟨write, found, next⟩ := next
    obtain ⟨enabled, same⟩ := Option.ite_none_right_eq_some.mp next
    cases same
    exact .written found (Bool.and_eq_true_iff.mp enabled).1 (handlePublishCompletion_done write outcome)
  | confirmed index result =>
    simp only [step, Option.bind_eq_some_iff] at next
    obtain ⟨confirmation, found, next⟩ := next
    obtain ⟨enabled, same⟩ := Option.ite_none_right_eq_some.mp next
    cases same
    exact confirmed_turns found (Bool.and_eq_true_iff.mp enabled).1
  | confirmsEnabled result =>
    simp only [step] at next
    split at next
    · case h_1 starting =>
      cases next
      exact .started starting
    · case h_2 starting =>
      cases next
      exact .unstarted starting
    · case h_3 enabling =>
      cases next
      exact .enabled enabling
    · case h_4 enabling =>
      cases next
      exact .unenabled enabling
    · cases next
  | declared result poll =>
    simp only [step] at next
    split at next
    · case h_1 declaring =>
      cases next
      cases result with
      | error error => exact .undeclared declaring
      | ok answer => exact .declared declaring (attemptWrite_tries _ _ _ _ _)
    · cases next
  | proceed poll =>
    simp only [step] at next
    split at next
    · case h_1 draining =>
      cases next
      exact proceed_turns draining poll
    · case h_2 handling =>
      cases next
      exact .handled handling (handleCommand_handles _)
    · cases next
  | quiesced =>
    simp only [step] at next
    split at next
    · case h_1 closing =>
      obtain ⟨-, same⟩ := Option.ite_none_right_eq_some.mp next
      cases same
      exact .quiesced closing
    · cases next
  | channelClosed =>
    simp only [step] at next
    split at next
    · case h_1 closing =>
      cases next
      exact .channelClosed closing
    · cases next

end

end RabbitRs.Publisher
