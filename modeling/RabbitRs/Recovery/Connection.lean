import RabbitRs.Publisher.Wire

/-!
The connection actor (`pool/connection_actor.rs`): it owns the connection of a broker, publishes its
state on a watch channel and serves a bounded command queue. A step is one branch of a `select!` or
the answer to one await; a timeout is a deadline on the clock.
-/

namespace RabbitRs.Recovery

open Publisher (Channel)

def commandCapacity : Nat := 32

def connectTimeout : Nat := 10 * 10 ^ 9

/-- The states the watch channel carries; the backoff delay is left out. -/
inductive ConnectionState where
  | disconnected
  | connecting (attempt : Nat)
  | ready (generation : Nat)
  | recovering (attempt : Nat) (reason : String)
  | failedPermanent (kind : TransportErrorKind) (reason : String)
  | closed
  deriving DecidableEq

/-- Who waits for a channel: the coordinator's recovery, or an admin or consumer request. -/
inductive Requester where
  | recovery
  | other
  deriving DecidableEq

inductive Command where
  | start
  | connectionLost (error : TransportError)
  | openPublisher (requester : Requester)
  | openConsumer
  | close
  deriving DecidableEq

/-- What the actor awaits while the watch says Ready. -/
inductive Serving where
  | waiting
  | opening (requester : Requester) (deadline : Nat)
  | losing (error : TransportError) (deadline : Nat)
  | shutting (deadline : Nat)

inductive Phase where
  | disconnected
  | connecting (previousFailures : Nat) (deadline : Nat)
  | ready (serving : Serving)
  | recovering (failures : Nat) (error : TransportError)
  | failedPermanent (error : TransportError)
  | stopped

def Phase.isReady : Phase → Bool
  | .ready _ => true
  | _ => false

/-- `version` counts the values sent to the watch. `reply` is the answer to the channel the
coordinator asked for. Connections and channels are numbered; `closed` records the connections
closed. -/
structure Connection where
  clock : Nat := 0
  commands : List Command := []
  phase : Phase := .disconnected
  generation : Nat := 0
  version : Nat := 0
  connection : Option Nat := none
  obtained : Nat := 0
  closed : List Nat := []
  channels : Nat := 0
  reply : Option (Except TransportError Channel) := none

namespace Connection

def published (c : Connection) : ConnectionState :=
  match c.phase with
  | .disconnected => .disconnected
  | .connecting previousFailures _ => .connecting (min (previousFailures + 1) u32Max)
  | .ready _ => .ready c.generation
  | .recovering failures error => .recovering failures error.message
  | .failedPermanent error => .failedPermanent error.kind error.message
  | .stopped => .closed

def notReady : TransportError := { kind := .closed, message := "connection is not ready" }

def stoppedError : TransportError := { kind := .closed, message := "connection actor is closed" }

def connectTimedOut : TransportError :=
  { kind := .connection, message := "connect attempt timed out" }

def channelTimedOut : TransportError :=
  { kind := .connection, message := "channel operation timed out" }

def streamEnded : TransportError := { kind := .connection, message := "transport event stream ended" }

def answer (c : Connection) (requester : Requester) (result : Except TransportError Channel) : Connection :=
  match requester with
  | .recovery => { c with reply := some result }
  | .other => c

def enterConnecting (c : Connection) (previousFailures : Nat) : Connection :=
  { c with
    phase := .connecting previousFailures (c.clock + connectTimeout)
    version := c.version + 1 }

def enterRecovering (c : Connection) (failures : Nat) (error : TransportError) : Connection :=
  { c with phase := .recovering failures error, version := c.version + 1 }

def publishPermanentFailure (c : Connection) (error : TransportError) : Connection :=
  { c with phase := .failedPermanent error, version := c.version + 1 }

def routeLoss (c : Connection) (error : TransportError) : Connection :=
  if error.isRecoverable then c.enterRecovering 1 error else c.publishPermanentFailure error

def becomeReady (c : Connection) : Connection :=
  { c with
    phase := .ready .waiting
    generation := min (c.generation + 1) (2 ^ 64 - 1)
    version := c.version + 1
    connection := some c.obtained
    obtained := c.obtained + 1 }

def stop (c : Connection) : Connection :=
  let waiting := c.commands.any fun command =>
    match command with
    | .openPublisher .recovery => true
    | _ => false
  { c with
    phase := .stopped
    version := c.version + 1
    commands := []
    reply := if waiting then some (.error stoppedError) else c.reply }

/-- `shutdown`: only a held connection makes it wait. -/
def shutdown (c : Connection) : Connection :=
  match c.connection with
  | none => c.stop
  | some _ => { c with phase := .ready (.shutting (c.clock + connectTimeout)) }

def lose (c : Connection) (error : TransportError) : Connection :=
  match c.connection with
  | none => c.routeLoss error
  | some _ => { c with phase := .ready (.losing error (c.clock + connectTimeout)) }

/-- `connection.take()` and its close, which is abandoned at the deadline. -/
def dropConnection (c : Connection) : Connection :=
  { c with connection := none, closed := c.closed ++ c.connection.toList }

/-- Commands served while there is no connection; `stay` re-enters the `select!`. -/
def serveOffline (c : Connection) (stay : Connection → Connection)
    (start : Connection → Connection) (lost : Connection → TransportError → Connection) :
    Command → Connection
  | .start => start c
  | .connectionLost error => lost c error
  | .openPublisher requester => stay (c.answer requester (.error notReady))
  | .openConsumer => stay c
  | .close => c.shutdown

/-- A permanent loss reported while the actor reconnects ends the attempt. -/
def lostOffline (stay : Connection → Connection) (c : Connection) (error : TransportError) : Connection :=
  if error.isRecoverable then stay c else c.publishPermanentFailure error

/-- Each turn of the loop of `handle_connecting` creates the timeout anew. -/
def rearm (c : Connection) : Connection :=
  match c.phase with
  | .connecting previousFailures _ =>
    { c with phase := .connecting previousFailures (c.clock + connectTimeout) }
  | _ => c

def serve (c : Connection) (command : Command) : Option Connection :=
  match c.phase with
  | .disconnected => some (c.serveOffline id (·.enterConnecting 0) (fun c _ => c) command)
  | .failedPermanent _ => some (c.serveOffline id (·.enterConnecting 0) (fun c _ => c) command)
  | .connecting _ _ => some (c.serveOffline rearm rearm (lostOffline rearm) command)
  | .recovering _ _ => some (c.serveOffline id id (lostOffline id) command)
  | .ready .waiting =>
    match command with
    | .start => some c
    | .connectionLost error => some (c.lose error)
    | .openPublisher requester =>
      match c.connection with
      | none => some (c.answer requester (.error notReady))
      | some _ => some { c with phase := .ready (.opening requester (c.clock + connectTimeout)) }
    | .openConsumer =>
      match c.connection with
      | none => some c
      | some _ => some { c with phase := .ready (.opening .other (c.clock + connectTimeout)) }
    | .close => some c.shutdown
  | .ready _ | .stopped => none

def receive (c : Connection) : Option Connection :=
  match c.commands with
  | [] => none
  | command :: rest => { c with commands := rest }.serve command

inductive TransportEvent where
  | error (error : TransportError)
  | ended
  | blocked (reason : String)
  | unblocked

inductive Bounded where
  | completed (result : Except TransportError Unit)
  | timedOut

inductive Event where
  | tick (nanos : Nat)
  | send (command : Command)
  | receive
  | attempted (outcome : Bounded)
  | transport (event : TransportEvent)
  | opened (outcome : Bounded)
  | closed (timedOut : Bool)
  | slept

def send (c : Connection) (command : Command) : Option Connection :=
  match c.phase with
  | .stopped => none
  | _ => if c.commands.length < commandCapacity then
      some { c with commands := c.commands ++ [command] } else none

def attemptFailed (c : Connection) (previousFailures : Nat) (error : TransportError) : Connection :=
  if error.isRecoverable then c.enterRecovering (min (previousFailures + 1) u32Max) error
  else c.publishPermanentFailure error

def openChannel (c : Connection) (requester : Requester) : Connection :=
  { c with phase := .ready .waiting, channels := c.channels + 1 }.answer requester
    (.ok { opened := c.generation, id := c.channels })

def step (c : Connection) : Event → Option Connection
  | .tick nanos => some { c with clock := c.clock + nanos }
  | .send command => c.send command
  | .receive => c.receive
  | .attempted outcome =>
    match c.phase, outcome with
    | .connecting _ _, .completed (.ok ()) => some c.becomeReady
    | .connecting previousFailures _, .completed (.error error) =>
      some (c.attemptFailed previousFailures error)
    | .connecting previousFailures deadline, .timedOut =>
      if deadline ≤ c.clock then some (c.attemptFailed previousFailures connectTimedOut) else none
    | _, _ => none
  | .transport event =>
    match c.phase, event with
    | .ready .waiting, .error error => some (c.lose error)
    | .ready .waiting, .ended => some (c.lose streamEnded)
    -- metrics and logs only
    | .ready .waiting, .blocked _ | .ready .waiting, .unblocked => some c
    | _, _ => none
  | .opened outcome =>
    match c.phase, outcome with
    | .ready (.opening requester _), .completed (.ok ()) => some (c.openChannel requester)
    | .ready (.opening requester _), .completed (.error error) =>
      some ({ c with phase := .ready .waiting }.answer requester (.error error))
    | .ready (.opening requester deadline), .timedOut =>
      if deadline ≤ c.clock then
        some ((c.answer requester (.error channelTimedOut)).lose channelTimedOut)
      else none
    | _, _ => none
  | .closed timedOut =>
    match c.phase with
    | .ready (.losing error deadline) =>
      if !timedOut || deadline ≤ c.clock then some (c.dropConnection.routeLoss error) else none
    | .ready (.shutting deadline) =>
      if !timedOut || deadline ≤ c.clock then some c.dropConnection.stop else none
    | _ => none
  | .slept =>
    match c.phase with
    | .recovering failures _ => some (c.enterConnecting failures)
    | _ => none

/-! ### What a step can be -/

end Connection

def Command.isLoss : Command → Bool
  | .connectionLost _ => true
  | _ => false

def Phase.isLeaving : Phase → Bool
  | .ready (.losing _ _) | .ready (.shutting _) => true
  | _ => false

def Phase.retries : Phase → Bool
  | .connecting _ _ | .recovering _ _ => true
  | _ => false

def Phase.rearmed (phase : Phase) (now : Nat) : Phase :=
  match phase with
  | .connecting previousFailures _ => .connecting previousFailures (now + connectTimeout)
  | phase => phase

theorem Phase.isReady_rearmed (phase : Phase) (now : Nat) : (phase.rearmed now).isReady = phase.isReady := by
  cases phase <;> rfl

namespace Connection

/-- What serving a command does; a command that leaves the phase may still restart the timeout of an
attempt. -/
inductive Serves (c : Connection) : Command → Connection → Prop where
  | waits {command : Command} {reply : Option (Except TransportError Channel)} : c.phase.isReady = false →
      (command = .start → c.phase.retries = true) → (reply = c.reply ∨ reply = some (.error notReady)) →
      Serves c command { c with phase := c.phase.rearmed c.clock, reply }
  | starts : c.phase.isReady = false → c.phase.retries = false → Serves c .start (c.enterConnecting 0)
  | fails {error : TransportError} : c.phase.retries = true → error.isRecoverable = false →
      Serves c (.connectionLost error) (c.publishPermanentFailure error)
  | shuts : Serves c .close c.shutdown
  | ignores {command : Command} : c.phase = .ready .waiting → command.isLoss = false → command ≠ .close →
      Serves c command c
  | denies {requester : Requester} : c.phase = .ready .waiting →
      Serves c (.openPublisher requester) (c.answer requester (.error notReady))
  | opens {command : Command} {requester : Requester} : c.phase = .ready .waiting → command.isLoss = false →
      command ≠ .close →
      Serves c command { c with phase := .ready (.opening requester (c.clock + connectTimeout)) }
  | loses {error : TransportError} : c.phase = .ready .waiting → Serves c (.connectionLost error) (c.lose error)

inductive Turns (c : Connection) : Event → Connection → Prop where
  | tick {nanos : Nat} : Turns c (.tick nanos) { c with clock := c.clock + nanos }
  | send {command : Command} : Turns c (.send command) { c with commands := c.commands ++ [command] }
  | serves {command : Command} {rest : List Command} {d : Connection} : c.commands = command :: rest →
      Serves { c with commands := rest } command d → Turns c .receive d
  | establishes {failures deadline : Nat} : c.phase = .connecting failures deadline →
      Turns c (.attempted (.completed (.ok ()))) c.becomeReady
  | misses {failures deadline : Nat} {outcome : Bounded} {error : TransportError} :
      c.phase = .connecting failures deadline → Turns c (.attempted outcome) (c.attemptFailed failures error)
  | breaks {event : TransportEvent} {error : TransportError} : c.phase = .ready .waiting →
      Turns c (.transport event) (c.lose error)
  | notes {event : TransportEvent} : c.phase = .ready .waiting → Turns c (.transport event) c
  | opens {requester : Requester} {deadline : Nat} : c.phase = .ready (.opening requester deadline) →
      Turns c (.opened (.completed (.ok ()))) (c.openChannel requester)
  | refuses {requester : Requester} {deadline : Nat} {error : TransportError} :
      c.phase = .ready (.opening requester deadline) →
      Turns c (.opened (.completed (.error error)))
        ({ c with phase := .ready .waiting }.answer requester (.error error))
  | expires {requester : Requester} {deadline : Nat} : c.phase = .ready (.opening requester deadline) →
      Turns c (.opened .timedOut) ((c.answer requester (.error channelTimedOut)).lose channelTimedOut)
  | routes {error : TransportError} {deadline : Nat} {timedOut : Bool} :
      c.phase = .ready (.losing error deadline) →
      Turns c (.closed timedOut) (c.dropConnection.routeLoss error)
  | stops {deadline : Nat} {timedOut : Bool} : c.phase = .ready (.shutting deadline) →
      Turns c (.closed timedOut) c.dropConnection.stop
  | retries {failures : Nat} {error : TransportError} : c.phase = .recovering failures error →
      Turns c .slept (c.enterConnecting failures)

inductive Leaves (c : Connection) : Connection → Prop where
  | drops {phase : Phase} : c.connection = none → phase.isReady = false →
      (∀ failures deadline, phase ≠ .connecting failures deadline) →
      Leaves c { c with phase, version := c.version + 1 }
  | stops : c.connection = none → Leaves c c.stop
  | closes {serving : Serving} : c.connection ≠ none → (Phase.ready serving).isLeaving = true →
      Leaves c { c with phase := .ready serving }

variable {c d e : Connection} {event : Event}

theorem routeLoss_leaves (unheld : c.connection = none) (error : TransportError) :
    Leaves c (c.routeLoss error) := by
  unfold routeLoss
  split
  · exact .drops unheld rfl nofun
  · exact .drops unheld rfl nofun

theorem attemptFailed_leaves (unheld : c.connection = none) (failures : Nat) (error : TransportError) :
    Leaves c (c.attemptFailed failures error) := by
  unfold attemptFailed
  split
  · exact .drops unheld rfl nofun
  · exact .drops unheld rfl nofun

theorem lose_leaves (c : Connection) (error : TransportError) : Leaves c (c.lose error) := by
  unfold lose
  split
  · case h_1 unheld => exact routeLoss_leaves unheld error
  · case h_2 connection => exact .closes (by rw [connection]; nofun) rfl

theorem shutdown_leaves (c : Connection) : Leaves c c.shutdown := by
  unfold shutdown
  split
  · case h_1 unheld => exact .stops unheld
  · case h_2 connection => exact .closes (by rw [connection]; nofun) rfl

theorem answer_eq (c : Connection) (requester : Requester) (result : Except TransportError Channel) :
    ∃ reply, c.answer requester result = { c with reply } ∧ (reply = c.reply ∨ reply = some result) := by
  cases requester with
  | recovery => exact ⟨_, rfl, .inr rfl⟩
  | other => exact ⟨c.reply, rfl, .inl rfl⟩

theorem rearm_eq (c : Connection) : c.rearm = { c with phase := c.phase.rearmed c.clock } := by
  cases phase : c.phase <;> simp only [rearm, Phase.rearmed, phase] <;> rw [← phase]

def Stands (phase : Phase) (stay : Connection → Connection) : Prop :=
  ∀ d : Connection, d.phase = phase → stay d = { d with phase := phase.rearmed d.clock }

theorem Stands.serves {stay : Connection → Connection} (stands : Stands c.phase stay)
    (offline : c.phase.isReady = false) {command : Command} (tries : command = .start → c.phase.retries = true) :
    Serves c command (stay c) := by
  rw [stands c rfl]
  exact .waits offline tries (.inl rfl)

theorem serveOffline_serves {stay start : Connection → Connection} {lost : Connection → TransportError → Connection}
    (offline : c.phase.isReady = false) (stands : Stands c.phase stay) (starts : Serves c .start (start c))
    (loses : ∀ error, Serves c (.connectionLost error) (lost c error)) (command : Command) :
    Serves c command (c.serveOffline stay start lost command) := by
  cases command with
  | start => exact starts
  | connectionLost error => exact loses error
  | openPublisher requester =>
    obtain ⟨reply, answered, told⟩ := answer_eq c requester (.error notReady)
    rw [serveOffline, answered, stands { c with reply } rfl]
    exact .waits offline nofun told
  | openConsumer => exact stands.serves offline nofun
  | close => exact .shuts

theorem serve_serves {command : Command} (served : c.serve command = some d) : Serves c command d := by
  have still {phase : Phase} (idle : ∀ now, phase.rearmed now = phase) : Stands phase id := by
    rintro d rfl
    rw [idle, id]
  have lost {stay : Connection → Connection} (stands : Stands c.phase stay) (retries : c.phase.retries = true)
      (offline : c.phase.isReady = false) (error : TransportError) :
      Serves c (.connectionLost error) (lostOffline stay c error) := by
    unfold lostOffline
    split
    · exact stands.serves offline nofun
    · case isFalse fatal => exact .fails retries (Bool.eq_false_of_not_eq_true fatal)
  unfold serve at served
  split at served
  case h_1 phase | h_2 phase =>
    cases served
    have offline : c.phase.isReady = false := by rw [phase]; rfl
    have stands : Stands c.phase id := still (by rw [phase]; exact fun _ => rfl)
    refine serveOffline_serves offline stands (.starts offline (by rw [phase]; rfl)) (fun error => ?_) command
    exact @Stands.serves c id stands offline (.connectionLost error) nofun
  case h_3 phase =>
    cases served
    have offline : c.phase.isReady = false := by rw [phase]; rfl
    have retries : c.phase.retries = true := by rw [phase]; rfl
    have stands : Stands c.phase rearm := fun d same => same ▸ rearm_eq d
    exact serveOffline_serves offline stands (stands.serves offline fun _ => retries)
      (lost stands retries offline) command
  case h_4 phase =>
    cases served
    have offline : c.phase.isReady = false := by rw [phase]; rfl
    have retries : c.phase.retries = true := by rw [phase]; rfl
    have stands : Stands c.phase id := still (by rw [phase]; exact fun _ => rfl)
    exact serveOffline_serves offline stands (stands.serves offline fun _ => retries)
      (lost stands retries offline) command
  case h_5 waiting =>
    split at served
    case h_1 =>
      cases served
      exact .ignores waiting rfl nofun
    case h_2 =>
      cases served
      exact .loses waiting
    case h_3 =>
      split at served <;> cases served
      · exact .denies waiting
      · exact .opens waiting rfl nofun
    case h_4 =>
      split at served <;> cases served
      · exact .ignores waiting rfl nofun
      · exact .opens waiting rfl nofun
    case h_5 =>
      cases served
      exact .shuts
  case h_6 | h_7 => cases served

theorem send_eq {command : Command} (sent : c.send command = some d) :
    d = { c with commands := c.commands ++ [command] } := by
  unfold send at sent
  split at sent
  · cases sent
  · obtain ⟨-, same⟩ := Option.ite_none_right_eq_some.mp sent
    exact (Option.some.inj same).symm

theorem step_turns (next : c.step event = some d) : Turns c event d := by
  cases event with
  | tick nanos =>
    cases next
    exact .tick
  | send command =>
    cases send_eq next
    exact .send
  | receive =>
    simp only [step, receive] at next
    split at next
    · cases next
    · case h_2 command rest queued => exact .serves queued (serve_serves next)
  | attempted outcome =>
    simp only [step] at next
    split at next
    case h_1 phase =>
      cases next
      exact .establishes phase
    case h_2 phase =>
      cases next
      exact .misses phase
    case h_3 phase =>
      obtain ⟨-, same⟩ := Option.ite_none_right_eq_some.mp next
      cases same
      exact .misses phase
    case h_4 => cases next
  | transport event =>
    simp only [step] at next
    split at next <;> cases next
    case h_1 phase | h_2 phase => exact .breaks phase
    case h_3 phase | h_4 phase => exact .notes phase
  | opened outcome =>
    simp only [step] at next
    split at next
    case h_1 phase =>
      cases next
      exact .opens phase
    case h_2 phase =>
      cases next
      exact .refuses phase
    case h_3 phase =>
      obtain ⟨-, same⟩ := Option.ite_none_right_eq_some.mp next
      cases same
      exact .expires phase
    case h_4 => cases next
  | closed timedOut =>
    simp only [step] at next
    split at next
    case h_1 phase =>
      obtain ⟨-, same⟩ := Option.ite_none_right_eq_some.mp next
      cases same
      exact .routes phase
    case h_2 phase =>
      obtain ⟨-, same⟩ := Option.ite_none_right_eq_some.mp next
      cases same
      exact .stops phase
    case h_3 => cases next
  | slept =>
    simp only [step] at next
    split at next
    case h_1 phase =>
      cases next
      exact .retries phase
    case h_2 => cases next

/-! ### What a step can do to generation and replies -/

def Held (c : Connection) : Prop := c.connection ≠ none → c.phase.isReady = true

structure Stays (c d : Connection) : Prop where
  generation : d.generation = c.generation
  ready : d.phase.isReady = true → c.phase.isReady = true
  reply : d.reply = c.reply ∨
    ∃ result, d.reply = some result ∧ ∀ channel, result = .ok channel → channel.opened = c.generation
  held : Held d

theorem Held.stays (held : Held c) : Stays c c := ⟨rfl, id, .inl rfl, held⟩

theorem Stays.trans (first : Stays c d) (second : Stays d e) : Stays c e := by
  refine ⟨second.generation.trans first.generation, fun ready => first.ready (second.ready ready),
    ?_, second.held⟩
  rcases second.reply with same | ⟨result, replied, own⟩
  · rw [same]
    exact first.reply
  · refine .inr ⟨result, replied, ?_⟩
    rw [← first.generation]
    exact own

theorem Held.none (held : Held c) (offline : c.phase.isReady = false) : c.connection = none := by
  by_contra some
  have ready := held some
  rw [offline] at ready
  cases ready

theorem answer_stays (held : Held c) (requester : Requester)
    {result : Except TransportError Channel}
    (own : ∀ channel, result = .ok channel → channel.opened = c.generation) :
    Stays c (c.answer requester result) := by
  cases requester with
  | recovery => exact ⟨rfl, id, .inr ⟨result, rfl, own⟩, held⟩
  | other => exact held.stays

theorem refuse_stays (held : Held c) (requester : Requester) (error : TransportError) :
    Stays c (c.answer requester (.error error)) :=
  answer_stays held requester nofun

theorem offline_stays {phase : Phase} {version : Nat} (unheld : c.connection = none)
    (offline : phase.isReady = false) : Stays c { c with phase, version } := by
  refine ⟨rfl, ?_, .inl rfl, fun some => absurd unheld some⟩
  intro ready
  exact absurd (offline.symm.trans ready) nofun

theorem Leaves.stays (leaves : Leaves c d) (held : Held c) : Stays c d := by
  cases leaves with
  | drops unheld offline _ => exact offline_stays unheld offline
  | stops unheld =>
    refine ⟨rfl, nofun, ?_, fun some => absurd unheld some⟩
    unfold stop
    dsimp only
    split
    · exact .inr ⟨_, rfl, nofun⟩
    · exact .inl rfl
  | closes connection _ => exact ⟨rfl, fun _ => held connection, .inl rfl, fun _ => rfl⟩

theorem dropConnection_stays (c : Connection) : Stays c c.dropConnection :=
  ⟨rfl, id, .inl rfl, fun some => absurd rfl some⟩

theorem Serves.stays {command : Command} (serves : Serves c command d) (held : Held c) : Stays c d := by
  have connected (phase : c.phase.retries = true) : c.phase.isReady = false := by
    cases same : c.phase <;> simp_all [Phase.retries, Phase.isReady]
  cases serves with
  | waits offline _ reply =>
    refine ⟨rfl, fun ready => (c.phase.isReady_rearmed c.clock).symm.trans ready, ?_,
      fun some => absurd (held.none offline) some⟩
    exact reply.imp_right fun told => ⟨.error notReady, told, nofun⟩
  | starts offline _ => exact offline_stays (held.none offline) rfl
  | fails retries _ => exact offline_stays (held.none (connected retries)) rfl
  | shuts => exact (shutdown_leaves c).stays held
  | ignores => exact held.stays
  | denies => exact refuse_stays held _ notReady
  | opens waiting _ _ => exact ⟨rfl, fun _ => by rw [waiting]; rfl, .inl rfl, fun _ => rfl⟩
  | loses => exact (lose_leaves c _).stays held

theorem Turns.stays (turns : Turns c event d) (held : Held c) :
    Stays c d ∨ event = .attempted (.completed (.ok ())) ∧ d = c.becomeReady := by
  cases turns with
  | establishes => exact .inr ⟨rfl, rfl⟩
  | tick | send => exact .inl ⟨rfl, id, .inl rfl, held⟩
  | serves _ serves => exact .inl { serves.stays held with }
  | misses phase => exact .inl ((attemptFailed_leaves (held.none (by rw [phase]; rfl)) _ _).stays held)
  | breaks => exact .inl ((lose_leaves c _).stays held)
  | notes => exact .inl held.stays
  | @opens requester _ phase =>
    have waits : Stays c { c with phase := .ready .waiting, channels := c.channels + 1 } :=
      ⟨rfl, fun _ => by rw [phase]; rfl, .inl rfl, fun _ => rfl⟩
    refine .inl (waits.trans (answer_stays waits.held requester ?_))
    rintro channel same
    obtain rfl := Except.ok.inj same
    rfl
  | @refuses requester _ error phase =>
    have waits : Stays c { c with phase := .ready .waiting } :=
      ⟨rfl, fun _ => by rw [phase]; rfl, .inl rfl, fun _ => rfl⟩
    exact .inl (waits.trans (refuse_stays waits.held requester error))
  | @expires requester _ _ =>
    have answered := refuse_stays held requester channelTimedOut
    exact .inl (answered.trans ((lose_leaves _ channelTimedOut).stays answered.held))
  | routes =>
    have dropped := dropConnection_stays c
    exact .inl (dropped.trans ((routeLoss_leaves rfl _).stays dropped.held))
  | stops =>
    have dropped := dropConnection_stays c
    exact .inl (dropped.trans ((Leaves.stops rfl).stays dropped.held))
  | retries phase => exact .inl (offline_stays (held.none (by rw [phase]; rfl)) rfl)

theorem send_stays (held : Held c) {command : Command} (sent : c.send command = some d) : Stays c d := by
  rw [send_eq sent]
  exact ⟨rfl, id, .inl rfl, held⟩

structure Keeps (c d : Connection) : Prop where
  obtained : d.obtained = c.obtained
  generation : d.generation = c.generation
  connection : d.connection = c.connection ∨ d.connection = none

theorem Keeps.trans (first : Keeps c d) (second : Keeps d e) : Keeps c e := by
  refine ⟨second.obtained.trans first.obtained, second.generation.trans first.generation, ?_⟩
  rcases second.connection with same | gone
  · rw [same]
    exact first.connection
  · exact .inr gone

theorem Leaves.keeps (leaves : Leaves c d) : Keeps c d := by
  cases leaves <;> exact ⟨rfl, rfl, .inl rfl⟩

theorem answer_keeps (c : Connection) (requester : Requester) (result : Except TransportError Channel) :
    Keeps c (c.answer requester result) := by
  cases requester <;> exact ⟨rfl, rfl, .inl rfl⟩

theorem Serves.keeps {command : Command} (serves : Serves c command d) : Keeps c d := by
  cases serves with
  | shuts => exact (shutdown_leaves c).keeps
  | denies => exact answer_keeps c _ _
  | loses => exact (lose_leaves c _).keeps
  | _ => exact ⟨rfl, rfl, .inl rfl⟩

theorem Turns.keeps (turns : Turns c event d) :
    Keeps c d ∨ event = .attempted (.completed (.ok ())) ∧ d = c.becomeReady := by
  have gone : Keeps c c.dropConnection := ⟨rfl, rfl, .inr rfl⟩
  cases turns with
  | establishes => exact .inr ⟨rfl, rfl⟩
  | serves _ serves => exact .inl { serves.keeps with }
  | misses =>
    unfold attemptFailed
    split <;> exact .inl ⟨rfl, rfl, .inl rfl⟩
  | breaks => exact .inl (lose_leaves c _).keeps
  | @opens requester _ _ =>
    exact .inl ((⟨rfl, rfl, .inl rfl⟩ : Keeps c { c with phase := .ready .waiting, channels := c.channels + 1 }).trans
      (answer_keeps _ requester _))
  | @refuses requester _ _ _ =>
    exact .inl ((⟨rfl, rfl, .inl rfl⟩ : Keeps c { c with phase := .ready .waiting }).trans
      (answer_keeps _ requester _))
  | expires => exact .inl ((answer_keeps c _ _).trans (lose_leaves _ _).keeps)
  | routes => exact .inl (gone.trans (routeLoss_leaves rfl _).keeps)
  | stops => exact .inl (gone.trans (Leaves.stops rfl).keeps)
  | _ => exact .inl ⟨rfl, rfl, .inl rfl⟩

end Connection

end RabbitRs.Recovery
