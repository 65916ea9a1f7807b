import RabbitRs.Publisher.Lifecycle
import RabbitRs.Recovery.Connection

/-!
The recovery coordinator (`pool/recovery_coordinator.rs`) between the connection actor it watches
and the publisher actor it drives; a step is a step of one of the three tasks. Reconciling the
topology and establishing consumers are answers of the environment.
-/

namespace RabbitRs.Recovery

open StepMachine
open Publisher (Channel ConnectionEvent)

inductive CoordinatorError where
  | topology (source : TransportError)
  | transport (source : TransportError)
  | publisher (error : PublishError)
  | consumer (message : String) (source : Option TransportError)
  | internal (message : String)

namespace CoordinatorError

def message : CoordinatorError → String
  | .topology source => "topology reconciliation failed: " ++ source.message
  | .transport source => source.message
  | .publisher error => "publisher failed to adopt the recovered channel: " ++ error.message
  | .consumer message _ => "consumer spawn failed: " ++ message
  | .internal message => message

def transportCause : CoordinatorError → Option TransportError
  | .topology source | .transport source => some source
  | .publisher error => error.transportSource
  | .consumer _ source => source
  | .internal _ => none

/-- A permanent cause stays permanent; everything else is a recoverable loss. -/
def lossError (error : CoordinatorError) (context : String) : TransportError :=
  let retryable : TransportError :=
    { kind := .connection, message := context ++ ": " ++ error.message }
  match error.transportCause with
  | some cause => if cause.isRecoverable then retryable else cause
  | none => retryable

end CoordinatorError

def channelFailed : CoordinatorError :=
  .transport { kind := .closed, message := "failed to open publisher channel" }

def publisherClosed : CoordinatorError := .publisher (Publisher.closedError "publisher actor is closed")

/-- Where the coordinator's task stands. `noticed` lies between `changed()` and the read of the
value; `requesting` to `establishing` are the steps of `recover_generation`. -/
inductive Mode where
  | starting
  | idle
  | noticed
  | requesting (generation : Nat)
  | opening (generation : Nat)
  | reconciling (generation : Nat) (channel : Channel)
  | offering (generation : Nat) (channel : Channel)
  | adopting (generation : Nat) (channel : Channel) (reply : Nat)
  | establishing (generation : Nat)
  | failing (generation : Nat) (error : CoordinatorError)
  | warning (event : ConnectionEvent)
  | notifying (reply : Nat)
  | keepingAlive
  | closing
  | closingPublisher (reply : Nat)
  | stopped

/-- `completed` records the generations recovered without an error. -/
structure System where
  conn : Connection := {}
  mode : Mode := .starting
  seen : Nat := 0
  lastGeneration : Nat := 0
  publisher : Option Publisher.State := none
  completed : List Nat := []

inductive Event where
  | connection (event : Connection.Event)
  | publisher (event : Publisher.Event)
  | start
  | changed
  | read
  | request
  | opened
  | reconciled (result : Except TransportError Unit)
  | offer (reply : Nat)
  | adopted
  | established (result : Except CoordinatorError Unit)
  | report
  | warn (reply : Nat)
  | warned
  | keepAlive
  | keptAlive
  | close
  | closePublisher (reply : Nat)
  | publisherClosed

/-- What others may do to the connection actor: the coordinator starts it and asks for the
publisher channel, and it is closed after the coordinator. -/
def Connection.Event.fromOutside (closing : Bool) : Connection.Event → Bool
  | .send .start | .send (.openPublisher .recovery) => false
  | .send .close => closing
  | _ => true

def Mode.isStopped : Mode → Bool
  | .stopped => true
  | _ => false

def Phase.isStopped : Phase → Bool
  | .stopped => true
  | _ => false

def System.fail (s : System) (generation : Nat) (error : CoordinatorError) : System :=
  { s with mode := .failing generation error }

def System.warnPublisher (s : System) (event : ConnectionEvent) : System :=
  match s.publisher with
  | none => { s with mode := .idle }
  | some _ => { s with mode := .warning event }

/-- The value of the watch is read after the change was noticed. -/
def System.observe (s : System) : System :=
  match s.conn.published with
  | .ready generation =>
    if generation = s.lastGeneration then { s with mode := .idle }
    else { s with lastGeneration := generation, mode := .requesting generation }
  | .recovering _ _ | .connecting _ => s.warnPublisher (.recovering s.lastGeneration)
  | .failedPermanent kind reason =>
    s.warnPublisher (.failedPermanent s.lastGeneration { kind, message := reason })
  | .disconnected | .closed => { s with mode := .idle }

/-- `close_rx` is raced against the main loop and against a running recovery. -/
def Mode.closable : Mode → Bool
  | .idle | .requesting _ | .opening _ | .reconciling _ _ | .offering _ _ | .adopting _ _ _
  | .establishing _ => true
  | _ => false

section

variable (sha256 : Bytes → Bytes) (settings : Publisher.Settings)

def sendEvent (p : Publisher.State) (event : ConnectionEvent) (reply : Nat) : Option Publisher.State :=
  if (p.replies.lookup reply).isSome then none
  else Publisher.step sha256 settings p (.connectionEvent event reply)

def keepsAlive : Bool :=
  match settings.delayStrategy with
  | some (.ttlBuckets _) => true
  | _ => false

def step (s : System) : Event → Option System
  | .connection event =>
    if event.fromOutside s.mode.isStopped then
      (s.conn.step event).map fun conn => { s with conn }
    else none
  | .publisher event =>
    if event.external then none
    else s.publisher.bind fun p =>
      (Publisher.step sha256 settings p event).map fun p => { s with publisher := some p }
  | .start =>
    match s.mode with
    | .starting =>
      if s.conn.phase.isStopped then some { s with mode := .stopped }
      else (s.conn.send .start).map fun conn => { s with conn, mode := .idle }
    | _ => none
  | .changed =>
    match s.mode with
    | .idle =>
      if s.seen ≠ s.conn.version || s.conn.phase.isStopped then
        some { s with mode := .noticed, seen := s.conn.version }
      else none
    | _ => none
  | .read =>
    match s.mode with
    | .noticed => some s.observe
    | _ => none
  | .request =>
    match s.mode with
    | .requesting generation =>
      if s.conn.phase.isStopped then some (s.fail generation channelFailed)
      else (s.conn.send (.openPublisher .recovery)).map fun conn =>
        { s with conn := { conn with reply := none }, mode := .opening generation }
    | _ => none
  | .opened =>
    match s.mode, s.conn.reply with
    | .opening generation, some (.ok channel) => some { s with mode := .reconciling generation channel }
    | .opening generation, some (.error _) => some (s.fail generation channelFailed)
    | _, _ => none
  | .reconciled result =>
    match s.mode, result with
    | .reconciling generation channel, .ok () =>
      match s.publisher with
      | some _ => some { s with mode := .offering generation channel }
      | none => some { s with
          publisher := some (Publisher.initial settings channel)
          mode := .establishing generation }
    | .reconciling generation _, .error error => some (s.fail generation (.topology error))
    | _, _ => none
  | .offer reply =>
    match s.mode with
    | .offering generation channel =>
      s.publisher.bind fun p =>
        if p.mode.isStopped then some (s.fail generation publisherClosed)
        else (sendEvent sha256 settings p (.ready generation channel true) reply).map fun p =>
          { s with publisher := some p, mode := .adopting generation channel reply }
    | _ => none
  | .adopted =>
    match s.mode with
    | .adopting generation _ reply =>
      (s.publisher.bind fun p => p.replies.lookup reply).map fun result =>
        match result with
        | .ok () => { s with mode := .establishing generation }
        | .error error => s.fail generation (.publisher error)
    | _ => none
  | .established result =>
    match s.mode, result with
    | .establishing generation, .ok () =>
      some { s with mode := .idle, completed := generation :: s.completed }
    | .establishing generation, .error error => some (s.fail generation error)
    | _, _ => none
  | .report =>
    match s.mode with
    | .failing generation error =>
      let s := { s with lastGeneration := generation - 1, mode := .idle }
      if s.conn.phase.isStopped then some s
      else (s.conn.send (.connectionLost (error.lossError "recovery failed"))).map fun conn =>
        { s with conn }
    | _ => none
  | .warn reply =>
    match s.mode with
    | .warning event =>
      s.publisher.bind fun p =>
        if p.mode.isStopped then some { s with mode := .idle }
        else (sendEvent sha256 settings p event reply).map fun p =>
          { s with publisher := some p, mode := .notifying reply }
    | _ => none
  | .warned =>
    match s.mode with
    | .notifying reply =>
      (s.publisher.bind fun p => p.replies.lookup reply).map fun _ => { s with mode := .idle }
    | _ => none
  | .keepAlive =>
    match s.mode with
    | .idle => if keepsAlive settings then some { s with mode := .keepingAlive } else none
    | _ => none
  | .keptAlive =>
    match s.mode with
    | .keepingAlive => some { s with mode := .idle }
    | _ => none
  | .close => if s.mode.closable then some { s with mode := .closing } else none
  | .closePublisher reply =>
    match s.mode, s.publisher with
    | .closing, none => some { s with mode := .stopped }
    | .closing, some p =>
      if p.mode.isStopped then some { s with mode := .stopped }
      else if (p.replies.lookup reply).isSome then none
      else (Publisher.step sha256 settings p (.close reply)).map fun p =>
        { s with publisher := some p, mode := .closingPublisher reply }
    | _, _ => none
  | .publisherClosed =>
    match s.mode with
    | .closingPublisher reply =>
      (s.publisher.bind fun p => p.replies.lookup reply).map fun _ => { s with mode := .stopped }
    | _ => none

def machine : Machine System Event where
  Initial s := s = {}
  step := step sha256 settings

end

/-- Where a recovery stands that can fail by itself; the adoption is failed by the publisher. -/
def Mode.recovering : Mode → Option Nat
  | .requesting generation | .opening generation | .reconciling generation _ | .offering generation _
  | .establishing generation => some generation
  | _ => none

def Mode.isClosing : Mode → Bool
  | .closing | .closingPublisher _ | .stopped => true
  | _ => false

section

variable (sha256 : Bytes → Bytes) (settings : Publisher.Settings)

inductive Turns (s : System) : Event → System → Prop where
  | connection {event : Connection.Event} {d : Connection} : s.conn.step event = some d →
      Turns s (.connection event) { s with conn := d }
  | publisher {event : Publisher.Event} {p q : Publisher.State} : event.external = false →
      s.publisher = some p → Publisher.step sha256 settings p event = some q →
      Turns s (.publisher event) { s with publisher := some q }
  | starts {d : Connection} : s.mode = .starting → s.conn.send .start = some d →
      Turns s .start { s with conn := d, mode := .idle }
  | changes : s.mode = .idle → Turns s .changed { s with mode := .noticed, seen := s.conn.version }
  | reads : s.mode = .noticed → Turns s .read s.observe
  | requests {generation : Nat} {d : Connection} : s.mode = .requesting generation →
      s.conn.send (.openPublisher .recovery) = some d →
      Turns s .request { s with conn := { d with reply := none }, mode := .opening generation }
  | opens {generation : Nat} {channel : Channel} : s.mode = .opening generation →
      s.conn.reply = some (.ok channel) → Turns s .opened { s with mode := .reconciling generation channel }
  | reconciles {generation : Nat} {channel : Channel} : s.mode = .reconciling generation channel →
      Turns s (.reconciled (.ok ())) { s with mode := .offering generation channel }
  | spawns {generation : Nat} {channel : Channel} : s.mode = .reconciling generation channel →
      Turns s (.reconciled (.ok ())) { s with
        publisher := some (Publisher.initial settings channel), mode := .establishing generation }
  | offers {generation reply : Nat} {channel : Channel} {p q : Publisher.State} :
      s.mode = .offering generation channel → s.publisher = some p →
      sendEvent sha256 settings p (.ready generation channel true) reply = some q →
      Turns s (.offer reply) { s with publisher := some q, mode := .adopting generation channel reply }
  | adopts {generation reply : Nat} {channel : Channel} {p : Publisher.State} :
      s.mode = .adopting generation channel reply → s.publisher = some p →
      p.replies.lookup reply = some (.ok ()) → Turns s .adopted { s with mode := .establishing generation }
  | refuses {generation reply : Nat} {channel : Channel} {p : Publisher.State} {error : PublishError} :
      s.mode = .adopting generation channel reply → s.publisher = some p →
      p.replies.lookup reply = some (.error error) → Turns s .adopted (s.fail generation (.publisher error))
  | establishes {generation : Nat} : s.mode = .establishing generation →
      Turns s (.established (.ok ())) { s with mode := .idle, completed := generation :: s.completed }
  | fails {event : Event} {generation : Nat} (error : CoordinatorError) :
      s.mode.recovering = some generation → Turns s event (s.fail generation error)
  | drops {generation : Nat} {error : CoordinatorError} : s.mode = .failing generation error →
      s.conn.phase.isStopped = true →
      Turns s .report { s with lastGeneration := generation - 1, mode := .idle }
  | reports {generation : Nat} {error : CoordinatorError} {loss : TransportError} {d : Connection} :
      s.mode = .failing generation error → s.conn.send (.connectionLost loss) = some d →
      Turns s .report { s with lastGeneration := generation - 1, mode := .idle, conn := d }
  | skips {event : ConnectionEvent} {reply : Nat} : s.mode = .warning event →
      Turns s (.warn reply) { s with mode := .idle }
  | warns {event : ConnectionEvent} {reply : Nat} {p q : Publisher.State} : s.mode = .warning event →
      s.publisher = some p → sendEvent sha256 settings p event reply = some q →
      Turns s (.warn reply) { s with publisher := some q, mode := .notifying reply }
  | warned {reply : Nat} {p : Publisher.State} {result : Except PublishError Unit} :
      s.mode = .notifying reply → s.publisher = some p → p.replies.lookup reply = some result →
      Turns s .warned { s with mode := .idle }
  | keepsAlive : s.mode = .idle → Turns s .keepAlive { s with mode := .keepingAlive }
  | keptAlive : s.mode = .keepingAlive → Turns s .keptAlive { s with mode := .idle }
  | closes {reply : Nat} {p q : Publisher.State} : s.publisher = some p →
      p.send settings (.close reply) = some q →
      Turns s (.closePublisher reply) { s with publisher := some q, mode := .closingPublisher reply }
  | ends {event : Event} (mode : Mode) : mode.isClosing = true → Turns s event { s with mode }

variable {sha256 settings} {s t : System}

theorem recovery_turns {event : Event} (stepped : step sha256 settings s event = some t)
    (recovers : event = .request ∨ event = .opened ∨ (∃ result, event = .reconciled result) ∨
      (∃ reply, event = .offer reply) ∨ event = .adopted ∨ ∃ result, event = .established result) :
    Turns sha256 settings s event t := by
  have fails {generation : Nat} (error : CoordinatorError) (mode : s.mode.recovering = some generation) :
      Turns sha256 settings s event (s.fail generation error) := .fails error mode
  rcases recovers with rfl | rfl | ⟨result, rfl⟩ | ⟨reply, rfl⟩ | rfl | ⟨result, rfl⟩ <;>
    simp only [step] at stepped <;> split at stepped
  -- request
  · rename_i mode
    split at stepped
    · rename_i stopped
      cases stepped
      exact fails _ (by rw [mode]; rfl)
    · obtain ⟨d, sent, rfl⟩ := Option.map_eq_some_iff.mp stepped
      exact .requests mode sent
  · cases stepped
  -- opened
  · rename_i mode reply
    cases stepped
    exact .opens mode reply
  · rename_i mode reply
    cases stepped
    exact fails _ (by rw [mode]; rfl)
  · cases stepped
  -- reconciled
  · rename_i mode
    split at stepped <;> cases stepped
    · exact .reconciles mode
    · exact .spawns mode
  · rename_i mode
    cases stepped
    exact fails _ (by rw [mode]; rfl)
  · cases stepped
  -- offer
  · rename_i mode
    obtain ⟨p, spawned, stepped⟩ := Option.bind_eq_some_iff.mp stepped
    split at stepped
    · rename_i stopped
      cases stepped
      exact fails _ (by rw [mode]; rfl)
    · obtain ⟨q, sent, rfl⟩ := Option.map_eq_some_iff.mp stepped
      exact .offers mode spawned sent
  · cases stepped
  -- adopted
  · rename_i mode
    obtain ⟨result, found, rfl⟩ := Option.map_eq_some_iff.mp stepped
    obtain ⟨p, spawned, replied⟩ := Option.bind_eq_some_iff.mp found
    cases result with
    | ok => exact .adopts mode spawned replied
    | error error => exact .refuses mode spawned replied
  · cases stepped
  -- established
  · rename_i mode
    cases stepped
    exact .establishes mode
  · rename_i mode
    cases stepped
    exact fails _ (by rw [mode]; rfl)
  · cases stepped

theorem step_turns {event : Event} (stepped : step sha256 settings s event = some t) :
    Turns sha256 settings s event t := by
  cases event with
  | request => exact recovery_turns stepped (.inl rfl)
  | opened => exact recovery_turns stepped (.inr (.inl rfl))
  | reconciled result => exact recovery_turns stepped (.inr (.inr (.inl ⟨result, rfl⟩)))
  | offer reply => exact recovery_turns stepped (.inr (.inr (.inr (.inl ⟨reply, rfl⟩))))
  | adopted => exact recovery_turns stepped (.inr (.inr (.inr (.inr (.inl rfl)))))
  | established result => exact recovery_turns stepped (.inr (.inr (.inr (.inr (.inr ⟨result, rfl⟩)))))
  | connection event =>
    obtain ⟨-, stepped⟩ := Option.ite_none_right_eq_some.mp stepped
    obtain ⟨d, moved, rfl⟩ := Option.map_eq_some_iff.mp stepped
    exact .connection moved
  | publisher event =>
    obtain ⟨internal, stepped⟩ := Option.ite_none_left_eq_some.mp stepped
    obtain ⟨p, spawned, stepped⟩ := Option.bind_eq_some_iff.mp stepped
    obtain ⟨q, moved, rfl⟩ := Option.map_eq_some_iff.mp stepped
    exact .publisher (Bool.eq_false_iff.mpr internal) spawned moved
  | start =>
    simp only [step] at stepped
    split at stepped
    · split at stepped
      · cases stepped
        exact .ends _ rfl
      · obtain ⟨d, sent, rfl⟩ := Option.map_eq_some_iff.mp stepped
        exact .starts ‹_› sent
    · cases stepped
  | changed =>
    simp only [step] at stepped
    split at stepped
    · obtain ⟨-, stepped⟩ := Option.ite_none_right_eq_some.mp stepped
      cases stepped
      exact .changes ‹_›
    · cases stepped
  | read =>
    simp only [step] at stepped
    split at stepped <;> cases stepped
    exact .reads ‹_›
  | report =>
    simp only [step] at stepped
    split at stepped
    · split at stepped
      · cases stepped
        exact .drops ‹_› ‹_›
      · obtain ⟨d, sent, rfl⟩ := Option.map_eq_some_iff.mp stepped
        exact .reports ‹_› sent
    · cases stepped
  | warn reply =>
    simp only [step] at stepped
    split at stepped
    · obtain ⟨p, spawned, stepped⟩ := Option.bind_eq_some_iff.mp stepped
      split at stepped
      · cases stepped
        exact .skips ‹_›
      · obtain ⟨q, sent, rfl⟩ := Option.map_eq_some_iff.mp stepped
        exact .warns ‹_› spawned sent
    · cases stepped
  | warned =>
    simp only [step] at stepped
    split at stepped
    · obtain ⟨result, found, rfl⟩ := Option.map_eq_some_iff.mp stepped
      obtain ⟨p, spawned, replied⟩ := Option.bind_eq_some_iff.mp found
      exact .warned ‹_› spawned replied
    · cases stepped
  | keepAlive =>
    simp only [step] at stepped
    split at stepped
    · obtain ⟨-, stepped⟩ := Option.ite_none_right_eq_some.mp stepped
      cases stepped
      exact .keepsAlive ‹_›
    · cases stepped
  | keptAlive =>
    simp only [step] at stepped
    split at stepped <;> cases stepped
    exact .keptAlive ‹_›
  | close =>
    obtain ⟨-, stepped⟩ := Option.ite_none_right_eq_some.mp stepped
    cases stepped
    exact .ends _ rfl
  | closePublisher reply =>
    simp only [step] at stepped
    split at stepped
    · cases stepped
      exact .ends _ rfl
    · split at stepped
      · cases stepped
        exact .ends _ rfl
      · obtain ⟨-, stepped⟩ := Option.ite_none_left_eq_some.mp stepped
        obtain ⟨q, sent, rfl⟩ := Option.map_eq_some_iff.mp stepped
        exact .closes ‹_› sent
    · cases stepped
  | publisherClosed =>
    simp only [step] at stepped
    split at stepped
    · obtain ⟨_, _, rfl⟩ := Option.map_eq_some_iff.mp stepped
      exact .ends _ rfl
    · cases stepped

end

end RabbitRs.Recovery
