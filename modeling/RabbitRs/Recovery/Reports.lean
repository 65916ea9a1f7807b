import RabbitRs.Recovery.Quiescence

/-!
Loss reports. A failed recovery and a failed `consumer` call both report a lost connection through
the command queue of the connection actor, without the generation that failed. Here every queued
report remembers it.
-/

namespace RabbitRs.Recovery

open StepMachine

/-- An on-demand `consumer` call, after it read the generation of a Ready connection. -/
inductive Call where
  | establishing (generation : Nat)
  | failed (generation : Nat) (error : CoordinatorError)
  | returned

/-- `origins` runs along the command queue: the generation a report is about, for those a recovery
or a call sent. -/
structure Reporting where
  system : System := {}
  calls : List Call := []
  origins : List (Option Nat) := []

inductive ReportEvent where
  | system (event : Event)
  | call
  | established (call : Nat)
  | failed (call : Nat) (error : CoordinatorError)
  | report (call : Nat)

def realign (origins : List (Option Nat)) (before after : List Command) (origin : Option Nat) :
    List (Option Nat) :=
  if before.length < after.length then origins ++ [origin] else origins.drop (before.length - after.length)

namespace Reporting

def moved (s : Reporting) (system : System) (origin : Option Nat) : Reporting :=
  { s with system, origins := realign s.origins s.system.conn.commands system.conn.commands origin }

end Reporting

def System.reported (s : System) : Event → Option Nat
  | .report =>
    match s.mode with
    | .failing generation _ => some generation
    | _ => none
  | _ => none

section

variable (sha256 : Bytes → Bytes) (settings : Publisher.Settings)

def reportStep (s : Reporting) : ReportEvent → Option Reporting
  | .system event =>
    (step sha256 settings s.system event).map fun system => s.moved system (s.system.reported event)
  | .call =>
    match s.system.conn.published with
    | .ready generation => some { s with calls := s.calls ++ [.establishing generation] }
    | _ => none
  | .established i =>
    match s.calls[i]? with
    | some (.establishing _) => some { s with calls := s.calls.set i .returned }
    | _ => none
  | .failed i error =>
    match s.calls[i]? with
    | some (.establishing generation) => some { s with calls := s.calls.set i (.failed generation error) }
    | _ => none
  | .report i =>
    match s.calls[i]? with
    | some (.failed generation error) =>
      let s := { s with calls := s.calls.set i .returned }
      if s.system.conn.phase.isStopped then some s
      else (s.system.conn.send (.connectionLost (error.lossError "consumer establishment failed"))).map
        fun conn => s.moved { s.system with conn } (some generation)
    | _ => none

def reportMachine : Machine Reporting ReportEvent where
  Initial s := s = {}
  step := reportStep sha256 settings

end

/-- A report about an older generation, once it is next in the queue, is taken from it and leaves the
connection as it is; at most the timeout of an attempt starts anew. -/
def Spares (s : Reporting) : Prop :=
  ∀ generation, s.origins.head? = some (some generation) →
    ∃ error rest, s.system.conn.commands = .connectionLost error :: rest ∧
      (generation < s.system.conn.generation → ∀ conn, s.system.conn.receive = some conn →
        conn = { s.system.conn with commands := rest }.rearm)

/-- Such a report finds the actor without a connection to serve, and reports a recoverable loss if the
actor connects or recovers. -/
def Harmless (s : Reporting) : Prop :=
  ∀ generation error rest, s.origins.head? = some (some generation) →
    s.system.conn.commands = .connectionLost error :: rest → generation < s.system.conn.generation →
    s.system.conn.phase ≠ .ready .waiting ∧ (s.system.conn.phase.retries = true → error.isRecoverable = true)

namespace Connection

variable {c d : Connection}

theorem Leaves.commands (leaves : Leaves c d) : d.commands = c.commands ∨ d.commands = [] := by
  cases leaves with
  | drops | closes => exact .inl rfl
  | stops => exact .inr rfl

theorem answer_commands (c : Connection) (requester : Requester)
    (result : Except TransportError Publisher.Channel) : (c.answer requester result).commands = c.commands := by
  cases requester <;> rfl

theorem Serves.commands {command : Command} (serves : Serves c command d) :
    d.commands = c.commands ∨ d.commands = [] := by
  cases serves with
  | shuts => exact (shutdown_leaves c).commands
  | loses => exact (lose_leaves c _).commands
  | denies => exact .inl (answer_commands c _ _)
  | _ => exact .inl rfl

inductive Shifts (before : List Command) : List Command → Prop where
  | same : Shifts before before
  | taken {command : Command} {after : List Command} : before = command :: after → Shifts before after
  | dropped : Shifts before []
  | sent (command : Command) : Shifts before (before ++ [command])

theorem Shifts.of_kept {before after : List Command} (kept : after = before ∨ after = []) : Shifts before after := by
  rcases kept with rfl | rfl
  · exact .same
  · exact .dropped

theorem Turns.shifts {event : Event} (turns : Turns c event d) : Shifts c.commands d.commands := by
  cases turns with
  | send => exact .sent _
  | serves queued serves =>
    rw [queued]
    rcases serves.commands with same | empty
    · rw [same]
      exact .taken rfl
    · rw [empty]
      exact .dropped
  | misses =>
    unfold attemptFailed
    split <;> exact .same
  | breaks => exact .of_kept (lose_leaves c _).commands
  | opens | refuses => exact .of_kept (.inl (answer_commands _ _ _))
  | expires => exact .of_kept (answer_commands c _ _ ▸ (lose_leaves _ _).commands)
  | routes => exact .of_kept (routeLoss_leaves (c := c.dropConnection) rfl _).commands
  | stops => exact .dropped
  | _ => exact .same

theorem lose_phase (c : Connection) (error : TransportError) : (c.lose error).phase ≠ .ready .waiting := by
  unfold lose routeLoss
  split
  · split
    · nofun
    · nofun
  · nofun

theorem lostOffline_eq (c : Connection) (stay : Connection → Connection) (stays : stay c = c.rearm)
    (retries : c.phase.retries = true) (error : TransportError) :
    lostOffline stay c error = c.rearm ↔ error.isRecoverable = true := by
  unfold lostOffline
  split
  case isTrue recoverable => exact ⟨fun _ => recoverable, fun _ => stays⟩
  case isFalse permanent =>
    refine ⟨fun same => ?_, fun recoverable => absurd recoverable permanent⟩
    -- a permanent failure ends the attempt, which starting its timeout anew does not
    have ended : c.rearm.phase.retries = false := by rw [← same]; rfl
    rw [rearm_eq] at ended
    cases attempt : c.phase <;> simp [attempt, Phase.retries, Phase.rearmed] at ended retries

theorem serve_lost_iff (c : Connection) (error : TransportError) :
    (∀ d, c.serve (.connectionLost error) = some d → d = c.rearm) ↔
      c.phase ≠ .ready .waiting ∧ (c.phase.retries = true → error.isRecoverable = true) := by
  unfold serve
  split
  case h_1 phase | h_2 phase => simp [serveOffline, rearm, phase, Phase.retries]
  case h_3 phase =>
    have lost := lostOffline_eq c rearm rfl (by rw [phase]; rfl) error
    simp only [serveOffline, Option.some.injEq, forall_eq', lost]
    simp [phase, Phase.retries]
  case h_4 phase =>
    have lost := lostOffline_eq c id (by simp [rearm, phase]) (by rw [phase]; rfl) error
    simp only [serveOffline, Option.some.injEq, forall_eq', lost]
    simp [phase, Phase.retries]
  case h_5 phase =>
    have left : c.lose error ≠ c.rearm := by
      intro same
      apply lose_phase c error
      rw [same, rearm_eq, phase]
      rfl
    simpa [phase] using left
  case h_6 phase => simp_all [Phase.retries]
  case h_7 phase => simp [phase, Phase.retries]

end Connection

section

variable {sha256 : Bytes → Bytes} {settings : Publisher.Settings} {s t : System} {e : Event}

theorem Turns.shifts (turns : Turns sha256 settings s e t) : Connection.Shifts s.conn.commands t.conn.commands := by
  cases turns with
  | connection moved => exact (Connection.step_turns moved).shifts
  | reads => exact (observe_frame s).1 ▸ .same
  | starts _ sent | requests _ sent | reports _ sent => exact Connection.send_eq sent ▸ .sent _
  | _ => exact .same

theorem Turns.reports_loss (turns : Turns sha256 settings s .report t) {command : Command}
    (longer : t.conn.commands = s.conn.commands ++ [command]) : command.isLoss = true := by
  cases turns with
  | reports _ sent =>
    rw [Connection.send_eq sent] at longer
    obtain rfl : Command.connectionLost _ = command := by simpa using longer
    rfl
  | _ =>
    have same : s.conn.commands = s.conn.commands ++ [command] := longer
    simp at same

end

def Aligned (origins : List (Option Nat)) (commands : List Command) : Prop :=
  List.Forall₂ (fun origin command => origin.isSome = true → command.isLoss = true) origins commands

theorem Aligned.head {origins : List (Option Nat)} {commands : List Command} {generation : Nat}
    (aligned : Aligned origins commands) (head : origins.head? = some (some generation)) :
    ∃ error rest, commands = .connectionLost error :: rest := by
  obtain ⟨rest, rfl⟩ := List.head?_eq_some_iff.mp head
  cases aligned with
  | @cons _ command _ commands loss =>
    cases command with
    | connectionLost error => exact ⟨error, commands, rfl⟩
    | _ => cases loss rfl

theorem realign_aligned {origins : List (Option Nat)} {before after : List Command} {origin : Option Nat}
    (aligned : Aligned origins before) (shifts : Connection.Shifts before after)
    (loss : ∀ command, after = before ++ [command] → origin.isSome = true → command.isLoss = true) :
    Aligned (realign origins before after origin) after := by
  have length := aligned.length_eq
  unfold realign
  cases shifts with
  | same => simpa using aligned
  | @taken command after queued =>
    subst queued
    cases aligned with
    | cons _ rest => simpa [Aligned] using rest
  | dropped => simp [← length, Aligned]
  | sent command =>
    rw [if_pos (by simp)]
    exact List.rel_append aligned (.cons (loss command rfl) .nil)

section

variable {sha256 : Bytes → Bytes} {settings : Publisher.Settings} {s t : Reporting}

theorem reportStep_aligned {e : ReportEvent} (aligned : Aligned s.origins s.system.conn.commands)
    (next : reportStep sha256 settings s e = some t) : Aligned t.origins t.system.conn.commands := by
  cases e with
  | system event =>
    obtain ⟨system, moved, rfl⟩ := Option.map_eq_some_iff.mp next
    refine realign_aligned aligned (step_turns moved).shifts fun command longer reported => ?_
    cases event with
    | report => exact (step_turns moved).reports_loss longer
    | _ => cases reported
  | report i =>
    simp only [reportStep] at next
    split at next
    · split at next
      · cases next
        exact aligned
      · obtain ⟨conn, sent, rfl⟩ := Option.map_eq_some_iff.mp next
        rw [Reporting.moved, Connection.send_eq sent]
        refine realign_aligned aligned (.sent _) fun command longer _ => ?_
        obtain rfl : Command.connectionLost _ = command := by simpa using longer
        rfl
    · cases next
  | call | established i | failed i error =>
    simp only [reportStep] at next
    split at next
    · cases next
      exact aligned
    · cases next

/-- A report about an older generation leaves the connection alone exactly when it is received while
none is served and, if the actor reconnects, the loss it reports is recoverable. -/
theorem reports_spare_newer {s : Reporting} (reached : Reachable (reportMachine sha256 settings) s) :
    Spares s ↔ Harmless s := by
  have initial (s : Reporting) (initial : (reportMachine sha256 settings).Initial s) :
      Aligned s.origins s.system.conn.commands := by
    obtain rfl : s = {} := initial
    exact .nil
  have preserved : Preserves (reportMachine sha256 settings) (fun _ _ => True) (fun _ => True)
      (fun s => Aligned s.origins s.system.conn.commands) :=
    fun _ aligned _ next => reportStep_aligned aligned next
  have aligned := reached.invariant initial preserved
  constructor
  · intro spares generation error rest head queued newer
    obtain ⟨_, _, same, spared⟩ := spares generation head
    cases queued.symm.trans same
    refine ({ s.system.conn with commands := rest }.serve_lost_iff error).mp fun conn served => ?_
    exact spared newer conn (by rw [Connection.receive, queued]; exact served)
  · intro harmless generation head
    obtain ⟨error, rest, queued⟩ := aligned.head head
    refine ⟨error, rest, queued, fun newer conn received => ?_⟩
    rw [Connection.receive, queued] at received
    exact ({ s.system.conn with commands := rest }.serve_lost_iff error).mpr
      (harmless generation error rest head queued newer) conn received

end

def refused : CoordinatorError := .consumer "ACCESS_REFUSED" (some { kind := .authentication, message := "ACCESS_REFUSED" })

def firstReports : Machine Reporting ReportEvent := reportMachine (fun _ => List.replicate 32 0) confirmedSettings

def resetCall : CoordinatorError := .consumer "connection reset by peer" (some reset)

def lose : List ReportEvent :=
  [.system (.connection (.transport (.error reset))), .system (.connection (.closed false))]

def reconnect : List ReportEvent :=
  [.system (.connection .slept), .system (.connection (.attempted (.completed (.ok ()))))]

/-- A call of the first generation fails and reports it only when the second connection is lost, too. -/
def staleReport : List ReportEvent :=
  firstRecovery.map .system ++ [.call, .failed 0 resetCall] ++ lose ++ reconnect ++ lose ++ [.report 0]

theorem staleReport_spares : ∃ s, Reachable firstReports s ∧ s.origins = [some 1] ∧
    s.system.conn.generation = 2 ∧ s.system.conn.phase.retries = true ∧ Spares s := by
  obtain ⟨s, reached, queued, commands, generation, retries⟩ :=
    exists_reachable firstReports rfl staleReport
      (fun s => s.origins = [some 1] ∧
        s.system.conn.commands = [.connectionLost (resetCall.lossError "consumer establishment failed")] ∧
        s.system.conn.generation = 2 ∧ s.system.conn.phase.retries = true) (by decide +kernel)
  refine ⟨s, reached, queued, generation, retries, (reports_spare_newer reached).mpr ?_⟩
  intro _ error rest _ head _
  cases commands.symm.trans head
  refine ⟨fun waiting => ?_, fun _ => by decide⟩
  rw [waiting] at retries
  cases retries

/-- The connection is replaced between the failure of the call and its report. -/
def lateReport : List ReportEvent :=
  firstRecovery.map .system ++ [.call, .failed 0 refused] ++ lose ++ reconnect ++ [.report 0]

/-- The report about the first generation then ends the second connection. -/
theorem late_report_ends_newer : ∃ s, Reachable firstReports s ∧ s.origins = [some 1] ∧
    s.system.conn.published = .ready 2 ∧ ¬Spares s := by
  obtain ⟨s, reached, queued, ready, generation, serving, conn, received, leaving⟩ :=
    exists_reachable firstReports rfl lateReport
      (fun s => s.origins = [some 1] ∧ s.system.conn.published = .ready 2 ∧ s.system.conn.generation = 2 ∧
        (s.system.conn.phase.rearmed s.system.conn.clock).isLeaving = false ∧
        ∃ conn, s.system.conn.receive = some conn ∧ conn.phase.isLeaving = true) (by decide +kernel)
  refine ⟨s, reached, queued, ready, fun spares => ?_⟩
  obtain ⟨_, _, _, spared⟩ := spares 1 (by rw [queued]; rfl)
  rw [spared (by omega) conn received, Connection.rearm_eq] at leaving
  exact absurd (serving.symm.trans leaving) nofun

end RabbitRs.Recovery
