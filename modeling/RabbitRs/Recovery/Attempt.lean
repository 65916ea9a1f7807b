import Mathlib.Data.List.Basic
import RabbitRs.Lib.Machine
import RabbitRs.Recovery.Connection

/-!
The timeout of a connect attempt (`handle_connecting`). The clock stands still while the timeout of
an attempt is due, so an attempt that is not answered is abandoned at one instant.
-/

namespace RabbitRs.Recovery

open StepMachine

namespace Connection

variable {c d : Connection} {event : Event} {failures deadline : Nat}

theorem Leaves.idle (leaves : Leaves c d) : d.phase ≠ .connecting failures deadline := by
  cases leaves with
  | drops _ _ idle => exact idle failures deadline
  | stops | closes => nofun

theorem Serves.arms {command : Command} (serves : Serves c command d)
    (attempts : d.phase = .connecting failures deadline) :
    d.clock = c.clock ∧ deadline = c.clock + connectTimeout := by
  cases serves with
  | waits =>
    cases phase : c.phase <;> rw [phase] at attempts <;> cases attempts
    exact ⟨rfl, rfl⟩
  | starts =>
    cases attempts
    exact ⟨rfl, rfl⟩
  | fails | opens => cases attempts
  | shuts => exact absurd attempts (shutdown_leaves c).idle
  | ignores waiting => cases waiting.symm.trans attempts
  | @denies requester waiting =>
    obtain ⟨reply, same, -⟩ := answer_eq c requester (.error notReady)
    rw [same] at attempts
    cases waiting.symm.trans attempts
  | loses => exact absurd attempts (lose_leaves c _).idle

/-- An attempt goes on under its timeout while commands are sent and time passes. The actor arms the timeout when
it enters the attempt and again with each command it takes. -/
theorem Turns.arms (turns : Turns c event d) (attempts : d.phase = .connecting failures deadline) :
    (c.phase = .connecting failures deadline ∧ event ≠ .receive ∧
      (d.clock = c.clock ∨ ∃ nanos, event = .tick nanos ∧ d.clock = c.clock + nanos)) ∨
    ((event = .receive ∨ ∀ failures deadline, c.phase ≠ .connecting failures deadline) ∧
      d.clock = c.clock ∧ deadline = c.clock + connectTimeout) := by
  have ready {serving : Serving} (phase : c.phase = .ready serving) (same : d.phase = c.phase) : False := by
    rw [same, phase] at attempts
    cases attempts
  cases turns with
  | @tick nanos => exact .inl ⟨attempts, nofun, .inr ⟨nanos, rfl, rfl⟩⟩
  | send => exact .inl ⟨attempts, nofun, .inl rfl⟩
  | serves _ serves => exact .inr ⟨.inl rfl, serves.arms attempts⟩
  | retries phase =>
    cases attempts
    exact .inr ⟨.inr (by rw [phase]; nofun), rfl, rfl⟩
  | establishes => cases attempts
  | misses =>
    unfold attemptFailed at attempts
    split at attempts <;> cases attempts
  | breaks => exact absurd attempts (lose_leaves c _).idle
  | notes phase => exact (ready phase rfl).elim
  | @opens requester | @refuses requester => cases requester <;> cases attempts
  | expires => exact absurd attempts (lose_leaves _ _).idle
  | routes => exact absurd attempts (routeLoss_leaves rfl _).idle
  | stops => cases attempts

end Connection

/-- The connection actor with the instant its attempt started and those at which the attempt took
commands, the last one first. -/
structure Attempt where
  conn : Connection := {}
  started : Nat := 0
  handled : List Nat := []

namespace Attempt

/-- A due timeout fires before time goes on. -/
def overruns (s : Attempt) (event : Connection.Event) : Bool :=
  match s.conn.phase, event with
  | .connecting _ deadline, .tick nanos => deadline < s.conn.clock + nanos
  | _, _ => false

def note (s : Attempt) (event : Connection.Event) (conn : Connection) : Attempt :=
  match s.conn.phase, event with
  | .connecting _ _, .receive => { s with conn, handled := s.conn.clock :: s.handled }
  | .connecting _ _, _ => { s with conn }
  | _, _ => { conn, started := s.conn.clock }

def step (s : Attempt) (event : Connection.Event) : Option Attempt :=
  if s.overruns event then none else (s.conn.step event).map (s.note event)

def machine : Machine Attempt Connection.Event := ⟨(· = {}), step⟩

def latest (s : Attempt) : Nat := s.handled.headD s.started

structure Timed (s : Attempt) : Prop where
  started : s.started ≤ s.latest
  handled : ∀ instant ∈ s.handled, s.started ≤ instant ∧ instant ≤ s.latest
  armed : ∀ {failures deadline}, s.conn.phase = .connecting failures deadline →
    deadline = s.latest + connectTimeout ∧ s.latest ≤ s.conn.clock ∧ s.conn.clock ≤ deadline

variable {s t : Attempt} {event : Connection.Event}

theorem note_conn (conn : Connection) : (s.note event conn).conn = conn := by
  unfold note
  split <;> rfl

theorem Timed.started_note (timed : Timed s) (conn : Connection) :
    (s.note event conn).started ≤ (s.note event conn).latest ∧ ∀ instant ∈ (s.note event conn).handled,
        (s.note event conn).started ≤ instant ∧ instant ≤ (s.note event conn).latest := by
  unfold note
  split
  · case h_1 phase =>
    obtain ⟨-, past, -⟩ := timed.armed phase
    have earlier : s.started ≤ s.conn.clock := timed.started.trans past
    refine ⟨earlier, fun instant listed => ?_⟩
    rcases List.mem_cons.mp listed with rfl | listed
    · exact ⟨earlier, le_rfl⟩
    · exact (timed.handled instant listed).imp_right past.trans'
  · exact ⟨timed.started, timed.handled⟩
  · exact ⟨le_rfl, nofun⟩

theorem Timed.step (timed : Timed s) (next : s.step event = some t) : Timed t := by
  obtain ⟨onTime, moved⟩ := Option.ite_none_left_eq_some.mp next
  obtain ⟨conn, stepped, rfl⟩ := Option.map_eq_some_iff.mp moved
  obtain ⟨started, handled⟩ := timed.started_note conn
  refine ⟨started, handled, fun {failures deadline} attempts => ?_⟩
  rw [note_conn] at attempts ⊢
  rcases (Connection.step_turns stepped).arms attempts with ⟨phase, other, passed⟩ | ⟨arms, clock, due⟩
  -- the attempt goes on
  · have kept : s.note event conn = { s with conn } := by
      unfold note
      split
      · exact absurd rfl other
      · rfl
      · case h_3 idle _ => exact (idle _ _ phase).elim
    obtain ⟨due, past, before⟩ := timed.armed phase
    rw [kept]
    rcases passed with clock | ⟨nanos, rfl, clock⟩
    · exact ⟨due, by rw [clock]; exact past, by rw [clock]; exact before⟩
    · simp only [overruns, phase, decide_eq_true_eq] at onTime
      refine ⟨due, ?_, ?_⟩
      · rw [clock]
        exact Nat.le_add_right_of_le past
      · rw [clock]
        omega
  -- the timeout is armed
  · have latest : (s.note event conn).latest = s.conn.clock := by
      unfold note
      split
      · rfl
      · case h_2 phase other =>
        rcases arms with rfl | idle
        · exact (other rfl).elim
        · exact absurd phase (idle _ _)
      · rfl
    rw [latest, clock]
    exact ⟨due, le_rfl, by omega⟩

theorem timed (reached : Reachable machine s) : Timed s := by
  refine reached.invariant ?_ (fun _ timed _ next => timed.step next)
  rintro s rfl
  exact ⟨le_rfl, nofun, nofun⟩

/-- An attempt can be abandoned at one instant only, the connect timeout after the last command it took.
That is the connect timeout after its start exactly when it took every command as it started. -/
theorem abandoned_on_time_iff (reached : Reachable machine s) {failures deadline : Nat}
    (attempts : s.conn.phase = .connecting failures deadline) :
    ((s.step (.attempted .timedOut)).isSome ↔ s.conn.clock = s.latest + connectTimeout) ∧
    (s.latest + connectTimeout = s.started + connectTimeout ↔ ∀ instant ∈ s.handled, instant = s.started) := by
  have timed := timed reached
  obtain ⟨due, -, before⟩ := timed.armed attempts
  constructor
  · have fires : (s.step (.attempted .timedOut)).isSome ↔ deadline ≤ s.conn.clock := by
      simp [step, overruns, attempts, Connection.step]
    rw [fires, ← due]
    omega
  · constructor
    · intro same instant listed
      have := timed.handled instant listed
      omega
    · intro all
      cases handled : s.handled with
      | nil => simp [latest, handled]
      | cons instant rest => simp [latest, handled, all instant (by simp [handled])]

/-- A consumer asked for as the attempt starts postpones nothing. -/
theorem quiet_attempt_abandoned_on_time : ∃ s, Reachable machine s ∧ s.handled = [s.started] ∧
    (s.step (.attempted .timedOut)).isSome ∧ s.conn.clock = s.started + connectTimeout := by
  have ran : run machine (fun _ _ => true) {}
      [.send .start, .send .openConsumer, .receive, .receive, .tick connectTimeout] =
      some { conn := { clock := connectTimeout, phase := .connecting 0 connectTimeout, version := 1 }, handled := [0] } := rfl
  have reached : Reachable machine _ := reaches_of_run (fun _ _ _ => trivial) (.start rfl) ran
  obtain ⟨fires, onTime⟩ := abandoned_on_time_iff reached rfl
  exact ⟨_, reached, rfl, fires.mpr rfl, onTime.mpr fun _ => List.mem_singleton.mp⟩

/-- A consumer asked for after five seconds postpones the end of the attempt to the fifteenth. -/
theorem command_postpones_timeout : ∃ s, Reachable machine s ∧
    (s.step (.attempted .timedOut)).isSome ∧ s.started = 0 ∧ s.conn.clock = 15 * 10 ^ 9 ∧
    s.conn.clock ≠ s.started + connectTimeout := by
  exact exists_reachable machine rfl
    [.send .start, .receive, .tick (5 * 10 ^ 9), .send .openConsumer, .receive, .tick connectTimeout] _
    (by decide +kernel)

end Attempt

end RabbitRs.Recovery
