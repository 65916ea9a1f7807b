import RabbitRs.Lib.Machine
import RabbitRs.Recovery.Connection

/-!
The delay before a connect attempt is repeated (`recovery.rs`), and the sleep of the connection actor
over it. A panic of the arithmetic ends the task.
-/

namespace RabbitRs.Recovery

open StepMachine

structure RecoveryPolicy where
  initialDelay : Duration
  maximumDelay : Duration

def RecoveryPolicy.delayForFailure (policy : RecoveryPolicy) (consecutiveFailures : Nat) : Duration :=
  if consecutiveFailures = 0 then .zero
  else
    let exponent := min (consecutiveFailures - 1) 31
    min (.ofNanos (policy.initialDelay.nanos * 2 ^ exponent)) policy.maximumDelay

/-- `EqualJitter::apply`, with what is drawn from `0..=spread`; `delay * 4` panics on overflow. -/
def equalJitter (draw : Nat) (delay : Duration) : Option Duration :=
  if delay.nanos * 4 < 2 ^ 64 * 10 ^ 9 then
    let minimum := delay.nanos * 4 / 5
    let spread := min (delay.nanos - minimum) (2 ^ 64 - 1)
    some (.ofNanos (minimum + draw % (spread + 1)))
  else none

/-- The connection actor with the sleep of `handle_recovering` it entered last. -/
structure Sleeper where
  conn : Connection := {}
  entered : Nat := 0
  retryIn : Duration := .zero

def Phase.failures : Phase → Option Nat
  | .recovering failures _ => some failures
  | _ => none

namespace Sleeper

def note (policy : RecoveryPolicy) (s : Sleeper) (draw : Nat) (conn : Connection) : Option Sleeper :=
  match s.conn.phase.failures, conn.phase.failures with
  | none, some failures => (equalJitter draw (policy.delayForFailure failures)).map fun retryIn =>
      { conn, entered := conn.clock, retryIn }
  | _, _ => some { s with conn }

def wakesEarly (s : Sleeper) (event : Connection.Event) : Bool :=
  event matches .slept && s.conn.clock < s.entered + s.retryIn.nanos

def step (policy : RecoveryPolicy) (s : Sleeper) : Nat × Connection.Event → Option Sleeper
  | (draw, event) => if s.wakesEarly event then none else (s.conn.step event).bind (s.note policy draw)

def machine (policy : RecoveryPolicy) : Machine Sleeper (Nat × Connection.Event) := ⟨(· = {}), step policy⟩

end Sleeper

theorem RecoveryPolicy.delayForFailure_nanos (policy : RecoveryPolicy) {failures : Nat} (failed : 0 < failures) :
    (policy.delayForFailure failures).nanos =
      min (policy.initialDelay.nanos * 2 ^ min (failures - 1) 31) policy.maximumDelay.nanos := by
  have ordered : Monotone Duration.nanos := fun _ _ le => le
  have bounded := policy.maximumDelay.bounded
  rw [delayForFailure, if_neg failed.ne', ordered.map_min]
  simp only [Duration.ofNanos]
  omega

theorem equalJitter_bounds (draw : Nat) {delay : Duration} (fits : delay.nanos * 4 < 2 ^ 64 * 10 ^ 9) :
    ∃ jittered, equalJitter draw delay = some jittered ∧ delay.nanos * 4 / 5 ≤ jittered.nanos ∧
      jittered.nanos ≤ delay.nanos := by
  have drawn : draw % (min (delay.nanos - delay.nanos * 4 / 5) (2 ^ 64 - 1) + 1) <
      min (delay.nanos - delay.nanos * 4 / 5) (2 ^ 64 - 1) + 1 := Nat.mod_lt _ (Nat.succ_pos _)
  have bounded := delay.bounded
  refine ⟨_, if_pos fits, ?_⟩
  simp only [Duration.ofNanos]
  omega

namespace Connection

variable {c d : Connection} {event : Event} {failures : Nat} {error : TransportError}

theorem routeLoss_failures (failed : (c.routeLoss error).phase.failures = some failures) : 0 < failures := by
  unfold routeLoss at failed
  split at failed <;> cases failed
  exact Nat.one_pos

theorem lose_failures (failed : (c.lose error).phase.failures = some failures) : 0 < failures := by
  unfold lose at failed
  split at failed
  · exact routeLoss_failures failed
  · cases failed

/-- A step leads into the sleep after one more failure, or leaves the sleep as it is. -/
theorem Turns.sleeps (turns : Turns c event d) (failed : d.phase.failures = some failures) :
    c.phase.failures = some failures ∨ c.phase.failures = none ∧ 0 < failures := by
  have awake {serving : Serving} (phase : c.phase = .ready serving) : c.phase.failures = none := by rw [phase]; rfl
  cases turns with
  | tick | send => exact .inl failed
  | serves _ serves =>
    cases serves with
    | waits =>
      left
      cases phase : c.phase <;> rw [phase] at failed <;> exact failed
    | starts | fails | opens => cases failed
    | shuts =>
      unfold shutdown at failed
      split at failed <;> cases failed
    | ignores => exact .inl failed
    | @denies requester => cases requester <;> exact .inl failed
    | loses waiting => exact .inr ⟨awake waiting, lose_failures failed⟩
  | misses phase =>
    unfold attemptFailed at failed
    split at failed <;> cases failed
    exact .inr ⟨by rw [phase]; rfl, by simp [u32Max]⟩
  | breaks phase | expires phase => exact .inr ⟨awake phase, lose_failures failed⟩
  | notes => exact .inl failed
  | @opens requester | @refuses requester => cases requester <;> cases failed
  | routes phase => exact .inr ⟨awake phase, routeLoss_failures failed⟩
  | establishes | stops | retries => cases failed

end Connection

namespace Sleeper

variable {policy : RecoveryPolicy} {s : Sleeper} {event : Connection.Event}

/-- The sleep is for the failures counted: four fifths to all of the doubled and capped delay. -/
def Paced (policy : RecoveryPolicy) (s : Sleeper) : Prop :=
  ∀ failures, s.conn.phase.failures = some failures →
    let delay := min (policy.initialDelay.nanos * 2 ^ min (failures - 1) 31) policy.maximumDelay.nanos
    0 < failures ∧ delay * 4 / 5 ≤ s.retryIn.nanos ∧ s.retryIn.nanos ≤ delay

theorem note_paced (fits : policy.maximumDelay.nanos * 4 < 2 ^ 64 * 10 ^ 9) (paced : Paced policy s)
    {conn : Connection} (stepped : s.conn.step event = some conn) (draw : Nat) :
    ∃ t, s.note policy draw conn = some t ∧ Paced policy t := by
  have turns : Connection.Turns s.conn event conn := Connection.step_turns stepped
  unfold note
  split
  case h_1 awake failed =>
    have positive : 0 < _ := (turns.sleeps failed).elim (fun same => nomatch awake.symm.trans same) (·.2)
    have delay := policy.delayForFailure_nanos positive
    obtain ⟨retryIn, drawn, least, most⟩ := equalJitter_bounds draw (by rw [delay]; omega)
    rw [delay] at least most
    refine ⟨_, Option.map_eq_some_iff.mpr ⟨retryIn, drawn, rfl⟩, fun failures recovers => ?_⟩
    cases failed.symm.trans recovers
    exact ⟨positive, least, most⟩
  case h_2 slept =>
    refine ⟨_, rfl, fun failures failed => ?_⟩
    rcases turns.sleeps failed with same | ⟨awake, -⟩
    · exact paced failures same
    · exact (slept failures awake failed).elim

/-- Under a maximum delay whose fourfold is a duration nothing panics: every step of the actor is
taken but a wake-up before its time. Each sleep lasts four fifths to all of the doubled and capped
delay. -/
theorem reconnects_backed_off (fits : policy.maximumDelay.nanos * 4 < 2 ^ 64 * 10 ^ 9)
    (reached : Reachable (machine policy) s) : Paced policy s ∧ ∀ draw event,
      (s.step policy (draw, event)).isSome ↔ (s.conn.step event).isSome ∧ s.wakesEarly event = false := by
  have paced : Paced policy s := by
    refine reached.invariant ?_ fun _ paced _ next => ?_
    · rintro s rfl
      exact nofun
    · obtain ⟨-, moved⟩ := Option.ite_none_left_eq_some.mp next
      obtain ⟨conn, stepped, noted⟩ := Option.bind_eq_some_iff.mp moved
      obtain ⟨_, same, paced⟩ := note_paced fits paced stepped _
      cases same.symm.trans noted
      exact paced
  refine ⟨paced, fun draw event => ?_⟩
  have noted : ((s.conn.step event).bind (s.note policy draw)).isSome = (s.conn.step event).isSome := by
    cases stepped : s.conn.step event with
    | none => rfl
    | some conn =>
      obtain ⟨t, same, -⟩ := note_paced fits paced stepped draw
      rw [Option.bind_some, same]
      rfl
  cases early : s.wakesEarly event <;> simp [step, early, noted]

/-- The second failure in a row is followed by a sleep of 160 to 200 milliseconds. -/
theorem second_failure_backed_off : ∃ s, Reachable (machine ⟨.fromMillis 100, .fromSecs 30⟩) s ∧
    s.conn.phase.failures = some 2 ∧ 160 * 10 ^ 6 ≤ s.retryIn.nanos ∧ s.retryIn.nanos ≤ 200 * 10 ^ 6 := by
  let refused : Connection.Event := .attempted (.completed (.error { kind := .connection, message := "refused" }))
  obtain ⟨s, reached, failed⟩ := exists_reachable (machine ⟨.fromMillis 100, .fromSecs 30⟩) rfl
    [(0, .send .start), (0, .receive), (7, refused), (0, .tick (10 ^ 8)), (0, .slept), (5, refused)]
    (fun s => s.conn.phase.failures = some 2) (by decide +kernel)
  exact ⟨s, reached, failed, ((reconnects_backed_off (by decide) reached).1 2 failed).2⟩

end Sleeper

end RabbitRs.Recovery
