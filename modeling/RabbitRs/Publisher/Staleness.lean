import RabbitRs.Publisher.Phases

/-!
Attempts of an earlier generation. A Ready event that follows no suspension leaves the futures of
the old channel in place, and their completions act on the new one.
-/

namespace RabbitRs.Publisher

open StepMachine Keyed

/-- The generation the actor was at when the outstanding attempt was issued: that of the last state
before it was outstanding. -/
def issuedAt (a : Attempt) : List (State × Event) → Option Nat
  | [] => none
  | (before, _) :: earlier =>
    if a ∈ before.attempts then issuedAt a earlier else some before.generation

def Completes (s : State) (a : Attempt) : Event → Prop
  | .written index _ => (s.publishInFlight[index]?).map PendingWrite.attempt = some a
  | .confirmed index _ => (s.confirmations[index]?).map PendingConfirmation.attempt = some a
  | _ => False

/-- Completions of attempts issued at an earlier generation change neither phase nor channel, and
are not filed under the generation the actor is at. -/
def StaleHarmless (sha256 : Bytes → Bytes) (settings : Settings) (trace : List (State × Event))
    (s : State) : Prop :=
  ∀ a generation event t, issuedAt a trace = some generation → generation < s.generation →
    Completes s a event → step sha256 settings s event = some t →
    t.phase = s.phase ∧ t.channel = s.channel ∧
      ∀ sequence entry, t.ledger.lookup sequence = some entry → entry.generation = s.generation →
        s.ledger.lookup sequence = some entry

section

variable (settings : Settings)

def ConnectionEvent.adopted (s : State) : ConnectionEvent → Option Nat
  | .ready generation _ topologyRestored =>
    if topologyRestored && s.generation ≤ generation && !settings.config.enablesConfirms then
      some generation
    else none
  | _ => none

def Command.adopted (s : State) : Command → Option Nat
  | .connectionEvent event _ => event.adopted settings s
  | .publish _ | .close _ => none

def Event.adopts (s : State) : Event → Option Nat
  | .confirmsEnabled (.ok ()) =>
    match s.mode with
    | .enabling generation _ _ => some generation
    | _ => none
  | .receive => s.commands.head?.bind (·.adopted settings s)
  | .proceed _ =>
    match s.mode with
    | .handling command => command.adopted settings s
    | _ => none
  | _ => none

/-- A Ready event of another generation follows a suspension, or finds nothing in flight. -/
def Orderly (s : State) (event : Event) : Prop :=
  ∀ generation, event.adopts settings s = some generation → generation ≠ s.generation →
    s.phase = .suspended ∨ s.attempts = []

end

def Ages (s t : State) : Prop := t.generation = s.generation ∨ t.attempts = []

def Adopts (generation : Nat) (s t : State) : Prop :=
  t.generation = generation ∧ t.attempts = s.attempts

section

variable {sha256 : Bytes → Bytes} {settings : Settings} {s t : State}

theorem Done.ages {write : PendingWrite} {outcome : WireWriteOutcome} (done : Done settings s write outcome t) :
    Ages s t := by
  cases done with
  | suspends => exact .inr rfl
  | _ => exact .inl rfl

theorem resume_frame (s : State) (resume : Resume) :
    (s.resume resume).generation = s.generation ∧ (s.resume resume).attempts = s.attempts := by
  rcases resume with (_ | command) | reply | ⟨deadline, reply⟩ <;> exact ⟨rfl, rfl⟩

theorem resume_ages (resume : Resume) (ages : Ages s t) : Ages s (t.resume resume) := by
  have frame := resume_frame t resume
  exact ages.imp frame.1.trans frame.2.trans

theorem Tries.ages {item : RetainedPublish} {channel : Channel} {pending : List RetainedPublish}
    {resume : Resume} {poll : FirstPoll} (tries : Tries sha256 settings s item channel pending resume poll t) :
    Ages s t := by
  cases tries with
  | unroutable | waits => exact .inl rfl
  | answered _ done _ | late _ done => exact done.ages.imp_left fun same => same
  | broken _ done _ => exact resume_ages resume (done.ages.imp_left fun same => same)

theorem acceptPublish_ages (pending : List RetainedPublish) (resume : Resume) :
    Ages s (acceptPublish s pending resume) := by
  unfold acceptPublish
  split
  · exact .inl rfl
  · exact resume_ages resume (.inl rfl)
  · exact resume_ages resume (.inl rfl)

theorem finishClose_ages (reply : Nat) : Ages s (s.finishClose reply) := by
  unfold State.finishClose
  dsimp only
  split <;> exact .inl rfl

theorem Handles.ages {command : Command} (handles : Handles settings s command t) :
    Ages s t ∨ ∃ generation, command.adopted settings s = some generation ∧ Adopts generation s t := by
  cases handles with
  | publish => exact .inl (acceptPublish_ages _ _)
  | recovering | fails => exact .inl (.inr rfl)
  | refuses | enables | flushes => exact .inl (.inl rfl)
  | @adopts generation _ _ current plain =>
    refine .inr ⟨generation, if_pos ?_, rfl, rfl⟩
    simp [current, plain]
  | closes => exact .inl (finishClose_ages _)

variable {event : Event}

theorem Turns.ages (turns : Turns sha256 settings s event t) : Ages s t ∨ s.mode.ended = false ∧
      ∃ generation, event.adopts settings s = some generation ∧ Adopts generation s t := by
  cases turns
  case batch => exact .inl ((acceptPublish_ages _ _).imp_left fun same => same)
  case command command rest idle queued _ handles =>
    rcases handles.ages with ages | ⟨generation, accepted, adopts⟩
    · exact .inl (ages.imp_left fun same => same)
    · refine .inr ⟨by rw [idle]; rfl, generation, ?_, adopts⟩
      rw [Event.adopts, queued]
      cases command <;> exact accepted
  case handled handling handles =>
    simp only [Event.adopts, handling]
    exact handles.ages.imp_right fun adopts => ⟨rfl, adopts⟩
  case written done => exact .inl (done.ages.imp_left fun same => same)
  case loses => exact .inl (.inr rfl)
  case enabled generation _ _ enabling =>
    refine .inr ⟨by rw [enabling]; rfl, generation, ?_, rfl, rfl⟩
    simp only [Event.adopts, enabling]
  case declared tries => exact .inl (tries.ages.imp_left fun same => same)
  case tries tries => exact .inl tries.ages
  case drained | parks => exact .inl (resume_ages _ (.inl rfl))
  case quiesced => exact .inl (finishClose_ages _)
  all_goals exact .inl (.inl rfl)

variable {trace : List (State × Event)}

/-- Nothing is in flight when a Ready event is accepted in order. -/
theorem Staged.unoccupied (staged : Staged s) (running : s.mode.ended = false)
    (ordered : s.phase = .suspended ∨ s.attempts = []) : s.attempts = [] := by
  rcases ordered with suspended | empty
  · obtain ⟨-, -, -, confirmations, writes⟩ := (staged.phased running).suspended suspended
    simp [State.attempts, confirmations, writes]
  · exact empty

theorem issuedAt_current (traced : Traced (machine sha256 settings) (Orderly settings) trace s) :
    ∀ a ∈ s.attempts, issuedAt a trace = some s.generation := by
  induction traced with
  | start initial =>
    obtain ⟨channel, rfl⟩ := initial
    intro a member
    exact (List.not_mem_nil member).elim
  | @next trace s t event before orderly next ih =>
    intro a member
    have issued : issuedAt a ((s, event) :: trace) = some s.generation := by
      rw [issuedAt]
      split
      · exact ih a (by assumption)
      · rfl
    rw [issued]
    rcases (step_turns next).ages with (same | empty) | ⟨running, generation, accepted, same, kept⟩
    · rw [same]
    · rw [empty] at member
      exact (List.not_mem_nil member).elim
    · by_cases other : generation = s.generation
      · rw [same, other]
      · have staged := staged_of_reaches before.reaches
        rw [kept, staged.unoccupied running (orderly generation accepted other)] at member
        exact (List.not_mem_nil member).elim

/-- When every Ready event of another generation follows a suspension or finds nothing in flight, whatever
is in flight was issued at the generation the actor is at, and no completion is stale. -/
theorem attempts_current (traced : Traced (machine sha256 settings) (Orderly settings) trace s) :
    (∀ a ∈ s.attempts, issuedAt a trace = some s.generation) ∧ StaleHarmless sha256 settings trace s := by
  have current := issuedAt_current traced
  refine ⟨current, ?_⟩
  intro a generation event t issued earlier completes _
  have member : a ∈ s.attempts := by
    cases event with
    | written index outcome =>
      obtain ⟨write, found, rfl⟩ := Option.map_eq_some_iff.mp completes
      exact List.mem_append_left _ (List.mem_map_of_mem (List.mem_of_getElem? found))
    | confirmed index result =>
      obtain ⟨confirmation, found, rfl⟩ := Option.map_eq_some_iff.mp completes
      exact List.mem_append_right _ (List.mem_map_of_mem (List.mem_of_getElem? found))
    | _ => exact completes.elim
  have same := Option.some.inj (issued.symm.trans (current a member))
  omega

end

instance (settings : Settings) (s : State) (event : Event) : Decidable (Orderly settings s event) :=
  match accepted : event.adopts settings s with
  | none => isTrue fun generation same => by rw [accepted] at same; cases same
  | some generation =>
    decidable_of_iff (generation ≠ s.generation → s.phase = .suspended ∨ s.attempts = []) <| by
      constructor
      · intro orderly other same
        rw [accepted] at same
        cases same
        exact orderly
      · exact fun orderly => orderly generation accepted

/-- The order is written again on the channel of the second generation and awaits its confirmation. -/
theorem replayed_attempt_current : ∃ trace s, Traced confirming (Orderly safeSettings) trace s ∧
    s.generation = 2 ∧ s.attempts ≠ [] ∧ (∀ a ∈ s.attempts, issuedAt a trace = some 2) ∧
    StaleHarmless noDigest safeSettings trace s := by
  obtain ⟨trace, s, traced, second, some⟩ :=
    exists_traced confirming (Orderly safeSettings) ⟨firstChannel, rfl⟩ (orderReplayed.take 12)
      (fun _ s => s.generation = 2 ∧ s.attempts ≠ []) (by decide +kernel)
  have current := attempts_current traced
  rw [second] at current
  exact ⟨trace, s, traced, second, some, current⟩

def readyOverReady : List Event := [
  .confirmsEnabled (.ok ()), .publish order, .receive, .proceed .pending, .proceed .pending,
  .connectionEvent (.ready 2 { opened := 2, id := 1 } true) 0, .receive, .confirmsEnabled (.ok ()),
  .proceed .pending]

def staleFailure : Event :=
  .written 0 (.completed (.error { kind := .connection, message := "connection reset by peer" }))

/-- The old write then fails and takes the new channel down. -/
theorem stale_write_suspends : ∃ trace s, Traced confirming (fun _ _ => True) trace s ∧
    s.generation = 2 ∧ s.phase = .ready ∧ (s.attempts.map fun a => issuedAt a trace) = [some 1] ∧
    (∃ t, step noDigest safeSettings s staleFailure = some t ∧ t.phase = .suspended) ∧
    ¬ StaleHarmless noDigest safeSettings trace s := by
  obtain ⟨trace, s, traced, second, ready, issued, pending, t, next, suspended⟩ :=
    exists_traced confirming (fun _ _ => True) ⟨firstChannel, rfl⟩ readyOverReady
      (fun trace s => s.generation = 2 ∧ s.phase = .ready ∧ (s.attempts.map fun a => issuedAt a trace) = [some 1] ∧
        s.publishInFlight.length = 1 ∧
        ∃ t, step noDigest safeSettings s staleFailure = some t ∧ t.phase = .suspended) (by decide +kernel)
  refine ⟨trace, s, traced, second, ready, issued, ⟨t, next, suspended⟩, ?_⟩
  intro harmless
  obtain ⟨write, only⟩ := List.length_eq_one_iff.mp pending
  have old : issuedAt write.attempt trace = some 1 := by
    simp only [State.attempts, only, List.map_cons, List.map_nil, List.cons_append] at issued
    exact (List.cons.inj issued).1
  have kept := (harmless write.attempt 1 staleFailure t old (by omega) (by simp [staleFailure, Completes, only])
    next).1
  rw [suspended, ready] at kept
  cases kept

end RabbitRs.Publisher
