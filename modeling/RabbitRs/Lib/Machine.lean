import Mathlib.Data.Option.Basic

/-!
Step machines: a partial step function on states, driven by events the environment chooses. A step
that is not enabled returns `none`.
-/

namespace StepMachine

universe u v

variable {State : Type u} {Event : Type v}

structure Machine (State : Type u) (Event : Type v) where
  Initial : State → Prop
  step : State → Event → Option State

variable {m : Machine State Event} {Allowed Weaker : State → Event → Prop}

/-- States reached from an initial one through steps that all meet `Allowed` in the state
they are taken from. -/
inductive Reaches (m : Machine State Event) (Allowed : State → Event → Prop) : State → Prop where
  | start {s : State} : m.Initial s → Reaches m Allowed s
  | next {s t : State} {e : Event} :
      Reaches m Allowed s → Allowed s e → m.step s e = some t → Reaches m Allowed t

def Reachable (m : Machine State Event) : State → Prop := Reaches m fun _ _ => True

/-- What every step does to a property once `known` has been established along the run. -/
def Preserves (m : Machine State Event) (Allowed : State → Event → Prop)
    (known property : State → Prop) : Prop :=
  ∀ {s t : State} {e : Event}, known s → property s → Allowed s e → m.step s e = some t → property t

theorem Reaches.mono {s : State} (weaken : ∀ s e, Allowed s e → Weaker s e)
    (reached : Reaches m Allowed s) : Reaches m Weaker s := by
  induction reached with
  | start initial => exact .start initial
  | next _ allowed step ih => exact .next ih (weaken _ _ allowed) step

theorem Reaches.reachable {s : State} (reached : Reaches m Allowed s) : Reachable m s :=
  reached.mono fun _ _ _ => trivial

theorem Reachable.next {s t : State} {e : Event} (reached : Reachable m s)
    (step : m.step s e = some t) : Reachable m t :=
  Reaches.next reached trivial step

/-- The run induction: an invariant may rely on one established before it. -/
theorem Reaches.invariant_of {known property : State → Prop} {s : State}
    (established : ∀ s, Reaches m Allowed s → known s)
    (initial : ∀ s, m.Initial s → property s)
    (preserved : Preserves m Allowed known property)
    (reached : Reaches m Allowed s) : property s := by
  induction reached with
  | start start => exact initial _ start
  | next before allowed step ih => exact preserved (established _ before) ih allowed step

theorem Reaches.invariant {property : State → Prop} {s : State}
    (initial : ∀ s, m.Initial s → property s)
    (preserved : Preserves m Allowed (fun _ => True) property)
    (reached : Reaches m Allowed s) : property s :=
  reached.invariant_of (fun _ _ => trivial) initial preserved

/-- Takes the events in order and stops at the first that is not enabled or not allowed. -/
def run (m : Machine State Event) (allowed : State → Event → Bool) : State → List Event → Option State
  | s, [] => some s
  | s, e :: rest => if allowed s e then (m.step s e).bind fun t => run m allowed t rest else none

theorem run_cons {s t u : State} {e : Event} {rest : List Event} (step : m.step s e = some t)
    (later : run m (fun _ _ => true) t rest = some u) :
    run m (fun _ _ => true) s (e :: rest) = some u := by
  rw [run, if_pos rfl, step]
  exact later

theorem reaches_of_run {allowed : State → Event → Bool}
    (sound : ∀ s e, allowed s e = true → Allowed s e) {s t : State} {events : List Event}
    (reached : Reaches m Allowed s) (ran : run m allowed s events = some t) :
    Reaches m Allowed t := by
  induction events generalizing s with
  | nil =>
    cases ran
    exact reached
  | cons e rest ih =>
    unfold run at ran
    split at ran
    · obtain ⟨middle, step, later⟩ := Option.bind_eq_some_iff.mp ran
      exact ih (reached.next (sound _ _ ‹_›) step) later
    · cases ran

theorem exists_of_run {allowed : State → Event → Bool}
    (sound : ∀ s e, allowed s e = true → Allowed s e) {s : State} {events : List Event}
    {property : State → Bool} (initial : m.Initial s)
    (ran : (run m allowed s events).any property = true) :
    ∃ t, Reaches m Allowed t ∧ property t = true := by
  obtain ⟨t, found, holds⟩ := (Option.any_eq_true _ _).mp ran
  exact ⟨t, reaches_of_run sound (.start initial) found, holds⟩

section
variable (m Allowed)

theorem exists_reached [∀ s e, Decidable (Allowed s e)] {s : State} (initial : m.Initial s)
    (events : List Event) (property : State → Prop) [DecidablePred property]
    (ran : (run m (fun s e => decide (Allowed s e)) s events).any (fun t => decide (property t)) = true) :
    ∃ t, Reaches m Allowed t ∧ property t := by
  obtain ⟨t, reached, holds⟩ := exists_of_run (fun _ _ allowed => of_decide_eq_true allowed) initial ran
  exact ⟨t, reached, of_decide_eq_true holds⟩

theorem exists_reachable {s : State} (initial : m.Initial s) (events : List Event) (property : State → Prop)
    [DecidablePred property]
    (ran : (run m (fun _ _ => true) s events).any (fun t => decide (property t)) = true) :
    ∃ t, Reachable m t ∧ property t := by
  obtain ⟨t, reached, holds⟩ := exists_of_run (fun _ _ _ => trivial) initial ran
  exact ⟨t, reached, of_decide_eq_true holds⟩

end

/-- A run with the steps it took, the last first: the state each was taken from, and its event. -/
inductive Traced (m : Machine State Event) (Allowed : State → Event → Prop) :
    List (State × Event) → State → Prop where
  | start {s : State} : m.Initial s → Traced m Allowed [] s
  | next {trace : List (State × Event)} {s t : State} {e : Event} :
      Traced m Allowed trace s → Allowed s e → m.step s e = some t → Traced m Allowed ((s, e) :: trace) t

theorem Traced.reaches {trace : List (State × Event)} {s : State} (traced : Traced m Allowed trace s) :
    Reaches m Allowed s := by
  induction traced with
  | start initial => exact .start initial
  | next _ allowed step ih => exact ih.next allowed step

def trace (m : Machine State Event) (allowed : State → Event → Bool) :
    List (State × Event) → State → List Event → Option (List (State × Event) × State)
  | before, s, [] => some (before, s)
  | before, s, e :: rest =>
    if allowed s e then (m.step s e).bind fun t => trace m allowed ((s, e) :: before) t rest else none

theorem traced_of_trace {allowed : State → Event → Bool}
    (sound : ∀ s e, allowed s e = true → Allowed s e) {before after : List (State × Event)}
    {s t : State} {events : List Event} (traced : Traced m Allowed before s)
    (ran : trace m allowed before s events = some (after, t)) : Traced m Allowed after t := by
  induction events generalizing before s with
  | nil =>
    cases ran
    exact traced
  | cons e rest ih =>
    unfold trace at ran
    split at ran
    · obtain ⟨middle, step, later⟩ := Option.bind_eq_some_iff.mp ran
      exact ih (traced.next (sound _ _ ‹_›) step) later
    · cases ran

theorem exists_of_trace {allowed : State → Event → Bool}
    (sound : ∀ s e, allowed s e = true → Allowed s e) {s : State} {events : List Event}
    {property : List (State × Event) × State → Bool} (initial : m.Initial s)
    (ran : (trace m allowed [] s events).any property = true) :
    ∃ after t, Traced m Allowed after t ∧ property (after, t) = true := by
  obtain ⟨⟨after, t⟩, found, holds⟩ := (Option.any_eq_true _ _).mp ran
  exact ⟨after, t, traced_of_trace sound (.start initial) found, holds⟩

section
variable (m Allowed)

theorem exists_traced [∀ s e, Decidable (Allowed s e)] {s : State} (initial : m.Initial s)
    (events : List Event) (property : List (State × Event) → State → Prop)
    [∀ before t, Decidable (property before t)]
    (ran : (trace m (fun s e => decide (Allowed s e)) [] s events).any
      (fun p => decide (property p.1 p.2)) = true) :
    ∃ before t, Traced m Allowed before t ∧ property before t := by
  obtain ⟨before, t, traced, holds⟩ :=
    exists_of_trace (fun _ _ allowed => of_decide_eq_true allowed) initial ran
  exact ⟨before, t, traced, of_decide_eq_true holds⟩

end

end StepMachine
