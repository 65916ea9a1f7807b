import Mathlib.Data.Int.Order.Basic

/-!
The scaling decision of the worker supervisor (`WorkScalePolicy.php`) over any run of passes. Times
are whole numbers of one unit; what the source computes in floats is exact here.
-/

namespace RabbitRs.Laravel

structure WorkScalePolicy where
  minWorkers : Int
  maxWorkers : Int
  cooldown : Int
  idle : Int

structure ScaleState where
  lastScaleAt : Int := 0
  emptySince : Option Int := none

structure ScaleAction where
  up : Int := 0
  down : Int := 0

/-- The arguments `decide` is called with. -/
structure Pass where
  now : Int
  depth : Int
  live : Int

def ScaleState.read (state : ScaleState) (pass : Pass) : ScaleState :=
  { state with emptySince := if 0 < pass.depth then none else state.emptySince.or (some pass.now) }

namespace WorkScalePolicy

variable (policy : WorkScalePolicy)

def upRatio : Int := 2

def maxShift : Int := 2

def upCount (pass : Pass) : Int :=
  if pass.depth ≤ 0 || policy.maxWorkers ≤ pass.live || pass.depth ≤ pass.live * upRatio then 0
  else min maxShift (policy.maxWorkers - pass.live)

def downCount (pass : Pass) (state : ScaleState) : Int :=
  if 0 < pass.depth || pass.live ≤ policy.minWorkers then 0
  else match state.emptySince with
    | none => 0
    | some since =>
      if pass.now - since < policy.idle then 0 else min maxShift (pass.live - policy.minWorkers)

def decide (pass : Pass) (state : ScaleState) : ScaleAction × ScaleState :=
  let state := state.read pass
  if pass.now - state.lastScaleAt < policy.cooldown then ({}, state)
  else
    let up := policy.upCount pass
    if 0 < up then ({ up }, { state with lastScaleAt := pass.now })
    else
      let down := policy.downCount pass state
      if 0 < down then ({ down }, { state with lastScaleAt := pass.now }) else ({}, state)

/-- The state after the passes, the last one first. -/
def after : List Pass → ScaleState
  | [] => {}
  | pass :: earlier => (policy.decide pass (after earlier)).2

def action (pass : Pass) (earlier : List Pass) : ScaleAction := (policy.decide pass (policy.after earlier)).1

def acts (pass : Pass) (earlier : List Pass) : Prop :=
  0 < (policy.action pass earlier).up ∨ 0 < (policy.action pass earlier).down

/-- The passes end in readings without a message, the first of them at `since`. -/
def EmptyFrom (since : Int) (passes : List Pass) : Prop :=
  ∃ recent first rest, passes = recent ++ first :: rest ∧ first.now = since ∧ ∀ pass ∈ recent ++ [first], pass.depth ≤ 0

variable {policy} {pass : Pass} {earlier : List Pass} {state : ScaleState}

theorem upCount_pos (more : 0 < policy.upCount pass) : policy.upCount pass ≤ maxShift ∧
    pass.live * upRatio < pass.depth ∧ pass.live + policy.upCount pass ≤ policy.maxWorkers := by
  unfold upCount at more ⊢
  split at more
  · cases more
  case isFalse busy =>
    simp only [Bool.or_eq_true, decide_eq_true_eq] at busy
    omega

theorem downCount_pos (fewer : 0 < policy.downCount pass state) : policy.downCount pass state ≤ maxShift ∧
    policy.minWorkers ≤ pass.live - policy.downCount pass state ∧
      ∃ since, state.emptySince = some since ∧ policy.idle ≤ pass.now - since := by
  unfold downCount at fewer ⊢
  split at fewer
  · cases fewer
  · split at fewer
    · cases fewer
    case h_2 since empty =>
      split at fewer
      · cases fewer
      · exact ⟨by omega, by omega, since, empty, by omega⟩

theorem decide_cases (pass : Pass) (state : ScaleState) : policy.decide pass state = ({}, state.read pass) ∨
    policy.cooldown ≤ pass.now - state.lastScaleAt ∧ ∃ action : ScaleAction,
      policy.decide pass state = (action, { state.read pass with lastScaleAt := pass.now }) ∧
      (action = { up := policy.upCount pass } ∧ 0 < policy.upCount pass ∨
        action = { down := policy.downCount pass (state.read pass) } ∧ 0 < policy.downCount pass (state.read pass)) := by
  by_cases early : pass.now - state.lastScaleAt < policy.cooldown
  · exact .inl (if_pos early)
  by_cases more : 0 < policy.upCount pass
  · exact .inr ⟨not_lt.mp early, _, (if_neg early).trans (if_pos more), .inl ⟨rfl, more⟩⟩
  by_cases fewer : 0 < policy.downCount pass (state.read pass)
  · exact .inr ⟨not_lt.mp early, _, (if_neg early).trans ((if_neg more).trans (if_pos fewer)), .inr ⟨rfl, fewer⟩⟩
  · exact .inl ((if_neg early).trans ((if_neg more).trans (if_neg fewer)))

theorem emptyFrom_read (known : ∀ since, state.emptySince = some since → EmptyFrom since earlier) {since : Int}
    (empty : (state.read pass).emptySince = some since) : EmptyFrom since (pass :: earlier) := by
  simp only [ScaleState.read] at empty
  split at empty
  · cases empty
  case isFalse read =>
    rcases Option.or_eq_some_iff.mp empty with before | ⟨-, now⟩
    · obtain ⟨recent, first, rest, rfl, start, empty⟩ := known since before
      exact ⟨pass :: recent, first, rest, rfl, start, List.forall_mem_cons.mpr ⟨not_lt.mp read, empty⟩⟩
    · cases now
      exact ⟨[], pass, earlier, rfl, rfl, by simpa using read⟩

theorem emptyFrom_after (passes : List Pass) (since : Int) (empty : (policy.after passes).emptySince = some since) :
    EmptyFrom since passes := by
  induction passes generalizing since with
  | nil => cases empty
  | cons pass earlier ih =>
    apply emptyFrom_read ih
    rw [← empty]
    show _ = (policy.decide pass (policy.after earlier)).2.emptySince
    rcases @decide_cases policy pass (policy.after earlier) with same | ⟨-, action, same, -⟩ <;> rw [same]

theorem acted_by_last {passes : List Pass} (ordered : passes.Pairwise fun later earlier => earlier.now ≤ later.now)
    (ended : pass :: earlier <:+ passes) (acted : policy.acts pass earlier) :
    pass.now ≤ (policy.after passes).lastScaleAt := by
  induction passes with
  | nil => simp at ended
  | cons latest before ih =>
    obtain ⟨later, ordered⟩ := List.pairwise_cons.mp ordered
    show pass.now ≤ (policy.decide latest (policy.after before)).2.lastScaleAt
    rcases @decide_cases policy latest (policy.after before) with same | ⟨-, action, same, -⟩
    all_goals rcases List.suffix_cons_iff.mp ended with now | ended
    · cases now
      simp [acts, WorkScalePolicy.action, same] at acted
    · rw [same]
      exact ih ordered ended
    · cases now
      rw [same]
    · rw [same]
      exact later pass (ended.subset List.mem_cons_self)

/-- On a clock that does not go back: children are added by twos at most, only for a queue deeper than
twice the fleet and up to the maximum; they are released by twos at most, only after an idle window
of empty readings and down to the minimum; and two actions are a cooldown apart. -/
theorem scaled_with_hysteresis
    (ordered : (pass :: earlier).Pairwise fun later earlier => earlier.now ≤ later.now) :
    let action := policy.action pass earlier
    (0 < action.up → action.down = 0 ∧ action.up ≤ maxShift ∧ pass.live * upRatio < pass.depth ∧
      pass.live + action.up ≤ policy.maxWorkers) ∧
    (0 < action.down → action.up = 0 ∧ action.down ≤ maxShift ∧ policy.minWorkers ≤ pass.live - action.down ∧
      ∃ since, EmptyFrom since (pass :: earlier) ∧ policy.idle ≤ pass.now - since) ∧
    (policy.acts pass earlier → ∀ other before, other :: before <:+ earlier → policy.acts other before →
      policy.cooldown ≤ pass.now - other.now) := by
  unfold acts action
  rcases @decide_cases policy pass (policy.after earlier) with same | ⟨cool, action, same, shift⟩
  · simp [same]
  rw [same]
  refine ⟨fun more => ?_, fun fewer => ?_, fun _ other before ended acted => ?_⟩
  · rcases shift with ⟨rfl, more⟩ | ⟨rfl, -⟩
    · exact ⟨rfl, upCount_pos more⟩
    · cases more
  · rcases shift with ⟨rfl, -⟩ | ⟨rfl, fewer⟩
    · cases fewer
    · obtain ⟨few, least, since, empty, idle⟩ := downCount_pos fewer
      exact ⟨rfl, few, least, since, emptyFrom_read (emptyFrom_after earlier) empty, idle⟩
  · have last := acted_by_last (List.pairwise_cons.mp ordered).2 ended acted
    omega

/-- A fleet of four gives up two children a minute after its queue was first read empty. -/
theorem idle_fleet_released : let policy : WorkScalePolicy := ⟨1, 5, 30, 60⟩
    let earlier : List Pass := [⟨1050, 0, 4⟩, ⟨1000, 0, 4⟩, ⟨990, 9, 2⟩]
    (policy.action ⟨1060, 0, 4⟩ earlier).down = 2 ∧ policy.acts ⟨990, 9, 2⟩ [] ∧ policy.cooldown ≤ 1060 - 990 := by
  intro policy earlier
  have grown : policy.acts ⟨990, 9, 2⟩ [] := .inl (by decide)
  have hysteresis := @scaled_with_hysteresis policy ⟨1060, 0, 4⟩ earlier (by simp [earlier])
  exact ⟨by decide, grown, hysteresis.2.2 (.inr (by decide)) _ _ ⟨[⟨1050, 0, 4⟩, ⟨1000, 0, 4⟩], rfl⟩ grown⟩

end WorkScalePolicy

end RabbitRs.Laravel
