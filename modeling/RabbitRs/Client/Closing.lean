import RabbitRs.Client.Turns

/-!
`ClientPool::close` beside acquisitions. An acquisition creates its resource first and commits it
afterwards, under the lock of the lifecycle; what it is refused it closes itself.
-/

namespace RabbitRs.Client

open StepMachine

variable {plan : Plan} {s t : State} {e : Event}

/-- One task at a time initializes a broker, and it commits into a free place. -/
structure Exclusive (s : State) : Prop where
  alone : ∀ (i j : Nat) (a b : Stage) (broker : String), s.tasks[i]? = some a → s.tasks[j]? = some b →
    a.initializes = some broker → b.initializes = some broker → i = j
  vacant : ∀ (i : Nat) (errand : Errand) (broker : String) (id : Nat),
    s.tasks[i]? = some (.commitCoordinator errand broker id) → s.registered.lookup broker = none

theorem Stage.plain_initializes {stage : Stage} (plain : stage.plain = true) : stage.initializes = none := by
  cases stage
  case check errand broker again =>
    cases again
    · rfl
    · cases plain
  case commitCoordinator | refusedCoordinator | created => cases plain
  all_goals rfl

theorem Exclusive.same (exclusive : Exclusive s) (tasks : t.tasks = s.tasks)
    (registered : ∀ broker, s.registered.lookup broker = none → t.registered.lookup broker = none) :
    Exclusive t := by
  refine ⟨?_, ?_⟩
  · rw [tasks]
    exact exclusive.alone
  · rw [tasks]
    exact fun i errand broker id found => registered broker (exclusive.vacant i errand broker id found)

theorem Exclusive.start (exclusive : Exclusive s) {stage : Stage} (plain : stage.plain = true) :
    Exclusive (s.start stage) := by
  have old : ∀ (i : Nat) (a : Stage), (s.start stage).tasks[i]? = some a → a.initializes ≠ none →
      s.tasks[i]? = some a := by
    intro i a found holds
    rcases Slots.concat_cases found with before | ⟨-, rfl⟩
    · exact before
    · exact absurd (Stage.plain_initializes plain) holds
  refine ⟨fun i j a b broker first second holds also => ?_, fun i errand broker id found => ?_⟩
  · exact exclusive.alone i j a b broker (old i a first (by simp [holds])) (old j b second (by simp [also])) holds also
  · exact exclusive.vacant i errand broker id (old i _ found (by simp [Stage.initializes]))

theorem Exclusive.move (exclusive : Exclusive s) {i : Nat} {a b : Stage} (found : s.tasks[i]? = some a)
    (holds : ∀ broker, b.initializes = some broker →
      a.initializes = some broker ∨ s.free (.coordinator broker) = true)
    (vacant : ∀ errand broker id, b = .commitCoordinator errand broker id → s.registered.lookup broker = none) :
    Exclusive (s.move i b) := by
  -- whoever else holds it held it before
  have clash : ∀ (j : Nat) (c : Stage) (broker : String), j ≠ i → s.tasks[j]? = some c →
      b.initializes = some broker → c.initializes = some broker → False := by
    intro j c broker other there mine theirs
    rcases holds broker mine with before | free
    · exact other (exclusive.alone j i c a broker there found theirs before)
    · have idle := List.all_eq_true.mp free c (List.mem_of_getElem? there)
      rw [Bool.not_eq_true', ← Bool.not_eq_true, List.contains_iff_mem] at idle
      exact idle (Stage.holds_iff.mpr theirs)
  refine ⟨fun j k c d broker first second held also => ?_, fun j errand broker id there => ?_⟩
  · rcases Slots.set_cases first with ⟨rfl, rfl⟩ | ⟨other, there⟩
    · rcases Slots.set_cases second with ⟨rfl, rfl⟩ | ⟨another, here⟩
      · rfl
      · exact (clash k d broker another here held also).elim
    · rcases Slots.set_cases second with ⟨rfl, rfl⟩ | ⟨-, here⟩
      · exact (clash j c broker other there also held).elim
      · exact exclusive.alone j k c d broker there here held also
  · rcases Slots.set_cases there with ⟨-, rfl⟩ | ⟨-, there⟩
    · exact vacant errand broker id rfl
    · exact exclusive.vacant j errand broker id there

theorem Exclusive.apply (exclusive : Exclusive s) {effect : Effect}
    (other : effect.registers = false) : Exclusive (s.apply effect) :=
  exclusive.same (apply_framed effect).tasks fun _ none => by
    rw [apply_registered other]
    exact none

theorem Exclusive.leave (exclusive : Exclusive s) {i : Nat} {a b : Stage} {effect : Effect}
    (found : s.tasks[i]? = some a) (plain : b.plain = true) (other : effect.registers = false) :
    Exclusive ((s.apply effect).move i b) := by
  have none := Stage.plain_initializes plain
  refine (exclusive.apply other).move ((apply_framed effect).task found) ?_ ?_
  · intro broker holds
    rw [none] at holds
    cases holds
  · rintro errand broker id rfl
    cases none

theorem Exclusive.register (exclusive : Exclusive s) {i id : Nat} {errand : Errand} {broker : String} {b : Stage}
    (found : s.tasks[i]? = some (.commitCoordinator errand broker id)) (plain : b.plain = true) :
    Exclusive ((s.apply (.register broker id)).move i b) := by
  have moved : Exclusive (s.move i b) := @Exclusive.leave s exclusive i _ b .quiet found plain rfl
  refine ⟨moved.alone, fun j errand' broker' id' there => ?_⟩
  rcases Slots.set_cases there with ⟨-, rfl⟩ | ⟨other, before⟩
  · cases plain
  have apart : broker' ≠ broker := by
    rintro rfl
    exact other (exclusive.alone j i _ _ broker' before found rfl rfl)
  exact (AList.lookup_insert_ne apart).trans (exclusive.vacant j errand' broker' id' before)

theorem Exclusive.moves (exclusive : Exclusive s) {i : Nat} {a b : Stage} {effect : Effect}
    (found : s.tasks[i]? = some a) (moves : Moves plan s a b effect) : Exclusive ((s.apply effect).move i b) := by
  cases moves with
  | plain _ after mild _ | unlock after mild _ => exact exclusive.leave found after (Effect.registers_of_mild mild)
  | lock free =>
    refine exclusive.move found ?_ nofun
    intro broker holds
    cases holds
    exact .inr free
  | @spawn errand broker vacant =>
    refine (exclusive.apply rfl).move (a := .check errand broker true) found ?_ ?_
    · exact fun _ holds => .inl holds
    · intro _ _ _ same
      cases same
      exact vacant
  | register _ => exact exclusive.register found (gotCoordinator_plain _ _)
  | @dismiss errand broker id _ =>
    refine (exclusive.apply rfl).move (a := .commitCoordinator errand broker id) found ?_ nofun
    exact fun _ holds => .inl holds
  | ended _ _ | insert _ => exact exclusive.leave found rfl rfl
  | create =>
    refine (exclusive.apply rfl).move found ?_ nofun
    exact fun _ holds => nomatch holds

theorem GivesUp.registers {a : Stage} {effect : Effect} (gives : GivesUp a effect) : effect.registers = false := by
  cases gives with
  | plain _ mild _ => exact Effect.registers_of_mild mild
  | unregistered | unclosed _ => rfl

theorem Exclusive.turns (exclusive : Exclusive s) (turns : Turns plan s t) : Exclusive t := by
  cases turns
  case start stage plain => exact exclusive.start plain
  case move i a b effect found moves => exact exclusive.moves found moves
  case giveUp i a effect found gives => exact exclusive.leave found rfl gives.registers
  case glide k before after u found glides mild _ =>
    exact exclusive.same mild.tasks fun _ none => mild.registered ▸ none
  case take => exact exclusive.same rfl fun _ _ => rfl
  case restore id generation profile coordinator found =>
    exact exclusive.same (insertSet_framed _ _ _).tasks fun _ none => by
      rw [insertSet_registered]
      exact none
  case mild mild _ => exact exclusive.same mild.tasks fun _ none => mild.registered ▸ none
  all_goals exact exclusive.same rfl fun _ none => none

theorem Moves.opened {a b : Stage} {effect : Effect} (moves : Moves plan s a b effect)
    (commits : effect.commits = true) : s.lifecycle = .opened := by
  cases moves with
  | plain _ _ _ opened => exact opened commits
  | unlock _ _ none =>
    rw [none] at commits
    cases commits
  | register opened => exact opened
  | lock _ | spawn _ | dismiss _ | ended _ _ | create | insert _ => cases commits

theorem GivesUp.commits {a : Stage} {effect : Effect} (gives : GivesUp a effect) : effect.commits = false := by
  cases gives with
  | plain _ _ none => exact none
  | unregistered | unclosed _ => rfl

/-- Once `close` has begun, nothing new is registered. -/
theorem Turns.shrinks (begun : s.lifecycle ≠ .opened) (turns : Turns plan s t) :
    t.lifecycle ≠ .opened ∧ Shrinks s t := by
  cases turns
  case move i a b effect found moves =>
    have commits : effect.commits = false := by
      rw [← Bool.not_eq_true]
      exact fun commits => begun (moves.opened commits)
    exact ⟨(apply_framed effect).begun begun, { apply_shrinks commits with }⟩
  case giveUp i a effect found gives =>
    exact ⟨(apply_framed effect).begun begun, { apply_shrinks gives.commits with }⟩
  case begin k found opened => exact absurd opened begun
  case glide k before after u found glides mild shrinks =>
    exact ⟨mild.lifecycle ▸ begun, { shrinks with }⟩
  case take k found => exact ⟨begun, { Shrinks.refl s with registered := nofun }⟩
  case finish k found => exact ⟨nofun, { Shrinks.refl s with }⟩
  case restore id generation profile coordinator found =>
    exact ⟨(insertSet_framed id profile _).begun begun, { insertSet_shrinks id profile _ with }⟩
  case mild mild shrinks => exact ⟨mild.lifecycle ▸ begun, shrinks⟩
  all_goals exact ⟨begun, { Shrinks.refl s with }⟩

theorem Closing.active_of_swept {closing : Closing} (swept : closing.swept = true) : closing.active = true := by
  cases closing
  case begin | takeConsumers | consumers | takeCoordinators | done => cases swept
  all_goals rfl

/-- From the sweep of the coordinators on, none is registered. -/
structure Swept (s : State) : Prop where
  closing : s.lifecycle = .closing → ∃ closing ∈ s.closers, closing.active = true
  closed : s.lifecycle = .closed → s.registered = ∅
  begun : ∀ closing ∈ s.closers, closing.active = true → s.lifecycle ≠ .opened
  swept : ∀ closing ∈ s.closers, closing.swept = true → s.registered = ∅

theorem Swept.same (swept : Swept s) (lifecycle : t.lifecycle = s.lifecycle) (closers : t.closers = s.closers)
    (registered : t.registered = s.registered) : Swept t :=
  ⟨lifecycle ▸ closers ▸ swept.closing, lifecycle ▸ registered ▸ swept.closed,
    lifecycle ▸ closers ▸ swept.begun, registered ▸ closers ▸ swept.swept⟩

theorem Swept.set (swept : Swept s) {k : Nat} {before after : Closing} (found : s.closers[k]? = some before)
    (active : before.active = true → after.active = true) (begun : after.active = true → before.active = true)
    (still : after.swept = true → before.swept = true) :
    Swept { s with closers := s.closers.set k after } := by
  have member := List.mem_of_getElem? found
  refine ⟨fun closing => Tally.exists_set after found active (swept.closing closing), swept.closed, ?_, ?_⟩
  · intro closing there busy
    rcases List.mem_or_eq_of_mem_set there with old | rfl
    · exact swept.begun closing old busy
    · exact swept.begun before member (begun busy)
  · intro closing there past
    rcases List.mem_or_eq_of_mem_set there with old | rfl
    · exact swept.swept closing old past
    · exact swept.swept before member (still past)

theorem Swept.opened (swept : Swept s) (opened : s.lifecycle = .opened) :
    ∀ closing ∈ s.closers, closing.active ≠ true := fun closing member active =>
  swept.begun closing member active opened

theorem Swept.moves (swept : Swept s) {i : Nat} {a b : Stage} {effect : Effect} (moves : Moves plan s a b effect) :
    Swept ((s.apply effect).move i b) := by
  have framed := @apply_framed s effect
  by_cases registers : effect.registers = true
  · -- the pool is open and nobody closes it
    have opened : s.lifecycle = .opened := moves.opened (by cases effect <;> first | rfl | cases registers)
    have nobody := swept.opened opened
    refine ⟨?_, ?_, ?_, ?_⟩
    · intro closing
      exact absurd (framed.lifecycle.symm.trans closing) (by rw [opened]; nofun)
    · intro closed
      exact absurd (framed.lifecycle.symm.trans closed) (by rw [opened]; nofun)
    · exact fun closing member active => absurd active (nobody closing (framed.closers ▸ member))
    · exact fun closing member past =>
        absurd (Closing.active_of_swept past) (nobody closing (framed.closers ▸ member))
  · rw [Bool.not_eq_true] at registers
    exact swept.same framed.lifecycle framed.closers (apply_registered registers)

theorem Swept.turns (swept : Swept s) (turns : Turns plan s t) : Swept t := by
  cases turns
  case call =>
    refine ⟨fun closing => ?_, swept.closed, ?_, ?_⟩
    · obtain ⟨call, member, active⟩ := swept.closing closing
      exact ⟨call, List.mem_append_left _ member, active⟩
    · intro closing member active
      rcases List.mem_append.mp member with old | new
      · exact swept.begun closing old active
      · rw [List.mem_singleton.mp new] at active
        cases active
    · intro closing member past
      rcases List.mem_append.mp member with old | new
      · exact swept.swept closing old past
      · rw [List.mem_singleton.mp new] at past
        cases past
  case move i a b effect found moves => exact swept.moves moves
  case giveUp i a effect found gives =>
    have framed := @apply_framed s effect
    exact swept.same framed.lifecycle framed.closers (apply_registered gives.registers)
  case begin k found opened =>
    refine ⟨fun _ => ⟨.takeConsumers, Tally.mem_set_self _ found, rfl⟩, nofun, fun _ _ _ => nofun, ?_⟩
    intro closing member past
    rcases List.mem_or_eq_of_mem_set member with old | rfl
    · exact swept.swept closing old past
    · cases past
  case glide k before after u found glides mild shrinks =>
    have same : Swept u := swept.same mild.lifecycle mild.closers mild.registered
    have found : u.closers[k]? = some before := mild.closers ▸ found
    have moved := same.set found glides.active glides.begun glides.swept
    rw [mild.closers] at moved
    exact moved
  case take k found =>
    have busy := swept.begun _ (List.mem_of_getElem? found) rfl
    refine ⟨fun closing => ⟨_, Tally.mem_set_self _ found, rfl⟩, fun _ => rfl, fun _ _ _ => busy, fun _ _ _ => rfl⟩
  case skip k id rest coordinator found known told | ended k id rest coordinator found known closed =>
    exact swept.set found (fun _ => rfl) (fun _ => rfl) (fun _ => rfl)
  case tell k id rest coordinator found known =>
    have moved : Swept { s with closers := s.closers.set k (.awaiting id rest) } :=
      swept.set found (fun _ => rfl) (fun _ => rfl) (fun _ => rfl)
    exact moved.same rfl rfl rfl
  case finish k found =>
    have empty := swept.swept _ (List.mem_of_getElem? found) rfl
    exact ⟨nofun, fun _ => empty, fun _ _ _ => nofun, fun _ _ _ => empty⟩
  case restore id generation profile coordinator found =>
    have framed := @insertSet_framed { s with sets := s.sets ++ [generation] } id profile s.sets.length
    exact swept.same framed.lifecycle framed.closers (insertSet_registered _ _ _)
  case mild mild _ => exact swept.same mild.lifecycle mild.closers mild.registered
  all_goals exact swept.same rfl rfl rfl

/-- Somebody will still close this coordinator. -/
def Owned (s : State) (id : Nat) : Prop :=
  id ∈ Keyed.values s.registered ∨ (∃ closing ∈ s.closers, id ∈ closing.pending) ∨
    ∃ stage ∈ s.tasks, stage.committing = some id

/-- Somebody waits for this coordinator to end, or was abandoned while waiting. -/
def Shutting (s : State) (id : Nat) : Prop :=
  (∃ closing ∈ s.closers, closing.awaits = some id) ∨ (∃ stage ∈ s.tasks, stage.refused = some id) ∨
    id ∈ s.abandoned

/-- No coordinator is lost: a running one is owned, one told to stop is awaited. -/
structure Watched (s : State) : Prop where
  owned : ∀ {id : Nat} {coordinator : Coordinator}, s.coordinators[id]? = some coordinator →
    coordinator.phase = .running → Owned s id
  shutting : ∀ {id : Nat} {coordinator : Coordinator}, s.coordinators[id]? = some coordinator →
    coordinator.phase ≠ .running → coordinator.phase ≠ .closed → Shutting s id

theorem owned_move {i id : Nat} {a : Stage} (b : Stage) (found : s.tasks[i]? = some a) (owned : Owned s id) :
    a.committing = some id ∨ Owned (s.move i b) id := by
  rcases owned with registered | pending | committing
  · exact .inr (.inl registered)
  · exact .inr (.inr (.inl pending))
  · rcases Tally.exists_set_or b found committing with mine | other
    · exact .inl mine
    · exact .inr (.inr (.inr other))

theorem shutting_move {i id : Nat} {a : Stage} (b : Stage) (found : s.tasks[i]? = some a) (shutting : Shutting s id) :
    a.refused = some id ∨ Shutting (s.move i b) id := by
  rcases shutting with awaited | refused | abandoned
  · exact .inr (.inl awaited)
  · rcases Tally.exists_set_or b found refused with mine | other
    · exact .inl mine
    · exact .inr (.inr (.inl other))
  · exact .inr (.inr (.inr abandoned))

theorem owned_set {k id : Nat} {before : Closing} (after : Closing) (found : s.closers[k]? = some before)
    (owned : Owned s id) : id ∈ before.pending ∨ Owned { s with closers := s.closers.set k after } id := by
  rcases owned with registered | pending | committing
  · exact .inr (.inl registered)
  · rcases Tally.exists_set_or after found pending with mine | other
    · exact .inl mine
    · exact .inr (.inr (.inl other))
  · exact .inr (.inr (.inr committing))

theorem shutting_set {k id : Nat} {before : Closing} (after : Closing) (found : s.closers[k]? = some before)
    (shutting : Shutting s id) :
    before.awaits = some id ∨ Shutting { s with closers := s.closers.set k after } id := by
  rcases shutting with awaited | refused | abandoned
  · rcases Tally.exists_set_or after found awaited with mine | other
    · exact .inl mine
    · exact .inr (.inl other)
  · exact .inr (.inr (.inl refused))
  · exact .inr (.inr (.inr abandoned))

namespace Watched

variable (watched : Watched s)

include watched

theorem same (coordinators : t.coordinators = s.coordinators) (registered : t.registered = s.registered)
    (closers : t.closers = s.closers) (tasks : t.tasks = s.tasks) (abandoned : t.abandoned = s.abandoned) :
    Watched t := by
  refine ⟨fun known running => ?_, fun known told open_ => ?_⟩
  · unfold Owned
    rw [registered, closers, tasks]
    exact watched.owned (coordinators ▸ known) running
  · unfold Shutting
    rw [abandoned, closers, tasks]
    exact watched.shutting (coordinators ▸ known) told open_

theorem mild (mild : Mild s t) : Watched t :=
  watched.same mild.coordinators mild.registered mild.closers mild.tasks mild.abandoned

theorem change {id : Nat} {f : Coordinator → Coordinator}
    (phase : ∀ coordinator, s.coordinators[id]? = some coordinator → (f coordinator).phase = coordinator.phase ∨
      coordinator.phase ≠ .running ∧ coordinator.phase ≠ .closed ∧ (f coordinator).phase ≠ .running) :
    Watched (s.change id f) := by
  refine ⟨fun known running => ?_, fun known told open_ => ?_⟩
  · rcases Slots.modify_cases known with ⟨rfl, old, before, rfl⟩ | ⟨-, before⟩
    · rcases phase old before with kept | ⟨-, -, told⟩
      · exact watched.owned before (kept ▸ running)
      · exact absurd running told
    · exact watched.owned before running
  · rcases Slots.modify_cases known with ⟨rfl, old, before, rfl⟩ | ⟨-, before⟩
    · rcases phase old before with kept | ⟨told, open_, -⟩
      · exact watched.shutting before (kept ▸ told) (kept ▸ open_)
      · exact watched.shutting before told open_
    · exact watched.shutting before told open_

theorem keep {id : Nat} {f : Coordinator → Coordinator} (phase : ∀ coordinator, (f coordinator).phase = coordinator.phase) :
    Watched (s.change id f) :=
  watched.change fun coordinator _ => .inl (phase coordinator)

theorem insertSet (id : Nat) (profile : String) (set : Nat) : Watched (s.insertSet id profile set) := by
  unfold State.insertSet
  split
  · exact watched
  · refine Watched.mild ?_ (mild_closeSets _)
    exact watched.keep fun _ => rfl

theorem move {i : Nat} {a b : Stage} (found : s.tasks[i]? = some a)
    (owned : ∀ id coordinator, s.coordinators[id]? = some coordinator → coordinator.phase = .running →
      a.committing = some id → Owned (s.move i b) id)
    (shutting : ∀ id coordinator, s.coordinators[id]? = some coordinator → coordinator.phase ≠ .closed →
      a.refused = some id → Shutting (s.move i b) id) : Watched (s.move i b) := by
  refine ⟨fun known running => ?_, fun known told open_ => ?_⟩
  · rcases owned_move b found (watched.owned known running) with mine | kept
    · exact owned _ _ known running mine
    · exact kept
  · rcases shutting_move b found (watched.shutting known told open_) with mine | kept
    · exact shutting _ _ known open_ mine
    · exact kept

theorem moveIdle {i : Nat} {a b : Stage} (found : s.tasks[i]? = some a) (commits : a.committing = none)
    (waits : a.refused = none) : Watched (s.move i b) := by
  refine watched.move found ?_ ?_
  · intro _ _ _ _ mine
    rw [commits] at mine
    cases mine
  · intro _ _ _ _ mine
    rw [waits] at mine
    cases mine

theorem set {k : Nat} {before after : Closing} (found : s.closers[k]? = some before)
    (owned : ∀ id coordinator, s.coordinators[id]? = some coordinator → coordinator.phase = .running →
      id ∈ before.pending → Owned { s with closers := s.closers.set k after } id)
    (shutting : ∀ id coordinator, s.coordinators[id]? = some coordinator → coordinator.phase ≠ .closed →
      before.awaits = some id → Shutting { s with closers := s.closers.set k after } id) :
    Watched { s with closers := s.closers.set k after } := by
  refine ⟨fun known running => ?_, fun known told open_ => ?_⟩
  · rcases owned_set after found (watched.owned known running) with mine | kept
    · exact owned _ _ known running mine
    · exact kept
  · rcases shutting_set after found (watched.shutting known told open_) with mine | kept
    · exact shutting _ _ known open_ mine
    · exact kept

end Watched

theorem watched_dismiss {id : Nat}
    (owned : ∀ other coordinator, other ≠ id → s.coordinators[other]? = some coordinator →
      coordinator.phase = .running → Owned s other)
    (shutting : ∀ other coordinator, other ≠ id → s.coordinators[other]? = some coordinator →
      coordinator.phase ≠ .running → coordinator.phase ≠ .closed → Shutting s other)
    (mine : Shutting s id) : Watched (s.apply (.dismiss id)) := by
  refine ⟨fun known running => ?_, fun known told open_ => ?_⟩
  · rcases Slots.modify_cases known with ⟨rfl, old, before, rfl⟩ | ⟨other, before⟩
    · have told : old.phase.told ≠ .running := by cases old.phase <;> nofun
      exact absurd running told
    · exact owned _ _ other before running
  · rcases Slots.modify_cases known with ⟨rfl, old, before, rfl⟩ | ⟨other, before⟩
    · exact mine
    · exact shutting _ _ other before told open_

theorem Stage.plain_committing {stage : Stage} (plain : stage.plain = true) :
    stage.committing = none ∧ stage.refused = none := by
  cases stage
  case commitCoordinator | refusedCoordinator => cases plain
  all_goals exact ⟨rfl, rfl⟩

namespace Watched

variable (watched : Watched s)

include watched

theorem spawn {broker : String} (mine : ∃ stage ∈ s.tasks, stage.committing = some s.coordinators.length) :
    Watched (s.apply (.spawn broker)) := by
  refine ⟨fun known running => ?_, fun known told open_ => ?_⟩
  · rcases Slots.concat_cases known with before | ⟨rfl, rfl⟩
    · exact watched.owned before running
    · exact .inr (.inr mine)
  · rcases Slots.concat_cases known with before | ⟨rfl, rfl⟩
    · exact watched.shutting before told open_
    · exact absurd rfl told

theorem register {i id : Nat} {errand : Errand} {broker : String} {b : Stage}
    (found : s.tasks[i]? = some (.commitCoordinator errand broker id)) (vacant : s.registered.lookup broker = none) :
    Watched ((s.apply (.register broker id)).move i b) := by
  have entered : Watched (s.apply (.register broker id)) := by
    refine ⟨fun known running => ?_, fun known => watched.shutting known⟩
    rcases watched.owned known running with registered | other
    · rcases @Keyed.mem_insert_or _ _ _ _ broker id _ registered with displaced | kept
      · rw [vacant] at displaced
        cases displaced
      · exact .inl kept
    · exact .inr other
  refine entered.move (a := .commitCoordinator errand broker id) found ?_ nofun
  intro _ _ _ _ mine
  cases mine
  exact .inl (Keyed.mem_insert_self _ _ _)

theorem dismiss {i id : Nat} {errand : Errand} {broker : String}
    (found : s.tasks[i]? = some (.commitCoordinator errand broker id)) :
    Watched ((s.apply (.dismiss id)).move i (.refusedCoordinator errand broker id)) := by
  let moved := s.move i (.refusedCoordinator errand broker id)
  have told : Watched (moved.apply (.dismiss id)) := by
    refine watched_dismiss ?_ ?_ (.inr (.inl ⟨_, Tally.mem_set_self _ found, rfl⟩))
    · intro other coordinator apart known running
      rcases owned_move _ found (watched.owned known running) with mine | kept
      · cases mine
        exact absurd rfl apart
      · exact kept
    · intro other coordinator apart known told open_
      rcases shutting_move _ found (watched.shutting known told open_) with mine | kept
      · cases mine
      · exact kept
  exact told.same rfl rfl rfl rfl rfl

theorem moves {i : Nat} {a b : Stage} {effect : Effect} (exclusive : Exclusive s)
    (found : s.tasks[i]? = some a) (moves : Moves plan s a b effect) : Watched ((s.apply effect).move i b) := by
  cases moves with
  | plain before _ mild _ =>
    have idle := Stage.plain_committing before
    exact (watched.mild (mild_apply mild)).moveIdle ((apply_framed effect).task found) idle.1 idle.2
  | unlock _ mild _ => exact (watched.mild (mild_apply mild)).moveIdle ((apply_framed effect).task found) rfl rfl
  | lock _ => exact watched.moveIdle found rfl rfl
  | @spawn errand broker _ =>
    have moved : Watched (s.move i (.commitCoordinator errand broker s.coordinators.length)) :=
      watched.moveIdle found rfl rfl
    have spawned := @Watched.spawn _ moved broker ⟨_, Tally.mem_set_self _ found, rfl⟩
    exact spawned.same rfl rfl rfl rfl rfl
  | @register errand broker id _ => exact watched.register found (exclusive.vacant i errand broker id found)
  | dismiss _ => exact watched.dismiss found
  | @ended errand broker id coordinator known closed =>
    have dropped := watched.mild (mild_closeSets errand.sources)
    refine dropped.move (a := .refusedCoordinator errand broker id) found nofun ?_
    intro other coordinator' known' open_ mine
    cases mine
    cases known.symm.trans known'
    exact absurd closed open_
  | @create quest generation =>
    have locked := @Watched.keep _ watched quest.coordinator
      (fun coordinator => { coordinator with establishing := true }) fun _ => rfl
    have created : Watched (s.apply (.createSet quest.coordinator generation)) := locked.same rfl rfl rfl rfl rfl
    exact created.moveIdle (a := .establish quest generation) found rfl rfl
  | @insert quest set coordinator known =>
    have inserted := watched.insertSet quest.coordinator quest.profile set
    exact inserted.moveIdle ((insertSet_framed quest.coordinator quest.profile set).task found) rfl rfl

theorem givesUp {i : Nat} {a : Stage} {effect : Effect} (found : s.tasks[i]? = some a) (gives : GivesUp a effect) :
    Watched ((s.apply effect).move i .done) := by
  cases gives with
  | plain before mild _ =>
    have idle := Stage.plain_committing before
    exact (watched.mild (mild_apply mild)).moveIdle ((apply_framed effect).task found) idle.1 idle.2
  | @unregistered quest set =>
    have unlocked := @Watched.keep _ watched quest.coordinator
      (fun coordinator => { coordinator with establishing := false }) fun _ => rfl
    have dropped := unlocked.mild (mild_closeSets (quest.sources ++ [set]))
    exact dropped.moveIdle (a := .created quest set) found rfl rfl
  | @unclosed errand broker id _ =>
    have left : Watched { s with abandoned := s.abandoned ++ [id] } := by
      refine ⟨fun known running => watched.owned known running, fun known told open_ => ?_⟩
      rcases watched.shutting known told open_ with awaited | refused | abandoned
      · exact .inl awaited
      · exact .inr (.inl refused)
      · exact .inr (.inr (List.mem_append_left _ abandoned))
    have dropped := left.mild (mild_closeSets errand.sources)
    refine dropped.move (a := .refusedCoordinator errand broker id) found nofun ?_
    intro _ _ _ _ mine
    cases mine
    exact .inr (.inr (List.mem_append_right _ (List.mem_singleton_self _)))

theorem shut {id : Nat} {coordinator : Coordinator} {f : Coordinator → Coordinator}
    (found : s.coordinators[id]? = some coordinator) (told : coordinator.phase ≠ .running)
    (open_ : coordinator.phase ≠ .closed) (phase : (f coordinator).phase ≠ .running) : Watched (s.change id f) := by
  refine watched.change fun other known => ?_
  cases found.symm.trans known
  exact .inr ⟨told, open_, phase⟩

theorem turns (exclusive : Exclusive s) (turns : Turns plan s t) : Watched t := by
  cases turns
  case start stage plain =>
    refine ⟨fun known running => ?_, fun known told open_ => ?_⟩
    · rcases watched.owned known running with registered | pending | ⟨stage, member, mine⟩
      · exact .inl registered
      · exact .inr (.inl pending)
      · exact .inr (.inr ⟨stage, List.mem_append_left _ member, mine⟩)
    · rcases watched.shutting known told open_ with awaited | ⟨stage, member, mine⟩ | abandoned
      · exact .inl awaited
      · exact .inr (.inl ⟨stage, List.mem_append_left _ member, mine⟩)
      · exact .inr (.inr abandoned)
  case call =>
    refine ⟨fun known running => ?_, fun known told open_ => ?_⟩
    · rcases watched.owned known running with registered | ⟨closing, member, mine⟩ | committing
      · exact .inl registered
      · exact .inr (.inl ⟨closing, List.mem_append_left _ member, mine⟩)
      · exact .inr (.inr committing)
    · rcases watched.shutting known told open_ with ⟨closing, member, mine⟩ | other
      · exact .inl ⟨closing, List.mem_append_left _ member, mine⟩
      · exact .inr other
  case move i a b effect found moves => exact watched.moves exclusive found moves
  case giveUp i a effect found gives => exact watched.givesUp found gives
  case begin k found opened =>
    have moved : Watched { s with closers := s.closers.set k .takeConsumers } := watched.set found nofun nofun
    exact moved.same rfl rfl rfl rfl rfl
  case glide k before after u found glides mild shrinks =>
    have same := watched.mild mild
    have there : u.closers[k]? = some before := mild.closers ▸ found
    have moved : Watched { u with closers := u.closers.set k after } := by
      refine same.set there ?_ ?_
      · intro id _ _ _ mine
        exact .inr (.inl ⟨after, Tally.mem_set_self after there, glides.pending ▸ mine⟩)
      · intro id _ _ _ mine
        rw [glides.awaits.1] at mine
        cases mine
    rw [mild.closers] at moved
    exact moved
  case take k found =>
    refine ⟨fun known running => ?_, fun known told open_ => ?_⟩
    · rcases owned_set (.coordinators (Keyed.values s.registered)) found (watched.owned known running) with
        mine | registered | other
      · cases mine
      · exact .inr (.inl ⟨_, Tally.mem_set_self _ found, registered⟩)
      · exact .inr other
    · rcases shutting_set (.coordinators (Keyed.values s.registered)) found (watched.shutting known told open_) with
        mine | kept
      · cases mine
      · exact kept
  case skip k id rest coordinator found known told =>
    refine watched.set found ?_ nofun
    intro other coordinator' known' running mine
    rcases List.mem_cons.mp mine with rfl | later
    · cases known.symm.trans known'
      exact absurd running told
    · exact .inr (.inl ⟨_, Tally.mem_set_self _ found, later⟩)
  case tell k id rest coordinator found known =>
    let moved : State := { s with closers := s.closers.set k (.awaiting id rest) }
    have told : Watched (moved.apply (.dismiss id)) := by
      refine watched_dismiss ?_ ?_ (.inl ⟨_, Tally.mem_set_self _ found, rfl⟩)
      · intro other coordinator' apart known' running
        rcases owned_set (.awaiting id rest) found (watched.owned known' running) with mine | kept
        · rcases List.mem_cons.mp mine with rfl | later
          · exact absurd rfl apart
          · exact .inr (.inl ⟨_, Tally.mem_set_self _ found, later⟩)
        · exact kept
      · intro other coordinator' apart known' told open_
        rcases shutting_set (.awaiting id rest) found (watched.shutting known' told open_) with mine | kept
        · cases mine
        · exact kept
    exact told.same rfl rfl rfl rfl rfl
  case ended k id rest coordinator found known closed =>
    refine watched.set found ?_ ?_
    · intro other _ _ _ mine
      exact .inr (.inl ⟨_, Tally.mem_set_self _ found, mine⟩)
    · intro other coordinator' known' open_ mine
      cases mine
      cases known.symm.trans known'
      exact absurd closed open_
  case finish k found =>
    have moved : Watched { s with closers := s.closers.set k .done } := watched.set found nofun nofun
    exact moved.same rfl rfl rfl rfl rfl
  case transition id ready => exact watched.keep fun _ => rfl
  case install id coordinator found recovers none =>
    have installed : Watched (s.change id fun coordinator =>
        { coordinator with publisher := some s.spawnedPublishers }) := watched.keep fun _ => rfl
    exact installed.same rfl rfl rfl rfl rfl
  case restore id generation profile coordinator found =>
    have created : Watched { s with sets := s.sets ++ [generation] } := watched.same rfl rfl rfl rfl rfl
    exact created.insertSet id profile _
  case stop id coordinator found told =>
    have stopped : Watched (s.change id fun coordinator =>
        { coordinator with publisher := none, phase := .stopping }) :=
      watched.shut found (by rw [told]; nofun) (by rw [told]; nofun) nofun
    exact stopped.same rfl rfl rfl rfl rfl
  case drain id coordinator found stopped =>
    exact watched.shut found (by rw [stopped]; nofun) (by rw [stopped]; nofun) nofun
  case closeSet id set rest coordinator found draining =>
    refine Watched.mild ?_ (mild_closeSets _)
    exact watched.shut found (by rw [draining]; nofun) (by rw [draining]; nofun) nofun
  case quit id coordinator found drained =>
    exact watched.shut found (by rw [drained]; nofun) (by rw [drained]; nofun) nofun
  case mild mild _ => exact watched.mild mild

end Watched

end RabbitRs.Client
