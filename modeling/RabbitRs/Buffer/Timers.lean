import RabbitRs.Buffer.Teardown

/-!
Who will flush what is buffered: at every point of a run a timer that will find the interval
elapsed, or a thread that is about to take the buffer or to arm such a timer.
-/

namespace RabbitRs.Buffer

open StepMachine

/-! ### What a thread owes the buffer -/

def Arming.isSpawn : Arming → Bool
  | .spawn => true
  | .swap | .push _ => false

def Arming.owes : Arming → Bool
  | .swap | .spawn => true
  | .push _ => false

def Quiesce.isFlush : Quiesce → Bool
  | .flush _ => true
  | .pop | .teardown => false

def PhpPc.owes : PhpPc → Bool
  | .armClock | .takeTriggered | .resetClock _ | .takeAll _ => true
  | .testLength started | .testAge started => started
  | .arm arming _ => arming.owes
  | .abortTimers quiesce _ | .resetPending quiesce _ | .takeHandles quiesce _
  | .awaitDrains quiesce _ _ => quiesce.isFlush
  | _ => false

def PhpPc.spawns : PhpPc → Bool
  | .arm arming _ => arming.isSpawn
  | _ => false

def PhpPc.resets : PhpPc → Bool
  | .resetPending _ _ => true
  | _ => false

def PhpPc.popQuiesces : PhpPc → Bool
  | .abortTimers quiesce _ | .resetPending quiesce _ => quiesce.isPop
  | _ => false

def PhpPc.afterClock : PhpPc → Bool
  | .testLength _ | .testAge _ | .takeTriggered | .awaitPermit _ _ | .saturated _ | .arm _ _
  | .registerDrain _ | .takeAll _ | .flushing _ _ | .failed _ _ _ => true
  | _ => false

def PhpPc.armsClock : PhpPc → Bool
  | .armClock => true
  | _ => false

def DrainPc.owes : DrainPc → Bool
  | .take => true
  | .arm arming _ => arming.owes
  | _ => false

def DrainPc.spawns : DrainPc → Bool
  | .arm arming _ => arming.isSpawn
  | _ => false

def Fresh (s : State) (timer : Timer) : Prop :=
  ∃ instant, s.lastFlush = some instant ∧ instant ≤ timer.armedAt

def Effective (settings : Settings) (s : State) (timer : Timer) : Prop :=
  match timer.pc with
  | .sleeping => Fresh s timer
  | .testLength | .testAge => Fresh s timer ∧ timer.armedAt + settings.flushInterval ≤ s.clock
  | .spawn => True
  | .register _ | .finished => False

/-- The steps that keep a timer over the buffer. The interval clock is written only while no
timer is pending, a failed drain or flush re-buffers only on top of other publications, and no
saturated drain re-buffers under a pop that has found the buffer empty and is resetting the
timers. -/
def KeepsTimer (s : State) : Event → Prop
  | .php _ =>
    match s.php with
    | .armClock | .resetClock _ => s.timerPending = false
    | .failed (.extend batch) _ _ => batch = [] ∨ s.publishes ≠ []
    | _ => True
  | .drain i _ =>
    match s.drains[i]? with
    | some (.failed (.extend batch) _) => batch = [] ∨ s.publishes ≠ []
    | some (.saturated (.extend batch) _) => batch = [] ∨ s.php.popQuiesces = false
    | _ => True
  | _ => True

structure Guarded (settings : Settings) (s : State) (pc : PhpPc) : Prop where
  past : ∀ instant, s.lastFlush = some instant → instant ≤ s.clock
  clocked : s.lastFlush = none →
    s.timers = [] ∧ s.drains = [] ∧ pc.afterClock = false ∧ (s.publishes = [] ∨ pc = .armClock)
  flagged : pc.inTeardown = true → s.tearingDown = true
  popEmpty : pc.popQuiesces = true → s.publishes = []
  pending : s.timerPending = true → (∃ timer ∈ s.timers, timer.pc = .sleeping ∧ Fresh s timer) ∨
      (∃ drain ∈ s.drains, drain.spawns = true) ∨ pc.spawns = true ∨ pc.resets = true
  covered : s.tearingDown = false → s.publishes ≠ [] → (∃ timer ∈ s.timers, Effective settings s timer) ∨
      (∃ drain ∈ s.drains, drain.owes = true) ∨ pc.owes = true

section

variable {settings : Settings} {s t : State} {pc later : PhpPc}

structure Watched where
  clock : Nat
  publishes : List Accepted
  lastFlush : Option Nat
  tearingDown : Bool
  timerPending : Bool
  timers : List Timer
  drains : List DrainPc

def State.watched (s : State) : Watched where
  clock := s.clock
  publishes := s.publishes
  lastFlush := s.lastFlush
  tearingDown := s.tearingDown
  timerPending := s.timerPending
  timers := s.timers
  drains := s.drains

def Unmoved (s t : State) : Prop := t.watched = s.watched

namespace Unmoved

variable (same : Unmoved s t)

include same

theorem clock : t.clock = s.clock := congrArg Watched.clock same

theorem publishes : t.publishes = s.publishes := congrArg Watched.publishes same

theorem lastFlush : t.lastFlush = s.lastFlush := congrArg Watched.lastFlush same

theorem tearingDown : t.tearingDown = s.tearingDown := congrArg Watched.tearingDown same

theorem timerPending : t.timerPending = s.timerPending := congrArg Watched.timerPending same

theorem timers : t.timers = s.timers := congrArg Watched.timers same

theorem drains : t.drains = s.drains := congrArg Watched.drains same

end Unmoved

structure Hands (s : State) (pc later : PhpPc) : Prop where
  owes : pc.owes = true → later.owes = true
  spawns : pc.spawns = true → later.spawns = true
  resets : pc.resets = true → later.resets = true
  clock : pc.afterClock = false → later.afterClock = false
  arming : pc = .armClock → later = .armClock
  teardown : later.inTeardown = true → pc.inTeardown = true
  pop : later.popQuiesces = true → s.publishes = []

def handsOver (pc later : PhpPc) : Bool :=
  (!pc.owes || later.owes) && (!pc.spawns || later.spawns) && (!pc.resets || later.resets) &&
    (pc.afterClock || !later.afterClock) && (!later.inTeardown || pc.inTeardown) &&
    !later.popQuiesces && !pc.armsClock

theorem Hands.of_handsOver (handed : handsOver pc later = true) : Hands s pc later := by
  simp only [handsOver, Bool.and_eq_true, Bool.or_eq_true, Bool.not_eq_true'] at handed
  obtain ⟨⟨⟨⟨⟨⟨owes, spawns⟩, resets⟩, clock⟩, teardown⟩, pop⟩, arming⟩ := handed
  refine ⟨fun h => ?_, fun h => ?_, fun h => ?_, fun h => ?_, fun h => ?_, fun h => ?_, fun h => ?_⟩
  · simpa [h] using owes
  · simpa [h] using spawns
  · simpa [h] using resets
  · simpa [h] using clock
  · rw [h] at arming
    cases arming
  · simpa [h] using teardown
  · rw [h] at pop
    cases pop

theorem Fresh.of_unmoved {timer : Timer} (fresh : Fresh s timer) (same : Unmoved s t) : Fresh t timer := by
  obtain ⟨instant, found, before⟩ := fresh
  exact ⟨instant, same.lastFlush.trans found, before⟩

theorem Effective.of_unmoved {timer : Timer} (effective : Effective settings s timer)
    (same : Unmoved s t) : Effective settings t timer := by
  obtain ⟨armedAt, timerPc⟩ := timer
  cases timerPc with
  | sleeping => exact Fresh.of_unmoved effective same
  | testLength | testAge => exact ⟨effective.1.of_unmoved same, same.clock ▸ effective.2⟩
  | spawn => trivial
  | register drain | finished => exact effective

theorem Guarded.goto (guarded : Guarded settings s pc) (same : Unmoved s t)
    (hands : Hands s pc later) : Guarded settings t later where
  past instant found := same.clock ▸ guarded.past instant (same.lastFlush ▸ found)
  clocked unset := by
    obtain ⟨timers, drains, before, empty⟩ := guarded.clocked (same.lastFlush ▸ unset)
    exact ⟨same.timers.trans timers, same.drains.trans drains, hands.clock before,
      empty.imp same.publishes.trans hands.arming⟩
  flagged inside := same.tearingDown.trans (guarded.flagged (hands.teardown inside))
  popEmpty quiesces := same.publishes.trans (hands.pop quiesces)
  pending isPending := by
    rw [same.timers, same.drains]
    rcases guarded.pending (same.timerPending ▸ isPending) with
      ⟨timer, member, asleep, fresh⟩ | spawning | spawning | resetting
    · exact .inl ⟨timer, member, asleep, fresh.of_unmoved same⟩
    · exact .inr (.inl spawning)
    · exact .inr (.inr (.inl (hands.spawns spawning)))
    · exact .inr (.inr (.inr (hands.resets resetting)))
  covered standing nonempty := by
    rw [same.timers, same.drains]
    rcases guarded.covered (same.tearingDown ▸ standing) (same.publishes ▸ nonempty) with
      ⟨timer, member, effective⟩ | owed | owed
    · exact .inl ⟨timer, member, effective.of_unmoved same⟩
    · exact .inr (.inl owed)
    · exact .inr (.inr (hands.owes owed))

theorem Guarded.passes (guarded : Guarded settings s pc) (same : Unmoved s t)
    (handed : handsOver pc later = true) : Guarded settings t later :=
  guarded.goto same (.of_handsOver handed)

theorem Guarded.pending_elsewhere {other : Prop} (guarded : Guarded settings s pc) (spawns : pc.spawns = false)
    (resets : pc.resets = false) (isPending : s.timerPending = true) :
    (∃ timer ∈ s.timers, timer.pc = .sleeping ∧ Fresh s timer) ∨
      (∃ drain ∈ s.drains, drain.spawns = true) ∨ other := by
  rcases guarded.pending isPending with live | spawning | spawning | resetting
  · exact .inl live
  · exact .inr (.inl spawning)
  · cases spawns.symm.trans spawning
  · cases resets.symm.trans resetting

theorem Guarded.take (guarded : Guarded settings s pc) (spawns : pc.spawns = false)
    (resets : pc.resets = false) (clock : pc.afterClock = false → later.afterClock = false)
    (teardown : later.inTeardown = true → pc.inTeardown = true) :
    Guarded settings s.take later where
  past := guarded.past
  clocked unset := by
    obtain ⟨timers, drains, before, -⟩ := guarded.clocked unset
    exact ⟨timers, drains, clock before, .inl rfl⟩
  flagged inside := guarded.flagged (teardown inside)
  popEmpty _ := rfl
  pending := guarded.pending_elsewhere spawns resets
  covered _ nonempty := absurd rfl nonempty

theorem writeClock_guarded (none : s.timerPending = false)
    (owes : later.owes = true) (outside : later.inTeardown = false)
    (popless : later.popQuiesces = false) :
    Guarded settings { s with lastFlush := some s.clock } later where
  past instant found := by
    cases found
    exact le_rfl
  clocked unset := by cases unset
  flagged inside := by
    rw [outside] at inside
    cases inside
  popEmpty quiesces := by
    rw [popless] at quiesces
    cases quiesces
  pending isPending := by
    have contrary : s.timerPending = true := isPending
    rw [none] at contrary
    cases contrary
  covered _ _ := .inr (.inr owes)

theorem Guarded.enqueue {publish : NativePublish} (guarded : Guarded settings s (.enqueue publish)) :
    Guarded settings (s.push publish)
      (if s.publishes.isEmpty then .armClock else .testLength false) where
  past := guarded.past
  clocked unset := by
    obtain ⟨timers, drains, -, empty⟩ := guarded.clocked unset
    have none : s.publishes = [] := empty.resolve_right (by simp)
    rw [none]
    exact ⟨timers, drains, rfl, .inr rfl⟩
  flagged inside := by split at inside <;> cases inside
  popEmpty quiesces := by split at quiesces <;> cases quiesces
  pending := guarded.pending_elsewhere rfl rfl
  covered standing _ := by
    split
    · exact .inr (.inr rfl)
    · rename_i nonempty
      rcases guarded.covered standing (by simpa using nonempty) with timer | owed | owed
      · exact .inl timer
      · exact .inr (.inl owed)
      · cases owed

theorem Guarded.extend {batch : List Accepted} (bytes : Nat) (guarded : Guarded settings s pc)
    (clock : pc.afterClock = true) (harmless : batch = [] ∨ s.publishes ≠ [])
    (popless : pc.popQuiesces = false) :
    Guarded settings { s with publishes := s.publishes ++ batch, bytes } pc where
  past := guarded.past
  clocked unset := by
    obtain ⟨-, -, before, -⟩ := guarded.clocked unset
    rw [clock] at before
    cases before
  flagged := guarded.flagged
  popEmpty quiesces := by
    rw [popless] at quiesces
    cases quiesces
  pending := guarded.pending
  covered standing nonempty := by
    refine guarded.covered standing ?_
    rcases harmless with rfl | covered
    · simpa using nonempty
    · exact covered

theorem Guarded.lastFlush_some (guarded : Guarded settings s pc) (clock : pc.afterClock = true) :
    ∃ instant, s.lastFlush = some instant := by
  cases found : s.lastFlush with
  | none =>
    obtain ⟨-, -, before, -⟩ := guarded.clocked found
    rw [clock] at before
    cases before
  | some instant => exact ⟨instant, rfl⟩

theorem DrainPc.owes_of_spawns {drain : DrainPc} (spawns : drain.spawns = true) : drain.owes = true := by
  cases drain with
  | arm arming messageId =>
    cases arming with
    | spawn => rfl
    | swap | push timer => cases spawns
  | _ => cases spawns

theorem PhpPc.owes_of_spawns (spawns : pc.spawns = true) : pc.owes = true := by
  cases pc with
  | arm arming saturated =>
    cases arming with
    | spawn => rfl
    | swap | push timer => cases spawns
  | _ => cases spawns

theorem Guarded.pendingCovers (guarded : Guarded settings s pc) (isPending : s.timerPending = true) :
    (∃ timer ∈ s.timers, Effective settings s timer) ∨
      (∃ drain ∈ s.drains, drain.spawns = true) ∨ pc.spawns = true ∨ pc.resets = true := by
  rcases guarded.pending isPending with ⟨timer, member, asleep, fresh⟩ | other
  · refine .inl ⟨timer, member, ?_⟩
    unfold Effective
    rw [asleep]
    exact fresh
  · exact .inr other

/-- The timer `ensure_flush_timer` spawns is armed after every write of the interval clock so
far, so it covers whatever is buffered. -/
theorem spawned_covers (settings : Settings) (timers : List Timer) {instant : Nat} (found : s.lastFlush = some instant)
    (before : instant ≤ s.clock) :
    let armed : State := { s with timers := timers ++ [{ armedAt := s.clock, pc := .sleeping }] }
    (∃ timer ∈ armed.timers, timer.pc = .sleeping ∧ Fresh armed timer) ∧
      (∃ timer ∈ armed.timers, Effective settings armed timer) := by
  intro armed
  have member : (⟨s.clock, .sleeping⟩ : Timer) ∈ armed.timers := by simp [armed]
  exact ⟨⟨_, member, rfl, instant, found, before⟩, _, member, instant, found, before⟩

theorem Guarded.arm {arming : Arming} {saturated : Bool} {further : Option Arming} {after : PhpPc}
    (guarded : Guarded settings s (.arm arming saturated)) (armed : s.arm arming = (t, further))
    (ends : after = .idle ∨ after = .surface .caller) :
    Guarded settings t ((further.map fun step => .arm step saturated).getD after) := by
  obtain ⟨instant, found⟩ := guarded.lastFlush_some rfl
  cases arming with
  | swap =>
    simp only [State.arm] at armed
    split at armed <;> cases armed
    · rename_i isPending
      refine ⟨guarded.past, fun unset => (by cases found.symm.trans unset), ?_, ?_,
        guarded.pending_elsewhere rfl rfl, fun _ _ => ?_⟩
      · rcases ends with rfl | rfl <;> rintro ⟨⟩
      · rcases ends with rfl | rfl <;> rintro ⟨⟩
      · rcases guarded.pendingCovers isPending with timer | ⟨drain, member, spawns⟩ | spawning | resetting
        · exact .inl timer
        · exact .inr (.inl ⟨drain, member, DrainPc.owes_of_spawns spawns⟩)
        · cases spawning
        · cases resetting
    · exact ⟨guarded.past, fun unset => (by cases found.symm.trans unset), by rintro ⟨⟩, by rintro ⟨⟩,
        fun _ => .inr (.inr (.inl rfl)), fun _ _ => .inr (.inr rfl)⟩
  | spawn =>
    cases armed
    obtain ⟨live, effective⟩ := spawned_covers settings s.timers found (guarded.past instant found)
    exact ⟨guarded.past, fun unset => (by cases found.symm.trans unset), by rintro ⟨⟩, by rintro ⟨⟩,
      fun _ => .inl live, fun _ _ => .inl effective⟩
  | push timer =>
    cases armed
    rcases ends with rfl | rfl <;> exact guarded.passes rfl rfl

theorem flushAnswer_guarded {batch : List Accepted} {resume : Resume} {result : BatchResult}
    (guarded : Guarded settings s (.flushing batch resume))
    (answered : flushAnswer s batch resume result = (t, later)) : Guarded settings t later := by
  rcases result with error | _ | ⟨first, rest⟩
  · simp only [flushAnswer] at answered
    split at answered <;> cases answered
    · cases resume <;> exact guarded.passes rfl rfl
    · exact guarded.passes rfl rfl
  · cases answered
    cases resume <;> exact guarded.passes rfl rfl
  · cases answered
    cases resume <;> exact guarded.passes rfl rfl

theorem saturated_guarded {disposal : Disposal} {further : Option Disposal}
    (guarded : Guarded settings s (.saturated disposal))
    (disposed : s.dispose disposal = (t, further)) :
    Guarded settings t ((further.map PhpPc.saturated).getD (.arm .swap true)) := by
  cases disposal with
  | check batch =>
    simp only [State.dispose] at disposed
    split at disposed <;> cases disposed <;> exact guarded.passes rfl rfl
  | split batch =>
    cases disposed
    exact guarded.passes rfl rfl
  | extend batch =>
    obtain ⟨instant, found⟩ := guarded.lastFlush_some rfl
    cases disposed
    refine ⟨guarded.past, fun unset => (by cases found.symm.trans unset), by rintro ⟨⟩, by rintro ⟨⟩,
      guarded.pending_elsewhere rfl rfl, fun _ _ => .inr (.inr rfl)⟩

theorem failed_guarded {disposal : Disposal} {further : Option Disposal} {resume : Resume}
    {error : PendingPublishError} (guarded : Guarded settings s (.failed disposal error resume))
    (harmless : ∀ batch, disposal = .extend batch → batch = [] ∨ s.publishes ≠ [])
    (disposed : s.dispose disposal = (t, further)) :
    Guarded settings t ((further.map fun step => .failed step error resume).getD resume.next) := by
  cases disposal with
  | check batch =>
    simp only [State.dispose] at disposed
    split at disposed <;> cases disposed
    · cases resume <;> exact guarded.passes rfl rfl
    · exact guarded.passes rfl rfl
  | split batch =>
    cases disposed
    exact guarded.passes rfl rfl
  | extend batch =>
    cases disposed
    have extended := guarded.extend (s.bytes + payloadBytes batch) rfl (harmless batch rfl) rfl
    cases resume <;> exact extended.passes rfl rfl

theorem Guarded.quiesce_covered {quiesce : Quiesce} {deadline : Nat}
    (guarded : Guarded settings s pc)
    (position : pc = .abortTimers quiesce deadline ∨ pc = .resetPending quiesce deadline)
    (standing : s.tearingDown = false) (nonempty : s.publishes ≠ []) : quiesce.isFlush = true := by
  cases quiesce with
  | flush resume => rfl
  | pop =>
    have empty := guarded.popEmpty (by rcases position with rfl | rfl <;> rfl)
    exact absurd empty nonempty
  | teardown =>
    have flag := guarded.flagged (by rcases position with rfl | rfl <;> rfl)
    rw [standing] at flag
    cases flag

theorem phpNext_guarded {answer : Answer} (next : phpNext settings s pc answer = some (t, later))
    (guarded : Guarded settings s pc) (at_ : s.php = pc) (kept : KeepsTimer s (.php answer)) :
    Guarded settings t later := by
  cases pc <;> cases answer <;>
    simp only [phpNext, reduceCtorEq, Option.some.injEq, Prod.mk.injEq] at next
  case testOverflow.proceed publish =>
    obtain ⟨rfl, rfl⟩ := next
    repeat' split
    all_goals exact guarded.passes rfl rfl
  case retestOverflow.proceed publish | testLeftover.proceed deadline =>
    split at next <;> cases next <;> exact guarded.passes rfl rfl
  case enqueue.proceed publish =>
    obtain ⟨rfl, rfl⟩ := next
    exact guarded.enqueue
  case armClock.proceed | resetClock.proceed resume =>
    obtain ⟨rfl, rfl⟩ := next
    simp only [KeepsTimer, at_] at kept
    exact writeClock_guarded kept rfl rfl rfl
  case testLength.proceed started =>
    obtain ⟨rfl, rfl⟩ := next
    split <;> cases started <;> exact guarded.passes rfl rfl
  case testAge.proceed started =>
    obtain ⟨rfl, rfl⟩ := next
    cases started <;> repeat' split
    all_goals first
      | contradiction
      | exact guarded.passes rfl rfl
  case takeTriggered.proceed =>
    obtain ⟨rfl, rfl⟩ := next
    split <;> exact guarded.take rfl rfl (by rintro ⟨⟩) (by rintro ⟨⟩)
  case takeAll.proceed resume =>
    obtain ⟨rfl, rfl⟩ := next
    split
    · cases resume <;> exact guarded.take rfl rfl (by rintro ⟨⟩) (by rintro ⟨⟩)
    · exact guarded.take rfl rfl (by rintro ⟨⟩) (by rintro ⟨⟩)
  case takeLeftover.proceed deadline =>
    obtain ⟨rfl, rfl⟩ := next
    exact guarded.take rfl rfl (fun _ => rfl) (fun _ => rfl)
  case awaitPermit.proceed batch deadline =>
    obtain ⟨instant, found⟩ := guarded.lastFlush_some rfl
    split at next <;> cases next
    refine ⟨guarded.past, fun unset => (by cases found.symm.trans unset), by rintro ⟨⟩, by rintro ⟨⟩,
      fun isPending => ?_, fun standing nonempty => ?_⟩
    · rcases guarded.pending isPending with live | ⟨drain, member, spawns⟩ | spawning | resetting
      · exact .inl live
      · exact .inr (.inl ⟨drain, List.mem_append_left _ member, spawns⟩)
      · cases spawning
      · cases resetting
    · rcases guarded.covered standing nonempty with timer | ⟨drain, member, owes⟩ | owes
      · exact .inl timer
      · exact .inr (.inl ⟨drain, List.mem_append_left _ member, owes⟩)
      · cases owes
  case awaitPermit.timeout batch deadline | flushLeftover.timeout batch deadline =>
    split at next <;> cases next
    exact guarded.passes rfl rfl
  case saturated.proceed disposal =>
    split at next <;> cases next <;> exact saturated_guarded guarded ‹_›
  case arm.proceed arming saturated =>
    split at next
    · cases next
      exact guarded.arm ‹_› (.inl rfl)
    · split at next <;> cases next
      · have done : Guarded settings _ .idle := guarded.arm ‹_› (.inl rfl)
        exact done.passes rfl rfl
      · exact guarded.arm ‹_› (.inr rfl)
  case surface.proceed resume =>
    obtain ⟨rfl, rfl⟩ := next
    cases resume <;> exact guarded.passes rfl rfl
  case abortTimers.proceed quiesce deadline =>
    obtain ⟨rfl, rfl⟩ := next
    refine ⟨guarded.past, fun unset => ?_, guarded.flagged, guarded.popEmpty,
      fun _ => .inr (.inr (.inr rfl)), fun standing nonempty => ?_⟩
    · obtain ⟨timers, drains, -, empty⟩ := guarded.clocked unset
      exact ⟨by simp [State.abortTimers, timers], drains, rfl, .inl (empty.resolve_right (by simp))⟩
    · exact .inr (.inr (guarded.quiesce_covered (.inl rfl) standing nonempty))
  case resetPending.proceed quiesce deadline =>
    obtain ⟨rfl, rfl⟩ := next
    refine ⟨guarded.past, fun unset => ?_, guarded.flagged, by rintro ⟨⟩, by rintro ⟨⟩,
      fun standing nonempty => ?_⟩
    · obtain ⟨timers, drains, -, empty⟩ := guarded.clocked unset
      exact ⟨timers, drains, rfl, .inl (empty.resolve_right (by simp))⟩
    · exact .inr (.inr (guarded.quiesce_covered (.inr rfl) standing nonempty))
  case takeHandles.proceed quiesce deadline =>
    obtain ⟨rfl, rfl⟩ := next
    cases quiesce <;> exact guarded.passes rfl rfl
  case awaitDrains.proceed quiesce handles deadline =>
    split at next <;> cases next
    cases quiesce <;> exact guarded.passes rfl rfl
  case flushing.batch batch resume result => exact flushAnswer_guarded guarded next
  case failed.proceed disposal error resume =>
    have harmless : ∀ batch, disposal = .extend batch → batch = [] ∨ s.publishes ≠ [] := by
      rintro batch rfl
      simpa only [KeepsTimer, at_] using kept
    split at next <;> cases next
    · exact failed_guarded guarded harmless ‹_›
    · have done := failed_guarded guarded harmless ‹_›
      exact { done with }
  case testEmpty.proceed =>
    obtain ⟨rfl, rfl⟩ := next
    refine guarded.goto rfl ?_
    split
    · exact ⟨by rintro ⟨⟩, by rintro ⟨⟩, by rintro ⟨⟩, fun _ => rfl, by rintro ⟨⟩, by rintro ⟨⟩, fun _ => List.isEmpty_iff.mp ‹_›⟩
    · exact .of_handsOver rfl
  case tearDown.proceed =>
    obtain ⟨rfl, rfl⟩ := next
    refine ⟨guarded.past, fun unset => ?_, fun _ => rfl, by rintro ⟨⟩, guarded.pending_elsewhere rfl rfl,
      by rintro ⟨⟩⟩
    obtain ⟨timers, drains, -, empty⟩ := guarded.clocked unset
    exact ⟨timers, drains, rfl, .inl (empty.resolve_right (by simp))⟩
  case flushLeftover.batch batch deadline result =>
    rcases result with error | returned <;> cases next <;> exact guarded.passes rfl rfl
  case registerDrain.proceed | drainErrors.proceed | closeClaim.proceed =>
    obtain ⟨rfl, rfl⟩ := next
    exact guarded.passes rfl rfl

/-! ### Drains -/

section

variable {i : Nat} {drain further : DrainPc}

theorem Guarded.withDrain (guarded : Guarded settings s pc) (found : s.drains[i]? = some drain)
    (clock : t.clock = s.clock) (lastFlush : t.lastFlush = s.lastFlush)
    (tearingDown : t.tearingDown = s.tearingDown)
    (popEmpty : pc.popQuiesces = true → t.publishes = [])
    (pending : t.timerPending = true → (∃ timer ∈ t.timers, timer.pc = .sleeping ∧ Fresh t timer) ∨
        (∃ drain ∈ s.drains.set i further, drain.spawns = true) ∨ pc.spawns = true ∨ pc.resets = true)
    (covered : s.tearingDown = false → t.publishes ≠ [] → (∃ timer ∈ t.timers, Effective settings t timer) ∨
        (∃ drain ∈ s.drains.set i further, drain.owes = true) ∨ pc.owes = true) :
    Guarded settings { t with drains := s.drains.set i further } pc where
  past instant set := clock ▸ guarded.past instant (lastFlush ▸ set)
  clocked unset := by
    obtain ⟨-, none, -⟩ := guarded.clocked (lastFlush ▸ unset)
    rw [none] at found
    cases found
  flagged inside := tearingDown.trans (guarded.flagged inside)
  popEmpty := popEmpty
  pending := pending
  covered standing := covered (tearingDown ▸ standing)

theorem Guarded.stillPending (guarded : Guarded settings s pc) (found : s.drains[i]? = some drain)
    (idle : drain.spawns = false) (isPending : s.timerPending = true) :
    (∃ timer ∈ s.timers, timer.pc = .sleeping ∧ Fresh s timer) ∨
      (∃ drain ∈ s.drains.set i further, drain.spawns = true) ∨ pc.spawns = true ∨ pc.resets = true := by
  rcases guarded.pending isPending with live | spawning | other
  · exact .inl live
  · refine .inr (.inl (Tally.exists_set _ found (fun spawns => ?_) spawning))
    cases idle.symm.trans spawns
  · exact .inr (.inr other)

theorem Guarded.stillCovered (guarded : Guarded settings s pc) (found : s.drains[i]? = some drain)
    (idle : drain.owes = false) (standing : s.tearingDown = false) (nonempty : s.publishes ≠ []) :
    (∃ timer ∈ s.timers, Effective settings s timer) ∨
      (∃ drain ∈ s.drains.set i further, drain.owes = true) ∨ pc.owes = true := by
  rcases guarded.covered standing nonempty with timer | owed | owed
  · exact .inl timer
  · refine .inr (.inl (Tally.exists_set _ found (fun owes => ?_) owed))
    cases idle.symm.trans owes
  · exact .inr (.inr owed)

theorem Guarded.drainGoto (guarded : Guarded settings s pc) (found : s.drains[i]? = some drain)
    (same : Unmoved s t) (owes : drain.owes = false) (spawns : drain.spawns = false) :
    Guarded settings { t with drains := s.drains.set i further } pc := by
  refine guarded.withDrain found same.clock same.lastFlush same.tearingDown
    (fun quiesces => same.publishes.trans (guarded.popEmpty quiesces)) (fun isPending => ?_)
    (fun standing nonempty => ?_)
  · rw [same.timers]
    refine (guarded.stillPending found spawns (same.timerPending ▸ isPending)).imp_left ?_
    exact fun ⟨timer, member, asleep, fresh⟩ => ⟨timer, member, asleep, fresh.of_unmoved same⟩
  · rw [same.timers]
    refine (guarded.stillCovered found owes standing (same.publishes ▸ nonempty)).imp_left ?_
    exact fun ⟨timer, member, effective⟩ => ⟨timer, member, effective.of_unmoved same⟩

theorem Guarded.owes_of_resets (guarded : Guarded settings s pc) (resets : pc.resets = true)
    (standing : s.tearingDown = false) (nonempty : s.publishes ≠ []) : pc.owes = true := by
  cases pc with
  | resetPending quiesce deadline => exact guarded.quiesce_covered (.inr rfl) standing nonempty
  | _ => cases resets

theorem Guarded.drainArm {arming : Arming} {messageId : String} {step : Option Arming}
    (guarded : Guarded settings s pc) (found : s.drains[i]? = some (.arm arming messageId))
    (armed : s.arm arming = (t, step)) :
    Guarded settings
      { t with drains := (s.drains.set i
          ((step.map fun arming => .arm arming messageId).getD (.reportSaturation messageId))) }
      pc := by
  cases arming with
  | swap =>
    simp only [State.arm] at armed
    split at armed <;> cases armed
    · rename_i isPending
      refine guarded.withDrain found rfl rfl rfl guarded.popEmpty (fun _ => ?_)
        (fun standing nonempty => ?_)
      · exact guarded.stillPending found rfl isPending
      · rcases guarded.pendingCovers isPending with timer | spawning | spawns | resets
        · exact .inl timer
        · obtain ⟨other, member, spawns⟩ := Tally.exists_set (.reportSaturation messageId)
            found (by rintro ⟨⟩) spawning
          exact .inr (.inl ⟨other, member, DrainPc.owes_of_spawns spawns⟩)
        · exact .inr (.inr (PhpPc.owes_of_spawns spawns))
        · exact .inr (.inr (guarded.owes_of_resets resets standing nonempty))
    · have self := Tally.mem_set_self (.arm .spawn messageId) found
      exact guarded.withDrain found rfl rfl rfl guarded.popEmpty
        (fun _ => .inr (.inl ⟨_, self, rfl⟩)) (fun _ _ => .inr (.inl ⟨_, self, rfl⟩))
  | spawn =>
    cases armed
    obtain ⟨instant, set⟩ : ∃ instant, s.lastFlush = some instant := by
      refine Option.ne_none_iff_exists'.mp fun unset => ?_
      obtain ⟨-, none, -⟩ := guarded.clocked unset
      rw [none] at found
      cases found
    obtain ⟨live, effective⟩ := spawned_covers settings s.timers set (guarded.past instant set)
    exact guarded.withDrain found rfl rfl rfl guarded.popEmpty (fun _ => .inl live)
      (fun _ _ => .inl effective)
  | push timer =>
    cases armed
    exact guarded.drainGoto found rfl rfl rfl

theorem Guarded.drainSaturated {disposal : Disposal} {messageId : String} {step : Option Disposal}
    (guarded : Guarded settings s pc) (found : s.drains[i]? = some (.saturated disposal messageId))
    (alone : ∀ batch, disposal = .extend batch → batch = [] ∨ pc.popQuiesces = false)
    (disposed : s.dispose disposal = (t, step)) :
    Guarded settings
      { t with drains := (s.drains.set i
          ((step.map fun disposal => .saturated disposal messageId).getD (.arm .swap messageId))) }
      pc := by
  cases disposal with
  | check batch =>
    simp only [State.dispose] at disposed
    split at disposed <;> cases disposed <;>
      exact guarded.drainGoto found rfl rfl rfl
  | split batch =>
    cases disposed
    exact guarded.drainGoto found rfl rfl rfl
  | extend batch =>
    cases disposed
    refine guarded.withDrain found rfl rfl rfl (fun quiesces => ?_) (fun isPending => ?_)
      (fun _ _ => .inr (.inl ⟨_, Tally.mem_set_self _ found, rfl⟩))
    · rcases alone batch rfl with rfl | popless
      · simpa using guarded.popEmpty quiesces
      · rw [quiesces] at popless
        cases popless
    · exact guarded.stillPending found rfl isPending

theorem Guarded.drainFailed {disposal : Disposal} {error : PendingPublishError}
    {step : Option Disposal} (guarded : Guarded settings s pc)
    (found : s.drains[i]? = some (.failed disposal error))
    (harmless : ∀ batch, disposal = .extend batch → batch = [] ∨ s.publishes ≠ [])
    (disposed : s.dispose disposal = (t, step)) :
    Guarded settings
      { t with drains := (s.drains.set i
          ((step.map fun disposal => .failed disposal error).getD (.report [error]))) } pc := by
  cases disposal with
  | check batch =>
    simp only [State.dispose] at disposed
    split at disposed <;> cases disposed <;>
      exact guarded.drainGoto found rfl rfl rfl
  | split batch =>
    cases disposed
    exact guarded.drainGoto found rfl rfl rfl
  | extend batch =>
    cases disposed
    have before : s.publishes ++ batch ≠ [] → s.publishes ≠ [] := by
      rcases harmless batch rfl with rfl | covered
      · simp
      · exact fun _ => covered
    refine guarded.withDrain found rfl rfl rfl (fun quiesces => ?_) (fun isPending => ?_)
      (fun standing nonempty => ?_)
    · have empty := guarded.popEmpty quiesces
      exact Classical.byContradiction fun nonempty => before nonempty empty
    · exact guarded.stillPending found rfl isPending
    · exact guarded.stillCovered found rfl standing (before nonempty)

theorem drainNext_guarded {answer : Answer} (next : drainNext s drain answer = some (t, further))
    (found : s.drains[i]? = some drain) (guarded : Guarded settings s s.php)
    (kept : KeepsTimer s (.drain i answer)) :
    Guarded settings { t with drains := s.drains.set i further } s.php := by
  cases drain <;> cases answer <;>
    simp only [drainNext, reduceCtorEq, Option.some.injEq, Prod.mk.injEq] at next
  case take.proceed =>
    obtain ⟨rfl, rfl⟩ := next
    refine guarded.withDrain found rfl rfl rfl (fun _ => rfl) (fun isPending => ?_)
      (fun _ nonempty => absurd rfl nonempty)
    exact guarded.stillPending found rfl isPending
  case awaitPermit.proceed | awaitPermit.timeout =>
    split at next <;> cases next
    exact guarded.drainGoto found rfl rfl rfl
  case saturated.proceed disposal messageId =>
    have alone : ∀ batch, disposal = .extend batch → batch = [] ∨ s.php.popQuiesces = false := by
      rintro batch rfl
      simpa only [KeepsTimer, found] using kept
    split at next <;> cases next <;> exact guarded.drainSaturated found alone ‹_›
  case arm.proceed arming messageId =>
    split at next <;> cases next <;> exact guarded.drainArm found ‹_›
  case publishing.batch batch result =>
    rcases result with error | returned
    · simp only at next
      split at next <;> cases next <;>
        exact guarded.drainGoto found rfl rfl rfl
    · cases next
      exact guarded.drainGoto found rfl rfl rfl
  case failed.proceed disposal error =>
    have harmless : ∀ batch, disposal = .extend batch → batch = [] ∨ s.publishes ≠ [] := by
      rintro batch rfl
      simpa only [KeepsTimer, found] using kept
    split at next <;> cases next <;> exact guarded.drainFailed found harmless ‹_›
  case reportSaturation.proceed | report.proceed =>
    obtain ⟨rfl, rfl⟩ := next
    exact guarded.drainGoto found rfl rfl rfl

end

theorem Fresh.elapsed {timer : Timer} (fresh : Fresh s timer)
    (due : timer.armedAt + settings.flushInterval ≤ s.clock) : intervalElapsed settings s = true := by
  obtain ⟨instant, set, before⟩ := fresh
  rw [intervalElapsed, set]
  simp only [Option.any_some, decide_eq_true_eq]
  omega

theorem Guarded.timerGoto {i : Nat} {timer after : Timer} (guarded : Guarded settings s pc)
    (found : s.timers[i]? = some timer) (clocked : s.lastFlush ≠ none) (awake : timer.pc ≠ .sleeping)
    (keeps : Effective settings s timer → Effective settings s after) :
    Guarded settings { s with timers := s.timers.set i after } pc where
  past := guarded.past
  clocked unset := absurd unset clocked
  flagged := guarded.flagged
  popEmpty := guarded.popEmpty
  pending isPending :=
    (guarded.pending isPending).imp_left (Tally.exists_set _ found fun live => absurd live.1 awake)
  covered standing nonempty := (guarded.covered standing nonempty).imp_left (Tally.exists_set _ found keeps)

theorem timerNext_guarded {i : Nat} {timer : Timer} {after : TimerPc}
    (next : timerNext settings s timer = some (t, after)) (found : s.timers[i]? = some timer)
    (guarded : Guarded settings s pc) :
    Guarded settings { t with timers := s.timers.set i { timer with pc := after } } pc := by
  have clocked : s.lastFlush ≠ none := by
    intro unset
    obtain ⟨none, -⟩ := guarded.clocked unset
    rw [none] at found
    cases found
  obtain ⟨armedAt, timerPc⟩ := timer
  cases timerPc <;> simp only [timerNext, reduceCtorEq] at next
  case sleeping =>
    split at next <;> cases next
    rename_i due
    refine ⟨guarded.past, fun unset => absurd unset clocked, guarded.flagged, guarded.popEmpty,
      nofun, fun standing nonempty => ?_⟩
    refine (guarded.covered standing nonempty).imp_left (Tally.exists_set _ found fun fresh => ?_)
    exact ⟨fresh, due⟩
  case testLength =>
    cases next
    refine guarded.timerGoto found clocked nofun fun going => ?_
    split
    · trivial
    · exact going
  case testAge =>
    cases next
    refine guarded.timerGoto found clocked nofun fun going => ?_
    have elapsed : intervalElapsed settings s = true := Fresh.elapsed going.1 going.2
    rw [if_pos elapsed]
    trivial
  case spawn =>
    cases next
    refine ⟨guarded.past, fun unset => absurd unset clocked, guarded.flagged, guarded.popEmpty,
      fun isPending => ?_, fun _ _ => .inr (.inl ⟨.take, by simp, rfl⟩)⟩
    rcases guarded.pending isPending with live | ⟨drain, member, spawns⟩ | other
    · exact .inl (Tally.exists_set _ found nofun live)
    · exact .inr (.inl ⟨drain, List.mem_append_left _ member, spawns⟩)
    · exact .inr (.inr other)
  case register drain =>
    cases next
    exact { guarded.timerGoto found clocked nofun nofun with }

end

theorem guarded_step {settings : Settings} {s t : State} {event : Event}
    (guarded : Guarded settings s s.php) (kept : KeepsTimer s event)
    (stepped : Stepped settings s event t) : Guarded settings t t.php := by
  cases stepped with
  | tick nanos =>
    refine ⟨fun instant set => ?_, guarded.clocked, guarded.flagged, guarded.popEmpty,
      guarded.pending, fun standing nonempty => ?_⟩
    · exact (guarded.past instant set).trans (Nat.le_add_right _ _)
    · rcases guarded.covered standing nonempty with ⟨⟨armedAt, timerPc⟩, member, effective⟩ | owed
      · refine .inl ⟨_, member, ?_⟩
        cases timerPc with
        | testLength | testAge => exact ⟨effective.1, effective.2.trans (Nat.le_add_right _ _)⟩
        | _ => exact effective
      · exact .inr owed
  | closePool => exact { guarded with }
  | enter idle entered =>
    rw [idle] at guarded
    cases entered <;> exact guarded.passes rfl rfl
  | php next =>
    exact { phpNext_guarded next guarded rfl kept with }
  | @timer i timer u later found next =>
    have after := timerNext_guarded next found guarded
    obtain ⟨_, _, _, rfl, _⟩ := timerNext_frame settings next
    exact after
  | @drain i answer drain later u found next =>
    have after := drainNext_guarded next found guarded kept
    obtain ⟨_, _, _, _, _, _, _, _, _, _, rfl⟩ := drainNext_frame next
    exact after

theorem reaches_guarded {settings : Settings} {s : State}
    (reached : Reaches (machine settings) KeepsTimer s) : Guarded settings s s.php := by
  have initial : ∀ s, (machine settings).Initial s → Guarded settings s s.php := by
    rintro s rfl
    exact ⟨nofun, fun _ => ⟨rfl, rfl, rfl, .inl rfl⟩, nofun, nofun, nofun,
      fun _ nonempty => absurd rfl nonempty⟩
  have guarded := reached.invariant initial fun _ guarded kept stepped =>
    guarded_step guarded kept (stepped_of_step stepped)
  exact guarded

structure AtRest (s : State) : Prop where
  php : s.php = .idle
  drains : ∀ drain ∈ s.drains, drain.isFinished = true
  timers : ∀ timer ∈ s.timers, timer.pc = .sleeping ∨ timer.pc = .finished
  isOpen : s.isOpen = true
  standing : s.tearingDown = false

def Fires (settings : Settings) (s : State) (i : Nat) : Prop :=
  ∃ steps t, run (machine settings) (fun _ _ => true) s (List.replicate steps (.timer i)) = some t ∧
    t.drains = s.drains ++ [.take] ∧ t.publishes = s.publishes

/-- A timer sleeps, and whenever it is due it starts a drain. -/
def TimerCovers (settings : Settings) (s : State) : Prop :=
  ∃ i timer, s.timers[i]? = some timer ∧ timer.pc = .sleeping ∧
    ∀ nanos, timer.armedAt + settings.flushInterval ≤ s.clock + nanos →
      Fires settings { s with clock := s.clock + nanos } i

section

variable {settings : Settings} {s t : State} {i armedAt : Nat}

theorem Fires.of_step {pc later : TimerPc} (found : s.timers[i]? = some ⟨armedAt, pc⟩)
    (next : timerNext settings s ⟨armedAt, pc⟩ = some (t, later)) (drains : t.drains = s.drains)
    (publishes : t.publishes = s.publishes)
    (fires : Fires settings { t with timers := t.timers.set i ⟨armedAt, later⟩ } i) :
    Fires settings s i := by
  obtain ⟨steps, u, ran, drained, buffered⟩ := fires
  refine ⟨steps + 1, u, run_cons ?_ ran, drained.trans (by rw [drains]), buffered.trans publishes⟩
  simp only [machine, step, found, next, Option.bind_some, Option.map_some]

theorem fires_spawn (found : s.timers[i]? = some ⟨armedAt, .spawn⟩) : Fires settings s i := by
  refine ⟨1, _, run_cons (t := ?_) ?_ rfl, ?_, ?_⟩
  rotate_left
  · simp only [machine, step, found, timerNext, Option.bind_some, Option.map_some]
    rfl
  · rfl
  · rfl

theorem found_set (found : ∃ timer, s.timers[i]? = some timer) (timer : Timer) :
    (s.timers.set i timer)[i]? = some timer := by
  obtain ⟨_, found⟩ := found
  have inside := (List.getElem?_eq_some_iff.mp found).1
  simp [inside]

theorem fires_testAge (found : s.timers[i]? = some ⟨armedAt, .testAge⟩)
    (elapsed : intervalElapsed settings s = true) : Fires settings s i := by
  have next : timerNext settings s ⟨armedAt, .testAge⟩ = some (s, .spawn) := by
    simp only [timerNext, elapsed, if_true]
  exact .of_step found next rfl rfl (fires_spawn (found_set ⟨_, found⟩ _))

/-- A due timer armed after the last write of the interval clock starts a drain, whichever half
of `should_flush` it stops at. -/
theorem Fresh.fires (found : s.timers[i]? = some ⟨armedAt, .sleeping⟩)
    (fresh : Fresh s ⟨armedAt, .sleeping⟩) (due : armedAt + settings.flushInterval ≤ s.clock) :
    Fires settings s i := by
  have elapsed : intervalElapsed settings s = true := Fresh.elapsed fresh due
  refine .of_step found (if_pos due) rfl rfl ?_
  have woken := found_set ⟨_, found⟩ ⟨armedAt, .testLength⟩
  refine .of_step woken rfl rfl rfl ?_
  have tested := found_set (s := { s with timers := s.timers.set i ⟨armedAt, .testLength⟩ })
    ⟨_, woken⟩
  split
  · exact fires_spawn (tested ⟨armedAt, .spawn⟩)
  · exact fires_testAge (tested ⟨armedAt, .testAge⟩) elapsed

/-- In a run whose steps keep a timer over the buffer, a non-empty buffer at rest has a pending
timer that will drain it. -/
theorem buffered_timerCovers (reached : Reaches (machine settings) KeepsTimer s) (rest : AtRest s)
    (nonempty : s.publishes ≠ []) : TimerCovers settings s := by
  have guarded := reaches_guarded reached
  rcases guarded.covered rest.standing nonempty with
    ⟨⟨armedAt, timerPc⟩, member, effective⟩ | ⟨drain, member, owes⟩ | owes
  · obtain ⟨i, found⟩ := List.mem_iff_getElem?.mp member
    -- at rest a timer that will still do something is one that sleeps
    rcases rest.timers _ member with asleep | finished
    · obtain rfl : timerPc = .sleeping := asleep
      exact ⟨i, _, found, rfl, fun nanos due => Fresh.fires found effective due⟩
    · obtain rfl : timerPc = .finished := finished
      exact effective.elim
  · have finished := rest.drains drain member
    cases drain with
    | finished => cases owes
    | _ => cases finished
  · rw [rest.php] at owes
    cases owes

end

def atRest (s : State) : Bool :=
  s.php matches .idle && s.drains.all DrainPc.isFinished && s.isOpen && !s.tearingDown

theorem AtRest.of_atRest {s : State} (quiet : atRest s = true)
    (timers : ∀ timer ∈ s.timers, timer.pc = .sleeping ∨ timer.pc = .finished) : AtRest s := by
  simp only [atRest, Bool.and_eq_true, List.all_eq_true, Bool.not_eq_true'] at quiet
  refine ⟨?_, quiet.1.1.2, timers, quiet.1.2, quiet.2⟩
  have idle := quiet.1.1.1
  split at idle
  · assumption
  · cases idle

def undisturbed (s : State) : Event → Bool
  | .php _ =>
    match s.php with
    | .armClock | .resetClock _ => !s.timerPending
    | .failed _ _ _ => false
    | _ => true
  | .drain _ _ => false
  | _ => true

theorem undisturbed_keepsTimer (s : State) (event : Event) (held : undisturbed s event = true) :
    KeepsTimer s event := by
  cases event with
  | php answer =>
    cases at_ : s.php <;> simp_all [undisturbed, KeepsTimer]
  | drain i answer => cases held
  | _ => trivial

/-- One publication, and PHP never calls again: the timer it armed will drain it. -/
theorem order_timerCovers : ∃ s, Reaches (machine { flushInterval := 1000000 }) KeepsTimer s ∧ AtRest s ∧
      s.publishes ≠ [] ∧ TimerCovers { flushInterval := 1000000 } s := by
  have ran : (run (machine { flushInterval := 1000000 }) undisturbed {} publishOrder).any
      (fun s => atRest s && !s.publishes.isEmpty &&
        s.timers.all fun timer => timer.pc == .sleeping) = true := by decide +kernel
  obtain ⟨s, reached, held⟩ := exists_of_run undisturbed_keepsTimer rfl ran
  simp only [Bool.and_eq_true, Bool.not_eq_true', List.isEmpty_eq_false_iff, List.all_eq_true,
    beq_iff_eq] at held
  have rest := AtRest.of_atRest held.1.1 fun timer member => .inl (held.2 timer member)
  exact ⟨s, reached, rest, held.1.2, buffered_timerCovers reached rest held.1.2⟩

/-- The timer's drain fails and re-buffers the publication: no timer is left, and nothing will
flush it until PHP calls again. -/
theorem failed_drain_strands :
    ∃ s, Reachable (machine { flushInterval := 1000000 }) s ∧ AtRest s ∧ s.publishes ≠ [] ∧
      ¬ TimerCovers { flushInterval := 1000000 } s := by
  have ran : (run (machine { flushInterval := 1000000 }) (fun _ _ => true) {}
      (publishOrder ++ timerStartsDrain ++ [.drain 0 batchFails] ++ List.replicate 4 (.drain 0 .proceed))).any
      (fun s => atRest s && !s.publishes.isEmpty &&
        s.timers.all fun timer => timer.pc == .finished) = true := by decide +kernel
  obtain ⟨s, reached, held⟩ := exists_of_run (fun _ _ _ => trivial) rfl ran
  simp only [Bool.and_eq_true, Bool.not_eq_true', List.isEmpty_eq_false_iff, List.all_eq_true,
    beq_iff_eq] at held
  have finished := held.2
  refine ⟨s, reached, .of_atRest held.1.1 fun timer member => .inr (finished timer member),
    held.1.2, ?_⟩
  rintro ⟨i, timer, found, asleep, -⟩
  rw [finished timer (List.mem_of_getElem? found)] at asleep
  cases asleep

end RabbitRs.Buffer
