import RabbitRs.Buffer.Conservation

/-!
What the destructor's `flush_teardown` leaves behind: `rebuffer_or_drop` reads the teardown flag and
appends in two accesses, so a drain can append after the destructor looked at the buffer for the
last time.
-/

namespace RabbitRs.Buffer

open StepMachine

def Disposal.checked : Disposal → Bool
  | .check _ => false
  | .split _ | .extend _ => true

def DrainPc.rebuffering : DrainPc → Bool
  | .saturated disposal _ | .failed disposal _ => disposal.checked
  | _ => false

def Quiesce.isTeardown : Quiesce → Bool
  | .teardown => true
  | .flush _ | .pop => false

def Quiesce.isPop : Quiesce → Bool
  | .pop => true
  | .flush _ | .teardown => false

def PhpPc.inTeardown : PhpPc → Bool
  | .abortTimers quiesce _ | .resetPending quiesce _ | .takeHandles quiesce _
  | .awaitDrains quiesce _ _ => quiesce.isTeardown
  | .testLeftover _ | .takeLeftover _ | .flushLeftover _ _ => true
  | _ => false

def PhpPc.quiet : PhpPc → Bool
  | .idle | .testEmpty | .flushLeftover _ _ => true
  | .abortTimers quiesce _ | .resetPending quiesce _ | .takeHandles quiesce _
  | .awaitDrains quiesce _ _ => quiesce.isPop
  | _ => false

def PhpPc.lastLook : PhpPc → Bool
  | .testLeftover _ | .takeLeftover _ | .flushLeftover _ _ => true
  | _ => false

def PhpPc.flushesLeftover : PhpPc → Bool
  | .flushLeftover _ _ => true
  | _ => false

def LooksLast (s : State) : PhpPc → Prop
  | .testLeftover _ => s.publishes = []
  | .takeLeftover _ => True
  | _ => False

/-- When the destructor looks at the buffer for the last time, no drain stands between the flag
check of `rebuffer_or_drop` and the append of `rebuffer`. -/
def LastLookClean (s : State) : Event → Prop
  | .php _ => LooksLast s s.php → ∀ drain ∈ s.drains, drain.rebuffering = false
  | _ => True

structure Emptied (s : State) : Prop where
  publishes : s.publishes = []
  drains : ∀ drain ∈ s.drains, drain.rebuffering = false
  php : s.php.quiet = true

structure Winding (s : State) : Prop where
  flag : s.tearingDown = (s.tornDown || s.php.inTeardown)
  emptied : (s.tornDown || s.php.flushesLeftover) = true → Emptied s

section

variable {settings : Settings} {s t : State}

def KeepsCourse (s t : State) (pc later : PhpPc) : Prop :=
  t.tornDown = s.tornDown ∧ later.flushesLeftover = false ∧ (s.tearingDown = (s.tornDown || pc.inTeardown) →
      t.tearingDown = (t.tornDown || later.inTeardown))

theorem flushAnswer_keepsCourse {batch : List Accepted} {resume : Resume} {result : BatchResult}
    {later : PhpPc} (answered : flushAnswer s batch resume result = (t, later)) :
    KeepsCourse s t (.flushing batch resume) later := by
  rcases result with error | _ | ⟨first, rest⟩
  · simp only [flushAnswer] at answered
    split at answered <;> cases answered
    · cases resume <;> exact ⟨rfl, rfl, id⟩
    · exact ⟨rfl, rfl, id⟩
  · cases answered
    cases resume <;> exact ⟨rfl, rfl, id⟩
  · cases answered
    cases resume <;> exact ⟨rfl, rfl, id⟩

theorem phpNext_keepsCourse {pc later : PhpPc} {answer : Answer}
    (next : phpNext settings s pc answer = some (t, later)) (before : pc.lastLook = false) :
    KeepsCourse s t pc later := by
  cases pc <;> cases answer <;>
    simp only [phpNext, reduceCtorEq, Option.some.injEq, Prod.mk.injEq] at next
  case retestOverflow.proceed | awaitPermit.proceed | awaitPermit.timeout =>
    split at next <;> cases next <;> exact ⟨rfl, rfl, id⟩
  case saturated.proceed disposal =>
    split at next <;> cases next <;> rename_i disposed <;>
      obtain ⟨_, _, _, _, rfl⟩ := State.dispose_frame disposed <;> exact ⟨rfl, rfl, id⟩
  case failed.proceed disposal error resume =>
    split at next <;> cases next <;> rename_i disposed <;>
      obtain ⟨_, _, _, _, rfl⟩ := State.dispose_frame disposed
    · exact ⟨rfl, rfl, id⟩
    · cases resume <;> exact ⟨rfl, rfl, id⟩
  case arm.proceed arming saturated =>
    split at next
    · cases next
      obtain ⟨_, _, _, rfl⟩ := State.arm_frame ‹_›
      exact ⟨rfl, rfl, id⟩
    · split at next <;> cases next <;> obtain ⟨_, _, _, rfl⟩ := State.arm_frame ‹_› <;>
        exact ⟨rfl, rfl, id⟩
  case surface.proceed resume =>
    obtain ⟨rfl, rfl⟩ := next
    cases resume <;> exact ⟨rfl, rfl, id⟩
  case awaitDrains.proceed quiesce handles deadline =>
    split at next <;> cases next
    cases quiesce <;> exact ⟨rfl, rfl, id⟩
  case takeAll.proceed resume =>
    obtain ⟨rfl, rfl⟩ := next
    split
    · cases resume <;> exact ⟨rfl, rfl, id⟩
    · exact ⟨rfl, rfl, id⟩
  case flushing.batch batch resume result => exact flushAnswer_keepsCourse next
  case testEmpty.proceed =>
    obtain ⟨rfl, rfl⟩ := next
    refine ⟨rfl, rfl, ?_⟩
    split <;> exact id
  case tearDown.proceed =>
    obtain ⟨rfl, rfl⟩ := next
    exact ⟨rfl, rfl, fun _ => (Bool.or_true _).symm⟩
  case testLeftover.proceed | takeLeftover.proceed | flushLeftover.timeout | flushLeftover.batch =>
    cases before
  all_goals
    obtain ⟨rfl, rfl⟩ := next
    repeat' split
    all_goals exact ⟨rfl, rfl, id⟩

theorem phpNext_lastLook {pc later : PhpPc} {answer : Answer}
    (next : phpNext settings s pc answer = some (t, later)) (looking : pc.lastLook = true)
    (emptied : (s.tornDown || pc.flushesLeftover) = true → s.publishes = [] ∧ pc.quiet = true) :
    t.tearingDown = s.tearingDown ∧ t.drains = s.drains ∧ (t.tornDown || later.inTeardown) = true ∧
      ((t.tornDown || later.flushesLeftover) = true →
        t.publishes = [] ∧ later.quiet = true ∧ (LooksLast s pc ∨ pc.flushesLeftover = true)) := by
  cases pc <;> cases answer <;>
    simp only [phpNext, reduceCtorEq, Option.some.injEq, Prod.mk.injEq] at next
  case testLeftover.proceed deadline =>
    split at next <;> cases next
    · have empty := List.isEmpty_iff.mp ‹_›
      exact ⟨rfl, rfl, rfl, fun _ => ⟨empty, rfl, .inl empty⟩⟩
    · refine ⟨rfl, rfl, Bool.or_true _, fun looked => ?_⟩
      cases (emptied looked).2
  case takeLeftover.proceed deadline =>
    obtain ⟨rfl, rfl⟩ := next
    exact ⟨rfl, rfl, Bool.or_true _, fun _ => ⟨rfl, rfl, .inl trivial⟩⟩
  case flushLeftover.timeout batch deadline =>
    obtain ⟨publishes, -⟩ := emptied (Bool.or_true _)
    split at next <;> cases next
    exact ⟨rfl, rfl, rfl, fun _ => ⟨publishes, rfl, .inr rfl⟩⟩
  case flushLeftover.batch batch deadline result =>
    obtain ⟨publishes, -⟩ := emptied (Bool.or_true _)
    rcases result with error | returned <;> cases next <;>
      exact ⟨rfl, rfl, rfl, fun _ => ⟨publishes, rfl, .inr rfl⟩⟩
  all_goals cases looking

theorem phpNext_emptied {pc later : PhpPc} {answer : Answer}
    (next : phpNext settings s pc answer = some (t, later))
    (publishes : s.publishes = []) (quiet : pc.quiet = true) :
    t.publishes = [] ∧ t.drains = s.drains ∧ later.quiet = true := by
  cases pc <;> cases answer <;>
    simp only [phpNext, reduceCtorEq, Option.some.injEq, Prod.mk.injEq] at next
  case testEmpty.proceed =>
    obtain ⟨rfl, rfl⟩ := next
    refine ⟨publishes, rfl, ?_⟩
    rw [publishes]
    rfl
  case abortTimers.proceed quiesce deadline | resetPending.proceed quiesce deadline |
      takeHandles.proceed quiesce deadline =>
    obtain ⟨rfl, rfl⟩ := next
    exact ⟨publishes, rfl, quiet⟩
  case awaitDrains.proceed quiesce handles deadline =>
    split at next <;> cases next
    cases quiesce <;> first | exact ⟨publishes, rfl, rfl⟩ | cases quiet
  case flushLeftover.timeout batch deadline =>
    split at next <;> cases next
    exact ⟨publishes, rfl, rfl⟩
  case flushLeftover.batch batch deadline result =>
    rcases result with error | returned <;> cases next <;> exact ⟨publishes, rfl, rfl⟩
  all_goals cases quiet

theorem drainNext_emptied {pc later : DrainPc} {answer : Answer}
    (next : drainNext s pc answer = some (t, later)) (flag : s.tearingDown = true)
    (publishes : s.publishes = []) (before : pc.rebuffering = false) :
    t.publishes = [] ∧ later.rebuffering = false := by
  have disposes : ∀ {disposal : Disposal} {u : State} {further : Option Disposal},
      disposal.checked = false → s.dispose disposal = (u, further) → u.publishes = [] ∧ further = none := by
    intro disposal u further unchecked disposed
    cases disposal with
    | check batch =>
      simp only [State.dispose, flag, Bool.true_or, if_true] at disposed
      cases disposed
      exact ⟨publishes, rfl⟩
    | split batch | extend batch => cases unchecked
  cases pc <;> cases answer <;>
    simp only [drainNext, reduceCtorEq, Option.some.injEq, Prod.mk.injEq] at next
  case take.proceed =>
    obtain ⟨rfl, rfl⟩ := next
    rw [publishes]
    exact ⟨rfl, rfl⟩
  case awaitPermit.proceed | awaitPermit.timeout =>
    split at next <;> cases next
    exact ⟨publishes, rfl⟩
  case saturated.proceed disposal messageId | failed.proceed disposal error =>
    split at next <;> cases next <;> rename_i disposed <;>
      obtain ⟨empty, done⟩ := disposes before disposed
    · cases done
    · exact ⟨empty, rfl⟩
  case arm.proceed arming messageId =>
    split at next <;> cases next <;> rename_i armed <;>
      obtain ⟨_, _, _, rfl⟩ := State.arm_frame armed <;> exact ⟨publishes, rfl⟩
  case publishing.batch batch result =>
    rcases result with error | returned
    · simp only at next
      split at next <;> cases next <;> exact ⟨publishes, rfl⟩
    · cases next
      exact ⟨publishes, rfl⟩
  all_goals
    obtain ⟨rfl, rfl⟩ := next
    exact ⟨publishes, rfl⟩

end

theorem Entered.keepsCourse {s : State} {pc : PhpPc} (entered : Entered s pc) :
    pc.inTeardown = false ∧ pc.flushesLeftover = false ∧ (s.tearingDown = true → pc.quiet = true) := by
  cases entered with
  | pop => exact ⟨rfl, rfl, fun _ => rfl⟩
  | _ => exact ⟨rfl, rfl, fun torn => by simp_all⟩

theorem winding_step {settings : Settings} {s t : State} {event : Event} (winding : Winding s)
    (clean : LastLookClean s event) (stepped : Stepped settings s event t) : Winding t := by
  have flag := winding.flag
  cases stepped with
  | tick | closePool =>
    exact ⟨flag, fun looked =>
      ⟨(winding.emptied looked).publishes, (winding.emptied looked).drains,
        (winding.emptied looked).php⟩⟩
  | enter idle entered =>
    obtain ⟨outside, notFlushing, quiet⟩ := entered.keepsCourse
    rw [idle] at flag
    refine ⟨by rw [outside]; exact flag, fun looked => ?_⟩
    rw [notFlushing, Bool.or_false] at looked
    have emptied := winding.emptied (by rw [looked]; rfl)
    refine ⟨emptied.publishes, emptied.drains, quiet ?_⟩
    rw [flag, looked]
    rfl
  | @php answer u later next =>
    cases looking : s.php.lastLook with
    | false =>
      obtain ⟨torn, notFlushing, flagged⟩ := phpNext_keepsCourse next looking
      refine ⟨flagged flag, fun looked => ?_⟩
      rw [notFlushing, Bool.or_false, torn] at looked
      have emptied := winding.emptied (by rw [looked]; rfl)
      obtain ⟨publishes, drains, quiet⟩ := phpNext_emptied next emptied.publishes emptied.php
      exact ⟨publishes, fun drain member => emptied.drains drain (drains ▸ member), quiet⟩
    | true =>
      obtain ⟨tearing, drains, inside, looks⟩ := phpNext_lastLook next looking fun looked =>
        ⟨(winding.emptied looked).publishes, (winding.emptied looked).php⟩
      have teardown : s.php.inTeardown = true := by
        cases at_ : s.php <;> rw [at_] at looking <;> first | rfl | cases looking
      refine ⟨?_, fun looked => ?_⟩
      · rw [inside, tearing, flag, teardown, Bool.or_true]
      · obtain ⟨publishes, quiet, last | flushing⟩ := looks looked
        · exact ⟨publishes, fun drain member => clean last drain (drains ▸ member), quiet⟩
        · have emptied := winding.emptied (by rw [flushing, Bool.or_true])
          exact ⟨publishes, fun drain member => emptied.drains drain (drains ▸ member), quiet⟩
  | @timer i timer u later found next =>
    obtain ⟨_, drains, _, rfl, spawned⟩ := timerNext_frame settings next
    refine ⟨flag, fun looked => ?_⟩
    have emptied := winding.emptied looked
    refine ⟨emptied.publishes, fun drain member => ?_, emptied.php⟩
    rcases spawned with rfl | rfl
    · exact emptied.drains drain member
    · rcases List.mem_append.mp member with old | new
      · exact emptied.drains drain old
      · rw [List.mem_singleton.mp new]
        rfl
  | @drain i answer drain later u found next =>
    obtain ⟨publishes, _, _, _, _, _, _, _, _, _, rfl⟩ := drainNext_frame next
    refine ⟨flag, fun looked => ?_⟩
    have emptied := winding.emptied looked
    have tearing : s.tearingDown = true := by
      rw [flag]
      rcases Bool.or_eq_true_iff.mp looked with torn | flushing
      · rw [torn]
        rfl
      · cases at_ : s.php <;> rw [at_] at flushing <;> first | exact Bool.or_true _ | cases flushing
    obtain ⟨empty, before⟩ := drainNext_emptied next tearing emptied.publishes
      (emptied.drains drain (List.mem_of_getElem? found))
    refine ⟨empty, fun other member => ?_, emptied.php⟩
    rcases List.mem_or_eq_of_mem_set member with old | rfl
    · exact emptied.drains other old
    · exact before

/-- Every accepted publication is buffered, held by one thread, resolved by a batch that
answered `Ok`, or dropped, and in one of these places only; the counters agree. -/
structure Conserved (s : State) : Prop where
  places : ((s.publishes ++ s.php.held ++ s.drains.flatMap DrainPc.held ++ s.completed ++
    s.dropped).map Accepted.ticket).Perm (List.range s.accepted)
  bytes : s.bytes = payloadBytes s.publishes
  counted : s.droppedPublications = s.dropped.length

theorem Accounted.conserved {s : State} (accounted : Accounted s) : Conserved s := by
  refine ⟨List.perm_iff_count.mpr fun ticket => ?_, accounted.bytes, accounted.counted⟩
  rw [← accounted.places ticket]
  have drains := Tally.total_count (fun drain => drain.held.map Accepted.ticket) ticket s.drains
  simp only [State.stored, carried, List.map_append, List.count_append, List.map_flatMap] at *
  omega

/-- In every run each accepted publication is in exactly one place. If moreover no drain is
caught between flag check and append by the destructor's last look, the buffer is empty once
the teardown has run and the drains have finished. -/
theorem publications_conserved {settings : Settings} {s : State}
    (reached : Reachable (machine settings) s) :
    Conserved s ∧ (Reaches (machine settings) LastLookClean s → s.tornDown = true →
        (∀ drain ∈ s.drains, drain.isFinished = true) → s.publishes = []) := by
  refine ⟨(reachable_accounted reached).conserved, fun clean torn _ => ?_⟩
  have winding : Winding s := clean.invariant
    (fun _ initial => by
      subst initial
      exact ⟨rfl, fun looked => by cases looked⟩)
    (fun _ winding allowed stepped => winding_step winding allowed (stepped_of_step stepped))
  exact (winding.emptied (by rw [torn]; rfl)).publishes

def sampleOrder : NativePublish where
  broker := "default"
  request := {
    destination := { exchange := "", routingKey := "orders" }
    payload := [1, 2, 3]
    properties := { messageId := "order-1" }
    deadline := 30000000000 }

def publishOrder : List Event := .publish sampleOrder :: List.replicate 9 (.php .proceed)

/-- The timer of that publication fires after one millisecond and starts a drain, which takes
the batch. -/
def timerStartsDrain : List Event :=
  .tick 1000000 :: List.replicate 5 (.timer 0) ++ List.replicate 2 (.drain 0 .proceed)

/-- A clean run: the destructor finds one publication and its batch is confirmed. -/
theorem order_conserved :
    ∃ s, Reaches (machine { flushInterval := 1000000 }) LastLookClean s ∧ s.tornDown = true ∧
      s.completed.length = 1 ∧ Conserved s ∧ s.publishes = [] := by
  have ran : (run (machine { flushInterval := 1000000 }) (fun s _ => s.drains.isEmpty) {}
      (publishOrder ++ [.destruct] ++ List.replicate 7 (.php .proceed) ++ [.php (.batch (.ok []))])).any
      (fun s => s.tornDown && s.drains.isEmpty && s.completed.length == 1) = true := by
    decide +kernel
  have sound : ∀ (s : State) (event : Event), s.drains.isEmpty = true → LastLookClean s event := by
    intro s event none
    cases event <;> simp_all [LastLookClean]
  obtain ⟨s, reached, done⟩ := exists_of_run sound rfl ran
  simp only [Bool.and_eq_true, List.isEmpty_iff, beq_iff_eq] at done
  obtain ⟨conserved, empty⟩ := publications_conserved reached.reachable
  exact ⟨s, reached, done.1.1, done.2, conserved,
    empty reached done.1.1 (by simp [done.1.2])⟩

def batchFails : Answer := .batch (.error { kind := .transport, message := "connection reset" })

def leftBehind (s : State) : Bool :=
  s.tornDown && s.drains.all DrainPc.isFinished && !s.publishes.isEmpty

/-- A flush takes the handle of the drain and gives up waiting for it when its budget is over. -/
def flushDetachesDrain : List Event :=
  .flush :: List.replicate 3 (.php .proceed) ++ .tick teardownFlushBudget :: List.replicate 4 (.php .proceed)

/-- The drain, detached by a flush, fails late: it reads the flag, then the destructor, which has no
drain to wait for, runs to its end on an empty buffer, then the drain appends. -/
theorem teardown_leaves_publication :
    ∃ s, Reachable (machine { flushInterval := 1000000 }) s ∧ s.tornDown = true ∧
      (∀ drain ∈ s.drains, drain.isFinished = true) ∧ s.publishes ≠ [] := by
  have ran : (run (machine { flushInterval := 1000000 }) (fun _ _ => true) {}
      (publishOrder ++ timerStartsDrain ++ flushDetachesDrain ++
        [.drain 0 batchFails, .drain 0 .proceed, .destruct] ++ List.replicate 6 (.php .proceed) ++
        List.replicate 3 (.drain 0 .proceed))).any
      leftBehind = true := by decide +kernel
  obtain ⟨s, reached, left⟩ := exists_of_run (fun _ _ _ => trivial) rfl ran
  simp only [leftBehind, Bool.and_eq_true, List.all_eq_true, Bool.not_eq_true',
    List.isEmpty_eq_false_iff] at left
  exact ⟨s, reached, left.1.1, left.1.2, left.2⟩

end RabbitRs.Buffer
