import RabbitRs.Buffer.Model

/-!
No accepted publication is lost or duplicated by the buffer: at every point of every run it is
buffered, held by one thread, resolved by a batch, or counted as dropped.
-/

namespace RabbitRs.Buffer

open StepMachine

def carried (ticket : Nat) (batch : List Accepted) : Nat :=
  (batch.map Accepted.ticket).count ticket

@[simp] theorem carried_nil (ticket : Nat) : carried ticket [] = 0 := rfl

@[simp] theorem carried_append (ticket : Nat) (left right : List Accepted) :
    carried ticket (left ++ right) = carried ticket left + carried ticket right := by
  simp [carried]

theorem carried_split (ticket : Nat) (keep : Accepted → Bool) (batch : List Accepted) :
    carried ticket (batch.filter keep) + carried ticket (batch.filter fun publish => !keep publish) =
      carried ticket batch := by
  induction batch with
  | nil => rfl
  | cons first rest ih =>
    simp only [carried] at ih ⊢
    cases kept : keep first <;> simp [kept, List.count_cons] <;> omega

def State.stored (s : State) (ticket : Nat) : Nat :=
  carried ticket s.publishes + Tally.total (fun drain => carried ticket drain.held) s.drains +
    carried ticket s.completed + carried ticket s.dropped

structure Moves (s t : State) (before after : List Accepted) : Prop where
  places : ∀ ticket, t.stored ticket + carried ticket after + (List.range s.accepted).count ticket =
    s.stored ticket + carried ticket before + (List.range t.accepted).count ticket
  bytes : s.bytes = payloadBytes s.publishes → t.bytes = payloadBytes t.publishes
  counted : s.droppedPublications = s.dropped.length → t.droppedPublications = t.dropped.length

section

variable {s t u : State} {before between after : List Accepted}

theorem Moves.trans (first : Moves s t before between) (second : Moves t u between after) :
    Moves s u before after where
  places ticket := by
    have := first.places ticket
    have := second.places ticket
    omega
  bytes h := second.bytes (first.bytes h)
  counted h := second.counted (first.counted h)

theorem Moves.refl (held : List Accepted) : Moves s s held held :=
  ⟨fun _ => rfl, id, id⟩

theorem State.push_moves (publish : NativePublish) : Moves s (s.push publish) [] [] where
  places ticket := by
    simp only [State.stored, State.push, carried_append, List.range_succ, List.count_append]
    simp only [carried, List.map_cons, List.map_nil]
    omega
  bytes h := by
    rw [payloadBytes] at h
    simp [State.push, payloadBytes, h]
  counted := id

theorem State.take_moves : Moves s s.take [] s.publishes where
  places ticket := by
    simp only [State.stored, State.take, carried_nil]
    omega
  bytes _ := rfl
  counted := id

theorem State.drop_moves (batch : List Accepted) : Moves s (s.drop batch) batch [] where
  places ticket := by
    simp only [State.stored, State.drop, carried_append, carried_nil]
    omega
  bytes := id
  counted h := by simp [State.drop, h]

theorem State.complete_moves (batch : List Accepted) : Moves s (s.complete batch) batch [] where
  places ticket := by
    simp only [State.stored, State.complete, carried_append, carried_nil]
    omega
  bytes := id
  counted := id

theorem Moves.raise (moved : Moves s t before after) (resume : Resume)
    (error : PendingPublishError) : Moves s (t.raise resume error) before after :=
  moved.trans ⟨fun _ => rfl, id, id⟩

theorem Moves.recordErrors (moved : Moves s t before after) (errors : List PendingPublishError) :
    Moves s (t.recordErrors errors) before after :=
  moved.trans ⟨fun _ => rfl, id, id⟩

theorem State.dispose_moves {disposal : Disposal} {later : Option Disposal}
    (disposed : s.dispose disposal = (t, later)) :
    Moves s t disposal.held ((later.map Disposal.held).getD []) := by
  cases disposal with
  | check batch =>
    simp only [State.dispose] at disposed
    split at disposed <;> obtain ⟨rfl, rfl⟩ := Prod.mk.inj disposed
    · exact State.drop_moves batch
    · exact Moves.refl batch
  | split batch =>
    obtain ⟨rfl, rfl⟩ := Prod.mk.inj disposed
    refine ⟨fun ticket => ?_, id, fun h => by simp [State.drop, h]⟩
    have := carried_split ticket (expired s.clock) batch
    simp only [State.stored, State.drop, carried_append, Option.map_some, Option.getD_some,
      Disposal.held]
    omega
  | extend batch =>
    obtain ⟨rfl, rfl⟩ := Prod.mk.inj disposed
    refine ⟨fun ticket => ?_, fun h => by simp [payloadBytes, h], id⟩
    simp only [State.stored, carried_append, Option.map_none, Option.getD_none, carried_nil,
      Disposal.held]
    omega

theorem State.arm_moves {arming : Arming} {later : Option Arming}
    (armed : s.arm arming = (t, later)) (held : List Accepted) : Moves s t held held := by
  cases arming with
  | swap =>
    simp only [State.arm] at armed
    split at armed <;> obtain ⟨rfl, -⟩ := Prod.mk.inj armed <;> exact ⟨fun _ => rfl, id, id⟩
  | spawn | push timer =>
    obtain ⟨rfl, -⟩ := Prod.mk.inj armed
    exact ⟨fun _ => rfl, id, id⟩

variable {settings : Settings}

theorem Resume.next_held (resume : Resume) : resume.next.held = [] := by cases resume <;> rfl

theorem Resume.succeeded_held (resume : Resume) : resume.succeeded.held = [] := by
  cases resume <;> rfl

theorem flushAnswer_moves (batch : List Accepted) (resume : Resume) (result : BatchResult) :
    Moves s (flushAnswer s batch resume result).1 batch (flushAnswer s batch resume result).2.held := by
  rcases result with error | _ | ⟨first, rest⟩
  · simp only [flushAnswer]
    split
    · rw [resume.next_held]
      exact (State.drop_moves batch).raise resume _
    · exact Moves.refl batch
  · simp only [flushAnswer, resume.succeeded_held]
    exact State.complete_moves batch
  · simp only [flushAnswer, resume.next_held]
    exact ((State.complete_moves batch).recordErrors _).raise resume _

theorem spawnDrain_moves (batch : List Accepted) (permits : Nat) :
    Moves s { s with drainPermits := permits, drains := s.drains ++ [.publishing batch] } batch []
    where
  places ticket := by
    simp only [State.stored, Tally.total_append, Tally.total_cons, Tally.total_nil, DrainPc.held,
      carried_nil]
    omega
  bytes := id
  counted := id

theorem phpNext_moves {pc later : PhpPc} {answer : Answer}
    (next : phpNext settings s pc answer = some (t, later)) : Moves s t pc.held later.held := by
  have taken : s.publishes.isEmpty = true → Moves s s.take [] [] := fun empty => by
    have := State.take_moves (s := s)
    rwa [List.isEmpty_iff.mp empty] at this
  cases pc <;> cases answer <;>
    simp only [phpNext, reduceCtorEq, Option.some.injEq, Prod.mk.injEq] at next
  case testOverflow.proceed publish =>
    obtain ⟨rfl, rfl⟩ := next
    split
    · split <;> exact Moves.refl []
    · exact Moves.refl []
  case retestOverflow.proceed publish =>
    split at next <;> obtain ⟨rfl, rfl⟩ := Prod.mk.inj (Option.some.inj next)
    · exact (Moves.refl []).raise _ _
    · exact Moves.refl []
  case enqueue.proceed publish =>
    obtain ⟨rfl, rfl⟩ := next
    split <;> exact State.push_moves publish
  case armClock.proceed | registerDrain.proceed drain =>
    obtain ⟨rfl, rfl⟩ := next
    exact ⟨fun _ => rfl, id, id⟩
  case testLength.proceed started =>
    obtain ⟨rfl, rfl⟩ := next
    split <;> exact Moves.refl []
  case testAge.proceed started =>
    obtain ⟨rfl, rfl⟩ := next
    split
    · exact Moves.refl []
    · split <;> exact Moves.refl []
  case takeTriggered.proceed =>
    obtain ⟨rfl, rfl⟩ := next
    split
    · exact taken ‹_›
    · exact State.take_moves
  case awaitPermit.proceed batch deadline =>
    split at next <;> cases next
    exact spawnDrain_moves batch _
  case awaitPermit.timeout batch deadline =>
    split at next <;> cases next
    exact Moves.refl batch
  case saturated.proceed disposal =>
    split at next <;> cases next <;> exact State.dispose_moves ‹_›
  case arm.proceed arming saturated =>
    split at next
    · cases next
      exact State.arm_moves ‹_› []
    · split at next <;> cases next
      · exact (State.arm_moves ‹_› []).raise _ _
      · exact State.arm_moves ‹_› []
  case surface.proceed resume =>
    obtain ⟨rfl, rfl⟩ := next
    rw [resume.next_held]
    exact ⟨fun _ => rfl, id, id⟩
  case drainErrors.proceed | abortTimers.proceed | resetPending.proceed | takeHandles.proceed |
      resetClock.proceed | closeClaim.proceed | tearDown.proceed =>
    obtain ⟨rfl, rfl⟩ := next
    exact ⟨fun _ => rfl, id, id⟩
  case awaitDrains.proceed quiesce handles deadline =>
    split at next <;> cases next
    cases quiesce <;> exact Moves.refl []
  case takeAll.proceed resume =>
    obtain ⟨rfl, rfl⟩ := next
    split
    · rw [resume.succeeded_held]
      exact taken ‹_›
    · exact State.take_moves
  case flushing.batch batch resume result =>
    have answered := flushAnswer_moves (s := s) batch resume result
    rwa [next] at answered
  case failed.proceed disposal error resume =>
    split at next <;> cases next
    · exact State.dispose_moves ‹_›
    · rw [resume.next_held]
      exact (State.dispose_moves ‹_›).raise _ _
  case testEmpty.proceed =>
    obtain ⟨rfl, rfl⟩ := next
    exact Moves.refl []
  case testLeftover.proceed deadline =>
    split at next <;> cases next
    · exact ⟨fun _ => rfl, id, id⟩
    · exact Moves.refl []
  case takeLeftover.proceed deadline =>
    obtain ⟨rfl, rfl⟩ := next
    exact State.take_moves
  case flushLeftover.timeout batch deadline =>
    split at next <;> cases next
    exact (State.drop_moves batch).trans ⟨fun _ => rfl, id, id⟩
  case flushLeftover.batch batch deadline result =>
    rcases result with error | returned <;> cases next
    · exact (State.drop_moves batch).trans ⟨fun _ => rfl, id, id⟩
    · have completed := (State.complete_moves (s := s) batch).recordErrors
        (returned.map Returned.error)
      exact completed.trans ⟨fun _ => rfl, id, id⟩

theorem drainNext_moves {pc later : DrainPc} {answer : Answer}
    (next : drainNext s pc answer = some (t, later)) : Moves s t pc.held later.held := by
  cases pc <;> cases answer <;>
    simp only [drainNext, reduceCtorEq, Option.some.injEq, Prod.mk.injEq] at next
  case take.proceed =>
    obtain ⟨rfl, rfl⟩ := next
    have taken := State.take_moves (s := s)
    split
    · rename_i empty
      rwa [List.isEmpty_iff.mp empty] at taken
    · exact taken
  case awaitPermit.proceed batch deadline =>
    split at next <;> cases next
    exact ⟨fun _ => rfl, id, id⟩
  case awaitPermit.timeout batch deadline =>
    split at next <;> cases next
    exact Moves.refl batch
  case saturated.proceed disposal messageId | failed.proceed disposal error =>
    split at next <;> cases next <;> exact State.dispose_moves ‹_›
  case arm.proceed arming messageId =>
    split at next <;> cases next <;> exact State.arm_moves ‹_› []
  case reportSaturation.proceed messageId =>
    obtain ⟨rfl, rfl⟩ := next
    exact (Moves.refl []).recordErrors _
  case publishing.batch batch result =>
    rcases result with error | returned
    · simp only at next
      split at next <;> cases next
      · exact State.drop_moves batch
      · exact Moves.refl batch
    · cases next
      exact State.complete_moves batch
  case report.proceed errors =>
    obtain ⟨rfl, rfl⟩ := next
    exact ((Moves.refl []).recordErrors errors).trans ⟨fun _ => rfl, id, id⟩

theorem timerNext_moves {timer : Timer} {later : TimerPc} (held : List Accepted)
    (next : timerNext settings s timer = some (t, later)) : Moves s t held held := by
  obtain ⟨_, _, _, rfl, rfl | rfl⟩ := timerNext_frame settings next
  · exact ⟨fun _ => rfl, id, id⟩
  · refine ⟨fun ticket => ?_, id, id⟩
    simp [State.stored, DrainPc.held]

end

/-- Every accepted publication is in exactly one place, and the two counters agree with what
they count. -/
structure Accounted (s : State) : Prop where
  places : ∀ ticket, s.stored ticket + carried ticket s.php.held = (List.range s.accepted).count ticket
  bytes : s.bytes = payloadBytes s.publishes
  counted : s.droppedPublications = s.dropped.length

theorem Accounted.moves {s t : State} {before after : List Accepted}
    (moved : Moves s t before after)
    (accounted : ∀ ticket, s.stored ticket + carried ticket before =
      (List.range s.accepted).count ticket) (ticket : Nat) :
    t.stored ticket + carried ticket after = (List.range t.accepted).count ticket := by
  have := moved.places ticket
  have := accounted ticket
  omega

theorem Entered.held {s : State} {pc : PhpPc} (entered : Entered s pc) : pc.held = [] := by
  cases entered <;> rfl

theorem accounted_step {settings : Settings} {s t : State} {event : Event}
    (accounted : Accounted s) (stepped : Stepped settings s event t) : Accounted t := by
  cases stepped with
  | tick | closePool => exact ⟨accounted.places, accounted.bytes, accounted.counted⟩
  | enter idle entered =>
    refine ⟨fun ticket => ?_, accounted.bytes, accounted.counted⟩
    have before := accounted.places ticket
    rw [idle] at before
    rw [entered.held]
    exact before
  | php next =>
    have moved := phpNext_moves next
    have places := Accounted.moves moved accounted.places
    exact ⟨places, moved.bytes accounted.bytes, moved.counted accounted.counted⟩
  | @timer i timer u later found next =>
    have moved := timerNext_moves s.php.held next
    refine ⟨fun ticket => ?_, moved.bytes accounted.bytes, moved.counted accounted.counted⟩
    have after := Accounted.moves moved accounted.places ticket
    obtain ⟨_, _, _, rfl, _⟩ := timerNext_frame settings next
    exact after
  | @drain i answer drain later u found next =>
    have moved := drainNext_moves next
    refine ⟨fun ticket => ?_, moved.bytes accounted.bytes, moved.counted accounted.counted⟩
    have moves := moved.places ticket
    have places := accounted.places ticket
    have replaced := Tally.total_set (fun drain => carried ticket drain.held) later found
    obtain ⟨_, _, _, _, _, _, _, _, _, _, rfl⟩ := drainNext_frame next
    simp only [State.stored] at *
    omega

theorem reachable_accounted {settings : Settings} {s : State}
    (reached : Reachable (machine settings) s) : Accounted s :=
  reached.invariant
    (fun _ initial => by
      subst initial
      exact ⟨fun _ => rfl, rfl, rfl⟩)
    (fun _ accounted _ stepped => accounted_step accounted (stepped_of_step stepped))

end RabbitRs.Buffer
