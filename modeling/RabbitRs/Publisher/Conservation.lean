import RabbitRs.Publisher.Frames

/-!
Every publication `try_publish` accepted is in exactly one place of the actor or has been resolved,
once.
-/

namespace RabbitRs.Publisher

open StepMachine Keyed

def ofTicket (ticket : Nat) (retained : RetainedPublish) : Nat :=
  if retained.ticket = ticket then 1 else 0

def carried (ticket : Nat) (batch : List RetainedPublish) : Nat :=
  Tally.total (ofTicket ticket) batch

theorem carried_eq_count (ticket : Nat) (batch : List RetainedPublish) :
    carried ticket batch = (batch.map RetainedPublish.ticket).count ticket := by
  induction batch with
  | nil => rfl
  | cons first rest ih =>
    rw [carried, Tally.total_cons, ← carried, ih, List.map_cons, List.count_cons, ofTicket]
    simp only [beq_iff_eq]
    omega

@[simp] theorem carried_nil (ticket : Nat) : carried ticket [] = 0 := rfl

theorem carried_cons (ticket : Nat) (first : RetainedPublish) (rest : List RetainedPublish) :
    carried ticket (first :: rest) = carried ticket [first] + carried ticket rest := by
  simp [carried]

@[simp] theorem carried_append (ticket : Nat) (left right : List RetainedPublish) :
    carried ticket (left ++ right) = carried ticket left + carried ticket right :=
  Tally.total_append _ left right

def State.stored (s : State) (ticket : Nat) : Nat :=
  carried ticket (s.commands.filterMap Command.publication) + carried ticket s.replay +
    carried ticket (values s.publishing) +
    carried ticket ((values s.ledger).map InFlightPublish.retained) +
    (s.resolved.map Prod.fst).count ticket

def Command.held (command : Command) : List RetainedPublish := command.publication.toList

def Resume.held : Resume → List RetainedPublish
  | .deferred (some command) => command.held
  | .deferred none | .recovered _ | .closing _ _ => []

def Mode.held : Mode → List RetainedPublish
  | .draining pending _ resume => pending ++ resume.held
  | .declaring item _ _ pending resume => item :: pending ++ resume.held
  | .handling command => command.held
  | _ => []

def State.occurrences (s : State) (ticket : Nat) : Nat :=
  s.stored ticket + carried ticket s.mode.held

section

variable (s : State) (ticket : Nat)

@[simp] theorem resolveAll_stored (batch : List RetainedPublish) (outcome : RetainedPublish → Outcome) :
    (s.resolveAll batch outcome).stored ticket = s.stored ticket + carried ticket batch := by
  have sent : ((batch.map fun retained => (retained.ticket, outcome retained)).map Prod.fst).count
      ticket = carried ticket batch := by
    rw [carried_eq_count, List.map_map]
    rfl
  simp only [State.stored, State.resolveAll, List.map_append, List.count_append, sent]
  omega

@[simp] theorem completeError_stored (retained : RetainedPublish) (error : PublishError) :
    (s.completeError retained error).stored ticket = s.stored ticket + carried ticket [retained] :=
  resolveAll_stored s ticket [retained] _

theorem suspend_stored (generation : Nat) : (s.suspend generation).stored ticket = s.stored ticket := by
  have sorted := Tally.total_perm (ofTicket ticket) (List.perm_insertionSort sequenceOrder
    (s.replay ++ values s.publishing ++ (values s.ledger).map InFlightPublish.retained))
  simp only [State.stored, State.suspend, carried, values_empty, List.map_nil, Tally.total_nil,
    sorted, Tally.total_append]
  omega

theorem failAll_stored (error : PublishError) : (s.failAll error).stored ticket = s.stored ticket := by
  rw [State.failAll, resolveAll_stored]
  simp only [State.stored, values_empty, List.map_nil, carried_nil, carried_append]
  omega

theorem expireReplay_stored : s.expireReplay.stored ticket = s.stored ticket := by
  have rearmed : ∀ batch : List RetainedPublish,
      carried ticket (batch.map (rearm s.clock)) = carried ticket batch := by
    intro batch
    rw [carried_eq_count, carried_eq_count, List.map_map]
    congr 2
    funext retained
    simp only [Function.comp_apply, rearm]
    split <;> rfl
  have parted := Tally.total_filter (ofTicket ticket) (lost s.clock) s.replay
  rw [State.expireReplay, resolveAll_stored]
  simp only [State.stored, rearmed]
  simp only [carried] at parted ⊢
  omega

theorem insertPublishing_stored (sequence : Nat) (retained : RetainedPublish) :
    (s.insertPublishing sequence retained).stored ticket = s.stored ticket + carried ticket [retained] := by
  have inserted := total_insert (ofTicket ticket) s.publishing sequence retained
  rw [State.insertPublishing, resolveAll_stored]
  simp only [State.stored, carried, Tally.total_cons, Tally.total_nil]
  omega

theorem insertLedger_stored (sequence : Nat) (entry : InFlightPublish) :
    (s.insertLedger sequence entry).stored ticket = s.stored ticket + carried ticket [entry.retained] := by
  have inserted := total_insert (fun entry => ofTicket ticket entry.retained) s.ledger sequence entry
  rw [State.insertLedger, resolveAll_stored]
  simp only [State.stored, carried, Tally.total_map, Tally.total_cons, Tally.total_nil]
  omega

theorem erasePublishing_stored {sequence : Nat} {retained : RetainedPublish}
    (found : s.publishing.lookup sequence = some retained) :
    { s with publishing := s.publishing.erase sequence }.stored ticket + carried ticket [retained] =
      s.stored ticket := by
  have erased := total_erase (ofTicket ticket) found
  simp only [State.stored, carried, Tally.total_cons, Tally.total_nil]
  omega

theorem eraseLedger_stored {sequence : Nat} {entry : InFlightPublish}
    (found : s.ledger.lookup sequence = some entry) :
    { s with ledger := s.ledger.erase sequence }.stored ticket + carried ticket [entry.retained] =
      s.stored ticket := by
  have erased := total_erase (fun entry => ofTicket ticket entry.retained) found
  simp only [State.stored, carried, Tally.total_map, Tally.total_cons, Tally.total_nil]
  omega

theorem replay_stored (batch : List RetainedPublish) :
    { s with replay := s.replay ++ batch }.stored ticket = s.stored ticket + carried ticket batch := by
  simp only [State.stored, carried_append]
  omega

theorem takeReplay_stored :
    { s with replay := [] }.stored ticket + carried ticket s.replay = s.stored ticket := by
  simp only [State.stored, carried_nil]
  omega

end

section

variable {sha256 : Bytes → Bytes} {settings : Settings} {s t : State} {event : Event} (ticket : Nat)

theorem Done.stored {write : PendingWrite} {outcome : WireWriteOutcome} (done : Done settings s write outcome t) :
    t.stored ticket = s.stored ticket := by
  cases done with
  | unknown _ => rfl
  | awaits found _ =>
    exact (insertLedger_stored { s with publishing := s.publishing.erase write.sequence } ticket _ _).trans
      (erasePublishing_stored s ticket found)
  | resolves found _ => exact (resolveAll_stored _ ticket _ _).trans (erasePublishing_stored s ticket found)
  | suspends found _ =>
    refine (suspend_stored _ ticket s.generation).trans ?_
    exact (replay_stored { s with publishing := s.publishing.erase write.sequence } ticket _).trans
      (erasePublishing_stored s ticket found)

theorem resume_occurrences (resume : Resume) :
    (s.resume resume).occurrences ticket = s.stored ticket + carried ticket resume.held := by
  rcases resume with (_ | command) | reply | ⟨deadline, reply⟩ <;> rfl

theorem occurrences_of_mode {mode : Mode} (same : s.mode = mode) :
    s.occurrences ticket = s.stored ticket + carried ticket mode.held := by
  rw [State.occurrences, same]

theorem draining_occurrences {pending : List RetainedPublish} {now : Nat} {resume : Resume}
    (draining : s.mode = .draining pending now resume) :
    s.occurrences ticket = s.stored ticket + carried ticket pending + carried ticket resume.held := by
  rw [occurrences_of_mode ticket draining, Mode.held, carried_append, Nat.add_assoc]

theorem failItem_occurrences (item : RetainedPublish) (error : PublishError)
    (pending : List RetainedPublish) (now : Nat) (resume : Resume) :
    ({ s with mode := .draining pending now resume }.completeError item error).occurrences ticket =
      s.stored ticket + carried ticket (item :: pending) + carried ticket resume.held := by
  have before : ({ s with mode := .draining pending now resume }.completeError item error).stored ticket =
      s.stored ticket + carried ticket [item] := completeError_stored _ ticket item error
  have drains := draining_occurrences ticket
    (s := { s with mode := .draining pending now resume }.completeError item error) rfl
  rw [carried_cons]
  omega

theorem Tries.occurrences {item : RetainedPublish} {channel : Channel} {pending : List RetainedPublish}
    {resume : Resume} {poll : FirstPoll} (tries : Tries sha256 settings s item channel pending resume poll t) :
    t.occurrences ticket = s.stored ticket + carried ticket (item :: pending) + carried ticket resume.held := by
  have filed (request : TransportPublish) : (s.written item channel pending resume request).stored ticket =
      s.stored ticket + carried ticket [item] :=
    insertPublishing_stored (s.numbered pending resume) ticket _ { item with sequence := s.nextSequence }
  have whole := carried_cons ticket item pending
  cases tries with
  | unroutable => exact failItem_occurrences ticket _ _ pending _ resume
  | @answered request result t _ done _ | @late request t _ done =>
    have drains := draining_occurrences ticket (done.keeps.mode.trans rfl)
    rw [done.stored ticket, filed] at drains
    omega
  | @broken request result u _ done _ =>
    have parked := replay_stored u ticket pending
    have stored := done.stored ticket
    rw [filed] at stored
    rw [resume_occurrences]
    omega
  | @waits request _ =>
    have drains := draining_occurrences ticket (s := { s.written item channel pending resume request with
      publishInFlight := s.publishInFlight ++ [s.writeOf settings item channel] }) rfl
    have stored : State.stored { s.written item channel pending resume request with
        publishInFlight := s.publishInFlight ++ [s.writeOf settings item channel] } ticket =
        (s.written item channel pending resume request).stored ticket := rfl
    rw [filed] at stored
    omega

theorem acceptPublish_occurrences (pending : List RetainedPublish) (resume : Resume) :
    (acceptPublish s pending resume).occurrences ticket =
      s.stored ticket + carried ticket pending + carried ticket resume.held := by
  unfold acceptPublish
  split
  · exact draining_occurrences ticket (s := { s with mode := .draining pending s.clock resume }) rfl
  · rw [resume_occurrences, replay_stored]
  · rw [resume_occurrences, resolveAll_stored]

theorem adopt_occurrences (generation : Nat) (channel : Channel) (reply : Nat) :
    (s.adopt generation channel reply).occurrences ticket = s.stored ticket := by
  have expired := expireReplay_stored { s with
    generation, channel := some channel, phase := .ready, permanentError := none } ticket
  have taken := takeReplay_stored { s with
    generation, channel := some channel, phase := .ready, permanentError := none }.expireReplay ticket
  have drains := draining_occurrences ticket (s := s.adopt generation channel reply) rfl
  exact drains.trans ((congrArg (· + 0) taken).trans expired)

theorem stop_occurrences : s.stop.occurrences ticket = s.stored ticket := by
  have sent := resolveAll_stored
    { s with mode := .stopped, commands := [], replies := s.replies ++ s.commands.filterMap Command.dropped }
    ticket (s.commands.filterMap Command.publication) fun _ => .error droppedWaiter
  refine sent.trans ?_
  simp only [State.stored, List.filterMap_nil, carried_nil]
  omega

theorem finishClose_occurrences (reply : Nat) : (s.finishClose reply).occurrences ticket = s.stored ticket := by
  have failed := failAll_stored s ticket
    (closedError "publisher actor was closed before the publication could be attempted")
  unfold State.finishClose
  dsimp only
  split
  · rw [stop_occurrences]
    exact failed
  · exact failed

theorem Handles.occurrences {command : Command} (handles : Handles settings s command t) :
    t.occurrences ticket = s.stored ticket + carried ticket command.held := by
  cases handles with
  | publish => exact acceptPublish_occurrences ticket _ _
  | @recovering generation _ => exact suspend_stored s ticket generation
  | refuses | enables => rfl
  | @adopts generation reply channel _ _ => exact adopt_occurrences ticket generation channel reply
  | fails => exact failAll_stored s ticket _
  | @flushes reply deadline _ =>
    have drains := draining_occurrences ticket (s := { s with
      replay := [], mode := .draining s.replay s.clock (.closing deadline reply) }) rfl
    exact drains.trans (congrArg (· + 0) (takeReplay_stored s ticket))
  | closes => exact finishClose_occurrences ticket _

theorem leadingPublishes_carried (commands : List Command) : carried ticket (leadingPublishes commands).1 +
        carried ticket ((leadingPublishes commands).2.filterMap Command.publication) =
      carried ticket (commands.filterMap Command.publication) := by
  induction commands with
  | nil => rfl
  | cons command rest ih =>
    cases command with
    | publish retained =>
      have batch := carried_cons ticket retained (leadingPublishes rest).1
      have queue := carried_cons ticket retained (rest.filterMap Command.publication)
      simp only [leadingPublishes, List.filterMap_cons, Command.publication]
      omega
    | connectionEvent event reply | close reply => exact Nat.zero_add _

theorem deferred_carried (commands : List Command) : carried ticket (Resume.deferred commands.head?).held +
        carried ticket (commands.tail.filterMap Command.publication) =
      carried ticket (commands.filterMap Command.publication) := by
  cases commands with
  | nil => rfl
  | cons command rest =>
    have split : (command :: rest).filterMap Command.publication =
        command.held ++ rest.filterMap Command.publication := by
      cases command <;> rfl
    rw [split, carried_append]
    rfl

theorem takeCommands_stored (left : List Command) : { s with commands := left }.stored ticket +
        carried ticket (s.commands.filterMap Command.publication) =
      s.stored ticket + carried ticket (left.filterMap Command.publication) := by
  simp only [State.stored]
  omega

end

def Accounted (s : State) : Prop :=
  ∀ ticket, s.occurrences ticket = if ticket < s.accepted then 1 else 0

section

variable {sha256 : Bytes → Bytes} {settings : Settings} {s t : State} {event : Event}

theorem batch_occurrences (ticket : Nat) {retained : RetainedPublish} {rest : List Command}
    (idle : s.mode = .idle) (queued : s.commands = .publish retained :: rest) :
    (acceptPublish { s with commands := (leadingPublishes rest).2.tail } (retained :: (leadingPublishes rest).1)
      (.deferred (leadingPublishes rest).2.head?)).occurrences ticket = s.occurrences ticket := by
  have taken := takeCommands_stored (s := s) ticket (leadingPublishes rest).2.tail
  have batch := leadingPublishes_carried ticket rest
  have deferred := deferred_carried ticket (leadingPublishes rest).2
  have first : carried ticket (s.commands.filterMap Command.publication) =
      carried ticket [retained] + carried ticket (rest.filterMap Command.publication) := by
    rw [queued]
    exact carried_cons ticket retained _
  rw [acceptPublish_occurrences, carried_cons ticket retained, occurrences_of_mode ticket idle]
  change _ = s.stored ticket + 0
  omega

theorem command_occurrences (ticket : Nat) {command : Command} {rest : List Command}
    (idle : s.mode = .idle) (queued : s.commands = command :: rest)
    (handles : Handles settings { s with commands := rest } command t) :
    t.occurrences ticket = s.occurrences ticket := by
  have taken := takeCommands_stored (s := s) ticket rest
  have whole := deferred_carried ticket (command :: rest)
  rw [queued] at taken
  simp only [List.head?_cons, List.tail_cons, Resume.held] at whole
  rw [handles.occurrences, occurrences_of_mode ticket idle]
  change _ = s.stored ticket + 0
  omega

theorem Turns.moves (turns : Turns sha256 settings s event t) (quiet : ∀ request, event ≠ .publish request)
    (ticket : Nat) : t.accepted = s.accepted ∧ t.occurrences ticket = s.occurrences ticket := by
  -- the batch and the containers change separately
  have kept {u : State} (mode : u.mode = s.mode) (stored : u.stored ticket = s.stored ticket) :
      u.occurrences ticket = s.occurrences ticket := by
    rw [State.occurrences, mode, stored]
    rfl
  cases turns
  case publish request _ => exact absurd rfl (quiet request)
  case tick | dropHandles => exact ⟨rfl, rfl⟩
  case connectionEvent | close =>
    refine ⟨rfl, kept rfl ?_⟩
    simp only [State.stored, List.filterMap_append, carried_append]
    rfl
  case orphaned idle _ _ =>
    refine ⟨rfl, ?_⟩
    rw [stop_occurrences, failAll_stored, occurrences_of_mode ticket idle]
    rfl
  case batch idle queued => exact ⟨(acceptPublish_passes _ _).1.accepted, batch_occurrences ticket idle queued⟩
  case command idle queued _ handles =>
    exact ⟨handles.passes.accepted, command_occurrences ticket idle queued handles⟩
  case expire => exact ⟨rfl, kept rfl (expireReplay_stored s ticket)⟩
  case written index write outcome found polls done =>
    exact ⟨done.keeps.accepted, kept done.keeps.mode (done.stored ticket)⟩
  case stale => exact ⟨rfl, rfl⟩
  case confirms index confirmation result entry found polls known _ _ =>
    exact ⟨rfl, kept rfl ((resolveAll_stored _ ticket _ _).trans (eraseLedger_stored s ticket known))⟩
  case loses index confirmation result entry found polls known _ _ =>
    refine ⟨rfl, kept rfl ((suspend_stored _ ticket _).trans ?_)⟩
    exact (replay_stored { s with ledger := s.ledger.erase confirmation.sequence } ticket _).trans
      (eraseLedger_stored s ticket known)
  case started mode | unstarted mode | unenabled mode | declares mode _ _ =>
    refine ⟨rfl, ?_⟩
    rw [occurrences_of_mode ticket mode]
    rfl
  case enabled mode =>
    refine ⟨rfl, ?_⟩
    rw [adopt_occurrences, occurrences_of_mode ticket mode]
    rfl
  case undeclared mode =>
    refine ⟨rfl, ?_⟩
    rw [failItem_occurrences, occurrences_of_mode ticket mode, Mode.held, carried_append, Nat.add_assoc]
  case declared mode tries =>
    refine ⟨tries.writes.accepted, ?_⟩
    rw [tries.occurrences, occurrences_of_mode ticket mode, Mode.held, carried_append, ← Nat.add_assoc]
    rfl
  case drained mode =>
    refine ⟨(resume_passes _).1.accepted, ?_⟩
    rw [resume_occurrences, draining_occurrences ticket mode]
    rfl
  case drops mode _ =>
    refine ⟨rfl, ?_⟩
    rw [failItem_occurrences, draining_occurrences ticket mode]
  case parks mode _ =>
    refine ⟨(resume_passes _).1.accepted, ?_⟩
    rw [resume_occurrences, replay_stored, draining_occurrences ticket mode]
  case tries mode _ _ _ tries =>
    exact ⟨tries.writes.accepted, (tries.occurrences ticket).trans (draining_occurrences ticket mode).symm⟩
  case handled mode handles =>
    refine ⟨handles.passes.accepted, ?_⟩
    rw [handles.occurrences, occurrences_of_mode ticket mode]
    rfl
  case quiesced mode =>
    refine ⟨(finishClose_passes _).1.accepted, ?_⟩
    rw [finishClose_occurrences, occurrences_of_mode ticket mode]
    rfl
  case channelClosed mode =>
    refine ⟨rfl, ?_⟩
    rw [stop_occurrences, occurrences_of_mode ticket mode]
    rfl

theorem tryPublish_accounted {request : PublishRequest} (turns : Turns sha256 settings s (.publish request) t)
    (accounted : Accounted s) : Accounted t := by
  cases turns
  intro ticket
  have fresh : ∀ retained : RetainedPublish, retained.ticket = s.accepted →
      carried ticket [retained] = if s.accepted = ticket then 1 else 0 := by
    rintro retained ticketed
    rw [← ticketed]
    rfl
  have before := accounted ticket
  simp only [State.occurrences, State.stored] at before ⊢
  rw [List.filterMap_append, carried_append]
  simp only [List.filterMap_cons, Command.publication, List.filterMap_nil]
  rw [fresh _ rfl]
  split at before <;> split <;> split <;> omega

theorem reachable_accounted (reached : Reachable (machine sha256 settings) s) : Emptied s ∧ Accounted s := by
  have initially : ∀ s, (machine sha256 settings).Initial s → Emptied s ∧ Accounted s := by
    rintro s ⟨channel, rfl⟩
    unfold initial
    split <;> exact ⟨trivial, fun ticket => rfl⟩
  have kept := reached.invariant initially (fun {s t event} _ known _ next => ?_)
  · exact kept
  · have turns := step_turns next
    refine ⟨turns.emptied known.1, ?_⟩
    by_cases publishes : ∃ request, event = .publish request
    · obtain ⟨request, rfl⟩ := publishes
      exact tryPublish_accounted turns known.2
    · intro ticket
      obtain ⟨accepted, same⟩ := turns.moves (fun request same => publishes ⟨request, same⟩) ticket
      rw [same, accepted]
      exact known.2 ticket

/-- The tickets in the command queue, the batch, `replay`, `publishing`, the ledger, and those
resolved. -/
def State.places (s : State) : List Nat :=
  (s.commands.filterMap Command.publication ++ s.mode.held ++ s.replay ++ values s.publishing ++
    (values s.ledger).map InFlightPublish.retained).map RetainedPublish.ticket ++
    s.resolved.map Prod.fst

theorem places_count (s : State) (ticket : Nat) : s.places.count ticket = s.occurrences ticket := by
  simp only [State.places, State.occurrences, State.stored, List.count_append, List.map_append,
    carried_eq_count]
  omega

/-- Every accepted publication is in one place, which is the list of outcomes once the actor has
stopped. -/
theorem publications_resolved_once (reached : Reachable (machine sha256 settings) s) :
    s.places.Perm (List.range s.accepted) ∧ (s.resolved.map Prod.fst).Nodup ∧
      (s.mode = .stopped → (s.resolved.map Prod.fst).Perm (List.range s.accepted)) := by
  obtain ⟨emptied, accounted⟩ := reachable_accounted reached
  have located : s.places.Perm (List.range s.accepted) := by
    rw [List.perm_iff_count]
    intro ticket
    rw [places_count, accounted ticket, List.count_range]
  refine ⟨located, ?_, ?_⟩
  · have distinct := located.nodup_iff.mpr List.nodup_range
    exact (List.nodup_append.mp distinct).2.1
  · intro stopped
    rw [Emptied, stopped] at emptied
    obtain ⟨⟨noReplay, noPublishing, noLedger⟩, noCommands⟩ := emptied
    simpa [State.places, stopped, Mode.held, noReplay, noPublishing, noLedger, noCommands] using located

end

def safeSettings : Settings where
  config := { bufferCapacity := 8, confirmTimeout := .fromSecs 30, safety := .safe }
  delayStrategy := none

def order : PublishRequest where
  destination := { exchange := "", routingKey := "orders" }
  payload := [1, 2, 3]
  properties := { messageId := "order-1" }
  deadline := 30000000000

/-- The connection is lost while the order's write is pending; the order is replayed on the new
channel and confirmed, and the actor ends with its last handle. -/
def orderReplayed : List Event := [
  .confirmsEnabled (.ok ()), .publish order, .receive, .proceed .pending, .proceed .pending,
  .connectionEvent (.recovering 2) 0, .receive,
  .connectionEvent (.ready 2 { opened := 2, id := 1 } true) 1, .receive, .confirmsEnabled (.ok ()),
  .proceed (.completed (.ok ())), .proceed .pending, .confirmed 0 (.completed (.ok (.ack none))),
  .dropHandles, .receive]

theorem order_resolved_once :
    ∃ s, Reachable (machine (fun _ => List.replicate 32 0) safeSettings) s ∧ s.mode = .stopped ∧
      s.accepted = 1 ∧ (s.resolved.map Prod.fst).Perm [0] := by
  have ran : (run (machine (fun _ => List.replicate 32 0) safeSettings) (fun _ _ => true)
      (initial safeSettings { opened := 1, id := 0 }) orderReplayed).any
      (fun s => s.mode.isStopped && s.accepted == 1) = true := by
    decide +kernel
  have fresh : (machine (fun _ => List.replicate 32 0) safeSettings).Initial
      (initial safeSettings { opened := 1, id := 0 }) := ⟨_, rfl⟩
  obtain ⟨s, reached, done⟩ := exists_of_run (fun _ _ _ => trivial) fresh ran
  simp only [Bool.and_eq_true, beq_iff_eq] at done
  have stopped : s.mode = .stopped := by
    cases mode : s.mode <;> simp_all [Mode.isStopped]
  have once := (publications_resolved_once reached).2.2 stopped
  rw [done.2] at once
  exact ⟨s, reached, stopped, done.2, once⟩

end RabbitRs.Publisher
