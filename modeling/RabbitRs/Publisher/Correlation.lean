import RabbitRs.Publisher.Conservation

/-!
Which confirmation resolves which waiter: until sequences run out, the answer for an attempt reaches
the publication that was written, and an attempt discarded by a suspension is answered by nothing.
-/

namespace RabbitRs.Publisher

open StepMachine Keyed

/-- A publication on the wire: what is common to its write and to its confirmation. -/
structure Attempt where
  sequence : Nat
  ticket : Nat
  channel : Channel
  deriving DecidableEq

def PendingWrite.attempt (write : PendingWrite) : Attempt :=
  { sequence := write.sequence, ticket := write.ticket, channel := write.channel }

def PendingConfirmation.attempt (confirmation : PendingConfirmation) : Attempt :=
  { sequence := confirmation.sequence, ticket := confirmation.ticket, channel := confirmation.channel }

def State.attempts (s : State) : List Attempt :=
  s.publishInFlight.map PendingWrite.attempt ++ s.confirmations.map PendingConfirmation.attempt

/-- The publication with another deadline, attempt or retry mark. -/
def Continues (r r' : RetainedPublish) : Prop :=
  r'.ticket = r.ticket ∧ r'.request = { r.request with deadline := r'.request.deadline }

structure Facts where
  Own : RetainedPublish → Prop
  Just : Nat × Outcome → Prop
  Known : Attempt → Prop
  own_continues : ∀ {r r' : RetainedPublish}, Own r → Continues r r' → Own r'
  just_error : ∀ ticket error, Just (ticket, .error error)

structure Filed (facts : Facts) (s : State) : Prop where
  commands : ∀ r ∈ s.commands.filterMap Command.publication, facts.Own r
  replay : ∀ r ∈ s.replay, facts.Own r
  publishing : ∀ {n r}, s.publishing.lookup n = some r → facts.Own r
  ledger : ∀ {n entry}, s.ledger.lookup n = some entry → facts.Own entry.retained
  resolved : ∀ p ∈ s.resolved, facts.Just p
  known : ∀ a ∈ s.attempts, facts.Known a
  bounded : ∀ a ∈ s.attempts, a.sequence ≤ s.sequence
  distinct : (s.attempts.map Attempt.sequence).Nodup
  writes : ∀ w ∈ s.publishInFlight, ∀ r, s.publishing.lookup w.sequence = some r → r.ticket = w.ticket
  confirms : ∀ c ∈ s.confirmations, ∀ entry, s.ledger.lookup c.sequence = some entry →
    entry.retained.ticket = c.ticket
  suspended : s.phase = .suspended → s.channel = none ∧ s.attempts = []

section

variable {facts : Facts} {s : State}

theorem Filed.resolveErrors (filed : Filed facts s) (batch : List RetainedPublish)
    (error : PublishError) : Filed facts (s.resolveAll batch fun _ => .error error) := by
  refine { filed with resolved := ?_ }
  intro p member
  rcases List.mem_append.mp member with known | sent
  · exact filed.resolved p known
  · obtain ⟨r, _, rfl⟩ := List.mem_map.mp sent
    exact facts.just_error _ _

theorem Filed.emptied (filed : Filed facts s) (replay : List RetainedPublish)
    (own : ∀ r ∈ replay, facts.Own r) (generation : Nat) (phase : Phase) (channel : Option Channel)
    (closed : phase = .suspended → channel = none) :
    Filed facts { s with
      replay, generation, phase, channel, publishing := ∅, ledger := ∅, confirmations := [],
      publishInFlight := [] } where
  commands := filed.commands
  replay := own
  publishing := fun found => by simp at found
  ledger := fun found => by simp at found
  resolved := filed.resolved
  known := by simp [State.attempts]
  bounded := by simp [State.attempts]
  distinct := by simp [State.attempts]
  writes := by simp
  confirms := by simp
  suspended := fun same => ⟨closed same, rfl⟩

theorem Filed.held (filed : Filed facts s) (r : RetainedPublish)
    (member : r ∈ s.replay ++ values s.publishing ++ (values s.ledger).map InFlightPublish.retained) :
    facts.Own r := by
  simp only [List.mem_append, List.mem_map] at member
  rcases member with (replayed | publishing) | ⟨entry, pending, rfl⟩
  · exact filed.replay r replayed
  · obtain ⟨n, found⟩ := exists_lookup_of_mem publishing
    exact filed.publishing found
  · obtain ⟨n, found⟩ := exists_lookup_of_mem pending
    exact filed.ledger found

theorem Filed.suspend (filed : Filed facts s) (generation : Nat) : Filed facts (s.suspend generation) := by
  refine filed.emptied _ ?_ _ .suspended none fun _ => rfl
  intro r member
  exact filed.held r ((List.perm_insertionSort sequenceOrder _).mem_iff.mp member)

theorem Filed.failAll (filed : Filed facts s) (error : PublishError) : Filed facts (s.failAll error) := by
  refine Filed.resolveErrors ?_ _ error
  refine { filed.emptied [] (by simp) s.generation s.phase s.channel ?_ with }
  exact fun same => (filed.suspended same).1

theorem rearm_continues (clock : Nat) (r : RetainedPublish) : Continues r (rearm clock r) := by
  unfold rearm
  split
  · exact ⟨rfl, rfl⟩
  · exact ⟨rfl, rfl⟩

theorem Filed.expireReplay (filed : Filed facts s) : Filed facts s.expireReplay := by
  refine Filed.resolveErrors ?_ _ expiredInRecovery
  refine { filed with replay := ?_ }
  intro r member
  obtain ⟨before, kept, rfl⟩ := List.mem_map.mp member
  exact facts.own_continues (filed.replay before (List.mem_filter.mp kept).1) (rearm_continues _ _)

theorem Filed.erasePublishing (filed : Filed facts s) (n : Nat) :
    Filed facts { s with publishing := s.publishing.erase n } :=
  { filed with
    publishing := fun found => filed.publishing (lookup_of_erase found)
    writes := fun w member r found => filed.writes w member r (lookup_of_erase found) }

theorem Filed.eraseLedger (filed : Filed facts s) (n : Nat) :
    Filed facts { s with ledger := s.ledger.erase n } :=
  { filed with
    ledger := fun found => filed.ledger (lookup_of_erase found)
    confirms := fun c member entry found => filed.confirms c member entry (lookup_of_erase found) }

theorem Filed.parked (filed : Filed facts s) (batch : List RetainedPublish)
    (own : ∀ r ∈ batch, facts.Own r) : Filed facts { s with replay := s.replay ++ batch } := by
  refine { filed with replay := ?_ }
  intro r member
  rcases List.mem_append.mp member with known | added
  · exact filed.replay r known
  · exact own r added

theorem Filed.fewer (filed : Filed facts s) {writes : List PendingWrite} {confirmations : List PendingConfirmation}
    (written : writes.Sublist s.publishInFlight) (awaited : confirmations.Sublist s.confirmations) :
    Filed facts { s with publishInFlight := writes, confirmations } := by
  have attempts : ({ s with publishInFlight := writes, confirmations } : State).attempts.Sublist s.attempts :=
    (written.map PendingWrite.attempt).append (awaited.map PendingConfirmation.attempt)
  exact { filed with
    known := fun a member => filed.known a (attempts.mem member)
    bounded := fun a member => filed.bounded a (attempts.mem member)
    distinct := (attempts.map Attempt.sequence).nodup filed.distinct
    writes := fun w member => filed.writes w (written.mem member)
    confirms := fun c member => filed.confirms c (awaited.mem member)
    suspended := fun same => ⟨(filed.suspended same).1,
      List.sublist_nil.mp ((filed.suspended same).2 ▸ attempts)⟩ }

theorem Filed.takeWrite (filed : Filed facts s) (index : Nat) :
    Filed facts { s with publishInFlight := s.publishInFlight.eraseIdx index } :=
  filed.fewer (List.eraseIdx_sublist _ _) (List.Sublist.refl _)

theorem Filed.takeConfirmation (filed : Filed facts s) (index : Nat) :
    Filed facts { s with confirmations := s.confirmations.eraseIdx index } :=
  filed.fewer (List.Sublist.refl _) (List.eraseIdx_sublist _ _)

structure Answered (facts : Facts) (s : State) (write : PendingWrite) : Prop where
  own : ∀ r, s.publishing.lookup write.sequence = some r → r.ticket = write.ticket
  fresh : write.sequence ∉ s.attempts.map Attempt.sequence
  bounded : write.sequence ≤ s.sequence
  known : facts.Known write.attempt
  awake : s.phase ≠ .suspended

theorem Filed.awaitConfirmation (filed : Filed facts s) {write : PendingWrite}
    {entry : InFlightPublish} {confirmation : PendingConfirmation}
    (answered : Answered facts s write) (own : facts.Own entry.retained)
    (ticket : entry.retained.ticket = write.ticket) (same : confirmation.attempt = write.attempt) :
    Filed facts { s.insertLedger write.sequence entry with
      confirmations := s.confirmations ++ [confirmation] } := by
  obtain ⟨sequence, ticketed, _⟩ : confirmation.sequence = write.sequence ∧
      confirmation.ticket = write.ticket ∧ confirmation.channel = write.channel := Attempt.mk.inj same
  have others : ∀ c ∈ s.confirmations, c.sequence ≠ write.sequence := by
    intro c member same
    refine answered.fresh (List.mem_map.mpr ⟨c.attempt, ?_, same⟩)
    exact List.mem_append_right _ (List.mem_map_of_mem member)
  have attempts : ({ s with confirmations := s.confirmations ++ [confirmation] } : State).attempts =
      s.attempts ++ [write.attempt] := by
    simp [State.attempts, same]
  have sent := filed.resolveErrors
    ((s.ledger.lookup write.sequence).toList.map InFlightPublish.retained) droppedWaiter
  have added : ∀ {P : Attempt → Prop}, (∀ a ∈ s.attempts, P a) → P write.attempt →
      ∀ a ∈ ({ s with confirmations := s.confirmations ++ [confirmation] } : State).attempts, P a := by
    intro P known new a member
    rw [attempts] at member
    rcases List.mem_append.mp member with before | last
    · exact known a before
    · rw [List.mem_singleton.mp last]
      exact new
  refine { sent with
    ledger := ?_
    known := added filed.known answered.known
    bounded := added filed.bounded answered.bounded
    distinct := ?_
    confirms := ?_
    suspended := fun same => absurd same answered.awake }
  · intro n stored found
    rcases lookup_insert_cases found with ⟨_, rfl⟩ | ⟨_, found⟩
    · exact own
    · exact filed.ledger found
  · change (({ s with confirmations := s.confirmations ++ [confirmation] } : State).attempts.map
      Attempt.sequence).Nodup
    rw [attempts, List.map_append]
    exact List.Nodup.append filed.distinct (List.nodup_singleton _)
      (List.disjoint_singleton.mpr answered.fresh)
  · intro c member stored found
    rcases List.mem_append.mp member with known | last
    · rcases lookup_insert_cases found with ⟨same, _⟩ | ⟨_, found⟩
      · exact absurd same (others c known)
      · exact filed.confirms c known stored found
    · obtain rfl := List.mem_singleton.mp last
      rcases lookup_insert_cases found with ⟨_, rfl⟩ | ⟨different, _⟩
      · exact ticket.trans ticketed.symm
      · exact absurd sequence different

variable {sha256 : Bytes → Bytes} {settings : Settings} {t : State} {event : Event}

theorem Done.filed {write : PendingWrite} {outcome : WireWriteOutcome}
    (done : Done settings s write outcome t) (confirms : settings.config.enablesConfirms = true)
    (answered : Answered facts s write) (filed : Filed facts s) : Filed facts t := by
  have removed := filed.erasePublishing write.sequence
  cases done with
  | unknown => exact filed
  | awaits found _ =>
    have still : Answered facts { s with publishing := s.publishing.erase write.sequence } write :=
      { answered with own := fun r found => answered.own r (lookup_of_erase found) }
    exact removed.awaitConfirmation still (filed.publishing found) (answered.own _ found) rfl
  | @resolves retained outcome _ _ resolves =>
    rcases outcome with (error | ⟨⟩) | _ <;> simp only [writeOutcome, confirms, if_true] at resolves
    · split at resolves
      · cases resolves
      · cases resolves
        exact removed.resolveErrors [retained] _
    · cases resolves
    · cases resolves
      exact removed.resolveErrors [retained] _
  | @suspends retained _ found _ =>
    have parked := removed.parked [retained] (by simpa using filed.publishing found)
    exact { parked.suspend s.generation with }

theorem Filed.insertPublishing (filed : Filed facts s) {n : Nat} {r : RetainedPublish}
    (own : facts.Own r) (fresh : ∀ a ∈ s.attempts, a.sequence ≠ n) :
    Filed facts (s.insertPublishing n r) := by
  have sent := filed.resolveErrors (s.publishing.lookup n).toList droppedWaiter
  refine { sent with publishing := ?_, writes := ?_ }
  · intro other stored found
    rcases lookup_insert_cases found with ⟨_, rfl⟩ | ⟨_, found⟩
    · exact own
    · exact filed.publishing found
  · intro w member stored found
    rcases lookup_insert_cases found with ⟨same, _⟩ | ⟨_, found⟩
    · exact absurd same (fresh w.attempt (List.mem_append_left _ (List.mem_map_of_mem member)))
    · exact filed.writes w member stored found

theorem Filed.awaitWrite (filed : Filed facts s) {write : PendingWrite}
    (answered : Answered facts s write) :
    Filed facts { s with publishInFlight := s.publishInFlight ++ [write] } := by
  have attempts : ({ s with publishInFlight := s.publishInFlight ++ [write] } : State).attempts.Perm
      (write.attempt :: s.attempts) := by
    simp only [State.attempts, List.map_append, List.map_cons, List.map_nil, List.append_assoc,
      List.singleton_append]
    exact List.perm_middle
  have added : ∀ {P : Attempt → Prop}, (∀ a ∈ s.attempts, P a) → P write.attempt →
      ∀ a ∈ ({ s with publishInFlight := s.publishInFlight ++ [write] } : State).attempts, P a := by
    intro P known new a member
    rcases List.mem_cons.mp (attempts.mem_iff.mp member) with rfl | before
    · exact new
    · exact known a before
  refine { filed with
    known := added filed.known answered.known
    bounded := added filed.bounded answered.bounded
    distinct := ?_
    writes := ?_
    suspended := fun same => absurd same answered.awake }
  · rw [(attempts.map Attempt.sequence).nodup_iff, List.map_cons]
    exact List.nodup_cons.mpr ⟨answered.fresh, filed.distinct⟩
  · intro w member r found
    rcases List.mem_append.mp member with known | last
    · exact filed.writes w known r found
    · obtain rfl := List.mem_singleton.mp last
      exact answered.own r found

structure Correlated (facts : Facts) (s : State) : Prop where
  filed : Filed facts s
  held : ∀ r ∈ s.mode.held, facts.Own r
  declaring : s.mode.declares = true → s.phase ≠ .suspended

theorem Filed.resume (filed : Filed facts s) {resume : Resume}
    (own : ∀ r ∈ resume.held, facts.Own r) : Correlated facts (s.resume resume) := by
  rcases resume with (_ | command) | reply | ⟨deadline, reply⟩
  · exact ⟨{ filed with }, nofun, nofun⟩
  · exact ⟨{ filed with }, own, nofun⟩
  · exact ⟨{ filed with }, nofun, nofun⟩
  · exact ⟨{ filed with }, nofun, nofun⟩

theorem Filed.draining (filed : Filed facts s) {pending : List RetainedPublish} {resume : Resume}
    (own : ∀ r ∈ pending, facts.Own r) (later : ∀ r ∈ resume.held, facts.Own r) (now : Nat) :
    Correlated facts { s with mode := .draining pending now resume } := by
  refine ⟨{ filed with }, ?_, nofun⟩
  intro r member
  rcases List.mem_append.mp member with item | deferred
  · exact own r item
  · exact later r deferred

theorem Filed.acceptPublish (filed : Filed facts s) {pending : List RetainedPublish}
    {resume : Resume} (own : ∀ r ∈ pending, facts.Own r) (later : ∀ r ∈ resume.held, facts.Own r) :
    Correlated facts (acceptPublish s pending resume) := by
  unfold Publisher.acceptPublish
  split
  · exact filed.draining own later s.clock
  · exact (filed.parked pending own).resume later
  · exact (filed.resolveErrors pending _).resume later

theorem Tries.correlated {item : RetainedPublish} {channel : Channel} {pending : List RetainedPublish}
    {resume : Resume} {poll : FirstPoll} (tries : Tries sha256 settings s item channel pending resume poll t)
    (filed : Filed facts s) (confirms : settings.config.enablesConfirms = true)
    (room : s.sequence < 2 ^ 64 - 1) (awake : s.phase ≠ .suspended) (owned : facts.Own item)
    (own : ∀ r ∈ pending, facts.Own r) (later : ∀ r ∈ resume.held, facts.Own r)
    (known : ∀ write, t.wire = s.wire ++ [.publish channel item.request write] →
      facts.Known (s.writeOf settings item channel).attempt) : Correlated facts t := by
  have next : s.nextSequence = s.sequence + 1 := by
    unfold State.nextSequence
    omega
  have fresh : ∀ a ∈ s.attempts, a.sequence ≠ s.nextSequence := by
    intro a member same
    have bounded := filed.bounded a member
    omega
  have numbered : Filed facts (s.numbered pending resume) :=
    { filed with bounded := fun a member =>
        (filed.bounded a member).trans (by rw [State.numbered, next]; exact Nat.le_succ _) }
  have held := (filed.draining own later s.clock).held
  have renewed : facts.Own { item with sequence := s.nextSequence } := facts.own_continues owned ⟨rfl, rfl⟩
  have written (request : TransportPublish) : Filed facts (s.written item channel pending resume request) :=
    { numbered.insertPublishing renewed fresh with }
  have issued (request : TransportPublish) (wrote : facts.Known (s.writeOf settings item channel).attempt) :
      Answered facts (s.written item channel pending resume request) (s.writeOf settings item channel) := by
    refine ⟨?_, ?_, le_rfl, wrote, awake⟩
    · intro r found
      rcases lookup_insert_cases found with ⟨_, rfl⟩ | ⟨different, _⟩
      · rfl
      · exact absurd rfl different
    · intro member
      obtain ⟨a, outstanding, same⟩ := List.mem_map.mp member
      exact fresh a outstanding same
  cases tries with
  | unroutable => exact ⟨numbered.resolveErrors [_] _, held, nofun⟩
  | @answered request _ _ _ done _ | @late request _ _ done =>
    have kept := done.keeps
    have handled := done.filed confirms (issued request (known request kept.wire)) (written request)
    exact ⟨handled, kept.mode ▸ held, by rw [kept.mode]; nofun⟩
  | @broken request _ u _ done _ =>
    have wire := (@resume_passes { u with replay := u.replay ++ pending } resume).1.wire
    have handled := done.filed confirms (issued request (known request (wire.trans done.keeps.wire)))
      (written request)
    exact (handled.parked pending own).resume later
  | @waits request _ => exact ⟨(written request).awaitWrite (issued request (known request rfl)), held, nofun⟩

theorem Filed.failItem (filed : Filed facts s) {item : RetainedPublish}
    {pending : List RetainedPublish} {resume : Resume} (own : ∀ r ∈ pending, facts.Own r)
    (later : ∀ r ∈ resume.held, facts.Own r) (now : Nat) (error : PublishError) :
    Correlated facts ({ s with mode := .draining pending now resume }.completeError item error) := by
  have drains := filed.draining own later now
  exact ⟨drains.filed.resolveErrors [item] error, drains.held, nofun⟩

theorem own_nil : ∀ r ∈ ([] : List RetainedPublish), facts.Own r :=
  fun _ member => (List.not_mem_nil member).elim

theorem Filed.adopt (filed : Filed facts s) (generation : Nat) (channel : Channel) (reply : Nat) :
    Correlated facts (s.adopt generation channel reply) := by
  have ready : Filed facts { s with
      generation, channel := some channel, phase := .ready, permanentError := none } :=
    { filed with suspended := nofun }
  have expired := ready.expireReplay
  have taken : Filed facts { ({ s with
      generation, channel := some channel, phase := .ready, permanentError := none
      } : State).expireReplay with replay := [] } := { expired with replay := nofun }
  refine taken.draining expired.replay ?_ s.clock
  exact own_nil

theorem Filed.stop (filed : Filed facts s) : Correlated facts s.stop := by
  have sent := filed.resolveErrors (s.commands.filterMap Command.publication) droppedWaiter
  exact ⟨{ sent with commands := nofun }, nofun, nofun⟩

theorem Filed.finishClose (filed : Filed facts s) (reply : Nat) : Correlated facts (s.finishClose reply) := by
  have failed := filed.failAll
    (closedError "publisher actor was closed before the publication could be attempted")
  unfold State.finishClose
  dsimp only
  split
  · exact Filed.stop { failed with }
  · refine ⟨{ failed with suspended := fun same => ⟨rfl, (failed.suspended same).2⟩ }, nofun, nofun⟩

theorem Handles.correlated {command : Command} (handles : Handles settings s command t)
    (filed : Filed facts s) (own : ∀ r ∈ command.held, facts.Own r) : Correlated facts t := by
  cases handles with
  | publish => exact filed.acceptPublish own nofun
  | @recovering generation _ => exact ⟨{ filed.suspend generation with }, nofun, nofun⟩
  | refuses | enables => exact ⟨{ filed with }, nofun, nofun⟩
  | adopts => exact filed.adopt _ _ _
  | fails => exact ⟨{ filed.failAll _ with suspended := nofun }, nofun, nofun⟩
  | flushes =>
    have taken : Filed facts { s with replay := [] } := { filed with replay := nofun }
    refine taken.draining filed.replay ?_ s.clock
    exact own_nil
  | closes => exact filed.finishClose _

theorem leadingPublishes_mem {commands : List Command} {r : RetainedPublish}
    (member : r ∈ (leadingPublishes commands).1 ∨
      r ∈ (leadingPublishes commands).2.filterMap Command.publication) :
    r ∈ commands.filterMap Command.publication := by
  induction commands with
  | nil => simp [leadingPublishes] at member
  | cons command rest ih =>
    cases command with
    | publish retained =>
      simp only [leadingPublishes, List.mem_cons, or_assoc] at member
      rcases member with rfl | later
      · simp [Command.publication]
      · simp [Command.publication, ih later]
    | connectionEvent event reply | close reply => simpa [leadingPublishes] using member

theorem deferred_mem {commands : List Command} {r : RetainedPublish}
    (member : r ∈ (Resume.deferred commands.head?).held ∨ r ∈ commands.tail.filterMap Command.publication) :
    r ∈ commands.filterMap Command.publication := by
  cases commands with
  | nil => simp [Resume.held] at member
  | cons command rest =>
    cases command <;> simpa [Resume.held, Command.held, Command.publication] using member

theorem Filed.batch {retained : RetainedPublish} {rest : List Command} (filed : Filed facts s)
    (queued : s.commands = .publish retained :: rest) :
    Correlated facts (Publisher.acceptPublish { s with commands := (leadingPublishes rest).2.tail }
      (retained :: (leadingPublishes rest).1) (.deferred (leadingPublishes rest).2.head?)) := by
  have commands := filed.commands
  rw [queued] at commands
  have queue : ∀ r, r ∈ rest.filterMap Command.publication → facts.Own r :=
    fun r member => commands r (List.mem_cons_of_mem _ member)
  have left : Filed facts { s with commands := (leadingPublishes rest).2.tail } :=
    { filed with
      commands := fun r member => queue r (leadingPublishes_mem (.inr (deferred_mem (.inr member)))) }
  refine left.acceptPublish ?_ ?_
  · intro r member
    rcases List.mem_cons.mp member with rfl | batch
    · exact commands r List.mem_cons_self
    · exact queue r (leadingPublishes_mem (.inl batch))
  · intro r member
    exact queue r (leadingPublishes_mem (.inr (deferred_mem (.inl member))))

structure Extends (sha256 : Bytes → Bytes) (settings : Settings) (facts : Facts) (s t : State)
    (event : Event) : Prop where
  accepts : ∀ r, event = .publish r.request → r.ticket = s.accepted → facts.Own r
  issues : ∀ a r more write, facts.Own r → r.ticket = a.ticket → t.wire = s.wire ++ more →
    WireEvent.publish a.channel r.request write ∈ more → facts.Known a
  confirms : ∀ index result confirmation entry, event = .confirmed index result →
    s.confirmations[index]? = some confirmation →
    s.ledger.lookup confirmation.sequence = some entry →
    facts.Just (entry.retained.ticket, confirmationOutcome entry.retained result)

theorem perm_cons_eraseIdx {α : Type} {items : List α} {index : Nat} {item : α}
    (found : items[index]? = some item) : items.Perm (item :: items.eraseIdx index) := by
  obtain ⟨inside, rfl⟩ := List.getElem?_eq_some_iff.mp found
  exact (List.getElem_cons_eraseIdx_perm inside).symm

theorem Correlated.polled (correlated : Correlated facts s) (filed : Filed facts t)
    (polls : s.polls = true) (same : t.mode = s.mode) : Correlated facts t := by
  refine ⟨filed, same ▸ correlated.held, ?_⟩
  rw [same, (polls_running polls).1]
  nofun

theorem Filed.answered {index : Nat} {write : PendingWrite} (filed : Filed facts s)
    (found : s.publishInFlight[index]? = some write) :
    Answered facts { s with publishInFlight := s.publishInFlight.eraseIdx index } write := by
  have member : write ∈ s.publishInFlight := List.mem_of_getElem? found
  have outstanding : write.attempt ∈ s.attempts :=
    List.mem_append_left _ (List.mem_map_of_mem member)
  have split : s.attempts.Perm (write.attempt ::
      ({ s with publishInFlight := s.publishInFlight.eraseIdx index } : State).attempts) :=
    ((perm_cons_eraseIdx found).map PendingWrite.attempt).append_right _
  refine ⟨filed.writes write member, ?_, filed.bounded _ outstanding, filed.known _ outstanding, ?_⟩
  · have distinct := ((split.map Attempt.sequence).nodup_iff).mp filed.distinct
    exact (List.nodup_cons.mp distinct).1
  · intro same
    rw [(filed.suspended same).2] at outstanding
    exact (List.not_mem_nil outstanding).elim

theorem Turns.correlated (turns : Turns sha256 settings s event t)
    (confirms : settings.config.enablesConfirms = true) (room : s.sequence < 2 ^ 64 - 1)
    (correlated : Correlated facts s) (extends_ : Extends sha256 settings facts s t event) :
    Correlated facts t := by
  obtain ⟨filed, held, declaring⟩ := correlated
  cases turns
  case tick | dropHandles => exact ⟨{ filed with }, held, declaring⟩
  case publish request _ =>
    refine ⟨{ filed with commands := ?_ }, held, declaring⟩
    intro r member
    rw [List.filterMap_append] at member
    rcases List.mem_append.mp member with queued | added
    · exact filed.commands r queued
    · obtain rfl := List.mem_singleton.mp added
      exact extends_.accepts _ rfl rfl
  case connectionEvent | close =>
    exact ⟨{ filed with commands := by simpa [Command.publication] using filed.commands }, held, declaring⟩
  case orphaned => exact (filed.failAll _).stop
  case batch queued => exact filed.batch queued
  case command command rest _ queued _ handles =>
    have queue : ∀ r, r ∈ (command :: rest).filterMap Command.publication → facts.Own r :=
      queued ▸ filed.commands
    refine handles.correlated ?_ fun r member => queue r (deferred_mem (.inl member))
    exact { filed with commands := fun r member => queue r (deferred_mem (.inr member)) }
  case handled handling handles => exact handles.correlated filed (by rw [handling] at held; exact held)
  case expire => exact ⟨filed.expireReplay, held, declaring⟩
  case written index _ _ found polls done =>
    have handled := done.filed confirms (filed.answered found) (filed.takeWrite index)
    exact Correlated.polled ⟨filed, held, declaring⟩ handled polls done.keeps.mode
  case stale index _ _ _ _ _ => exact ⟨filed.takeConfirmation index, held, declaring⟩
  case confirms index confirmation result entry found polls known _ _ =>
    refine ⟨{ (filed.takeConfirmation index).eraseLedger confirmation.sequence with resolved := ?_ }, held,
      declaring⟩
    intro p member
    rcases List.mem_append.mp member with before | sent
    · exact filed.resolved p before
    · obtain rfl := List.mem_singleton.mp sent
      exact extends_.confirms index result confirmation entry rfl found known
  case loses index confirmation _ entry _ polls known _ _ =>
    have removed := (filed.takeConfirmation index).eraseLedger confirmation.sequence
    have parked := removed.parked [entry.retained] (by simpa using filed.ledger known)
    exact Correlated.polled ⟨filed, held, declaring⟩ { parked.suspend confirmation.generation with } polls rfl
  case started | unenabled => exact ⟨{ filed with }, by rintro _ ⟨⟩, by rintro ⟨⟩⟩
  case unstarted => exact ⟨{ filed with suspended := by rintro ⟨⟩ }, by rintro _ ⟨⟩, by rintro ⟨⟩⟩
  case enabled => exact filed.adopt _ _ _
  case undeclared at_ =>
    rw [at_] at held
    exact filed.failItem (fun r member => held r (List.mem_append_left _ (List.mem_cons_of_mem _ member)))
      (fun r member => held r (List.mem_append_right _ member)) _ _
  case declared item channel declaration pending resume poll at_ tries =>
    rw [at_] at held declaring
    have owned : facts.Own item := held item (List.mem_append_left _ List.mem_cons_self)
    refine tries.correlated { filed with } confirms room (declaring rfl) owned
      (fun r member => held r (List.mem_append_left _ (List.mem_cons_of_mem _ member)))
      (fun r member => held r (List.mem_append_right _ member)) fun write wire => ?_
    refine extends_.issues _ item [.declare channel declaration item.request,
      .publish channel item.request write] write owned rfl ?_ (List.mem_cons_of_mem _ List.mem_cons_self)
    rw [wire, List.append_assoc]
    rfl
  case drained draining =>
    rw [draining] at held
    exact filed.resume held
  case drops draining _ =>
    rw [draining] at held
    exact filed.failItem (fun r member => held r (List.mem_append_left _ (List.mem_cons_of_mem _ member)))
      (fun r member => held r (List.mem_append_right _ member)) _ _
  case parks pending _ _ _ draining _ =>
    rw [draining] at held
    exact (filed.parked pending fun r member => held r (List.mem_append_left _ member)).resume
      fun r member => held r (List.mem_append_right _ member)
  case declares channel _ draining open_ _ =>
    rw [draining] at held
    refine ⟨{ filed with }, held, fun _ same => ?_⟩
    cases (filed.suspended same).1.symm.trans open_
  case tries item _ _ _ _ channel draining _ open_ _ tries =>
    rw [draining] at held
    have owned : facts.Own item := held item (List.mem_append_left _ List.mem_cons_self)
    refine tries.correlated filed confirms room ?_ owned
      (fun r member => held r (List.mem_append_left _ (List.mem_cons_of_mem _ member)))
      (fun r member => held r (List.mem_append_right _ member)) fun write wire => ?_
    · intro same
      cases (filed.suspended same).1.symm.trans open_
    · exact extends_.issues _ item _ write owned rfl wire List.mem_cons_self
  case quiesced => exact filed.finishClose _
  case channelClosed => exact Filed.stop { filed with }

theorem Correlated.mono {facts' : Facts} (correlated : Correlated facts s)
    (own : ∀ r, facts.Own r → facts'.Own r) (just : ∀ p, facts.Just p → facts'.Just p)
    (known : ∀ a ∈ s.attempts, facts'.Known a) : Correlated facts' s := by
  have filed := correlated.filed
  refine ⟨{ filed with
    commands := fun r member => own r (filed.commands r member)
    replay := fun r member => own r (filed.replay r member)
    publishing := fun found => own _ (filed.publishing found)
    ledger := fun found => own _ (filed.ledger found)
    resolved := fun p member => just p (filed.resolved p member)
    known }, fun r member => own r (correlated.held r member), correlated.declaring⟩

end

end RabbitRs.Publisher
