import RabbitRs.Publisher.Lifecycle
import RabbitRs.Publisher.Outcomes

/-!
What the publisher actor holds in each phase, and the futures it keeps: every publication on the
wire is filed under the sequence of its attempt, beside the one future that answers it.
-/

namespace RabbitRs.Publisher

open StepMachine Keyed

/-- What an actor in each phase holds. -/
structure Phased (s : State) : Prop where
  ready : s.phase = .ready → s.channel.isSome ∧ s.replay = []
  suspended : s.phase = .suspended → s.channel = none ∧ s.publishing = ∅ ∧ s.ledger = ∅ ∧
    s.confirmations = [] ∧ s.publishInFlight = []
  failed : s.phase = .failedPermanent → s.replay = [] ∧ s.publishing = ∅ ∧ s.ledger = ∅

def Mode.attempts : Mode → Bool
  | .draining _ _ _ | .declaring _ _ _ _ _ => true
  | _ => false

section

variable {sha256 : Bytes → Bytes} {settings : Settings} {s t : State} {event : Event}

theorem Phased.of_ready (phase : s.phase = .ready) (channel : s.channel.isSome)
    (replay : s.replay = []) : Phased s where
  ready _ := ⟨channel, replay⟩
  suspended same := by simp [phase] at same
  failed same := by simp [phase] at same

theorem Phased.of_suspended (phase : s.phase = .suspended) (channel : s.channel = none)
    (publishing : s.publishing = ∅) (ledger : s.ledger = ∅) (confirmations : s.confirmations = [])
    (publishInFlight : s.publishInFlight = []) : Phased s where
  ready same := by simp [phase] at same
  suspended _ := ⟨channel, publishing, ledger, confirmations, publishInFlight⟩
  failed same := by simp [phase] at same

theorem suspend_phased (generation : Nat) : Phased (s.suspend generation) :=
  .of_suspended rfl rfl rfl rfl rfl rfl

theorem Phased.ready_of_filed (phased : Phased s) {n : Nat}
    (filed : s.publishing.lookup n ≠ none ∨ s.ledger.lookup n ≠ none) : s.phase = .ready := by
  cases same : s.phase with
  | ready => rfl
  | suspended =>
    obtain ⟨-, publishing, ledger, -⟩ := phased.suspended same
    simp [publishing, ledger] at filed
  | failedPermanent =>
    obtain ⟨-, publishing, ledger⟩ := phased.failed same
    simp [publishing, ledger] at filed

theorem Done.phased {write : PendingWrite} {outcome : WireWriteOutcome}
    (done : Done settings s write outcome t) (phased : Phased s) : Phased t := by
  cases done with
  | unknown => exact phased
  | suspends => exact suspend_phased _
  | awaits found _ | resolves found _ =>
    have phase := phased.ready_of_filed (n := write.sequence) (.inl (by simp [found]))
    exact .of_ready phase (phased.ready phase).1 (phased.ready phase).2

theorem Phased.takeWrite (phased : Phased s) (index : Nat) :
    Phased { s with publishInFlight := s.publishInFlight.eraseIdx index } := by
  refine ⟨phased.ready, fun same => ?_, phased.failed⟩
  obtain ⟨channel, publishing, ledger, confirmations, publishInFlight⟩ := phased.suspended same
  exact ⟨channel, publishing, ledger, confirmations, by simp [publishInFlight]⟩

theorem Phased.takeConfirmation (phased : Phased s) (index : Nat) :
    Phased { s with confirmations := s.confirmations.eraseIdx index } := by
  refine ⟨phased.ready, fun same => ?_, phased.failed⟩
  obtain ⟨channel, publishing, ledger, confirmations, publishInFlight⟩ := phased.suspended same
  exact ⟨channel, publishing, ledger, by simp [confirmations], publishInFlight⟩

theorem Phased.expireReplay (phased : Phased s) : Phased s.expireReplay := by
  refine ⟨fun same => ?_, phased.suspended, fun same => ?_⟩
  · obtain ⟨channel, replay⟩ := phased.ready same
    exact ⟨channel, by simp [State.expireReplay, State.resolveAll, replay]⟩
  · obtain ⟨replay, publishing, ledger⟩ := phased.failed same
    exact ⟨by simp [State.expireReplay, State.resolveAll, replay], publishing, ledger⟩

theorem Done.phase {write : PendingWrite} {outcome : WireWriteOutcome}
    (done : Done settings s write outcome t) : t.phase = s.phase ∨ t.phase = .suspended := by
  cases done with
  | suspends => exact .inr rfl
  | _ => exact .inl rfl

/-- The phases over the modes of the task: publications are attempted in the phase ready, and the
confirms of the first channel are asked for before anything else is held. -/
structure Staged (s : State) : Prop where
  phased : s.mode.ended = false → Phased s
  attempts : s.mode.attempts = true → s.phase = .ready
  starting : s.mode.isStarting = true → s.phase = .ready ∧ s.settled

theorem Staged.of_phased (phased : Phased s) (attempts : s.mode.attempts = false)
    (starting : s.mode.isStarting = false) : Staged s where
  phased _ := phased
  attempts same := by simp [attempts] at same
  starting same := by simp [starting] at same

theorem Staged.of_ended (ended : s.mode.ended = true) : Staged s := by
  refine ⟨fun same => by simp [ended] at same, ?_, ?_⟩
  all_goals
    intro same
    cases mode : s.mode <;> simp_all [Mode.ended, Mode.attempts, Mode.isStarting]

theorem Staged.of_draining {pending : List RetainedPublish} {now : Nat} {resume : Resume}
    (mode : s.mode = .draining pending now resume) (phase : s.phase = .ready)
    (channel : s.channel.isSome) (replay : s.replay = []) : Staged s where
  phased _ := .of_ready phase channel replay
  attempts _ := phase
  starting same := by simp [mode, Mode.isStarting] at same

theorem Phased.resume (phased : Phased s) (resume : Resume) : Staged (s.resume resume) := by
  rcases resume with (_ | command) | reply | ⟨deadline, reply⟩ <;>
    exact .of_phased { phased with } rfl rfl

theorem Phased.setAside (phased : Phased s) (phase : s.phase = .suspended)
    (pending : List RetainedPublish) : Phased { s with replay := s.replay ++ pending } := by
  obtain ⟨channel, publishing, ledger, confirmations, publishInFlight⟩ := phased.suspended phase
  exact .of_suspended phase channel publishing ledger confirmations publishInFlight

theorem Tries.staged {item : RetainedPublish} {channel : Channel} {pending : List RetainedPublish}
    {resume : Resume} {poll : FirstPoll} (tries : Tries sha256 settings s item channel pending resume poll t)
    (phase : s.phase = .ready) (held : s.channel.isSome) (replay : s.replay = []) : Staged t := by
  have written (request : TransportPublish) : Phased (s.written item channel pending resume request) :=
    .of_ready phase held replay
  -- an answer that does not suspend leaves the loop where it was
  have goesOn {request : TransportPublish} {outcome : WireWriteOutcome} {u : State}
      (done : Done settings (s.written item channel pending resume request) (s.writeOf settings item channel)
        outcome u) (awake : u.phase ≠ .suspended) : Staged u := by
    have ready := (done.phase.resolve_right awake).trans phase
    have kept := (done.phased (written request)).ready ready
    exact .of_draining done.keeps.mode ready kept.1 kept.2
  cases tries with
  | unroutable | waits => exact .of_draining rfl phase held replay
  | answered _ done awake => exact goesOn done awake
  | broken _ done suspended =>
    exact ((done.phased (written _)).setAside suspended pending).resume resume
  | late _ done =>
    refine goesOn done ?_
    rcases done.follows with same | broke
    · have kept : t.phase = s.phase := congrArg View.phase same
      simp [kept, phase]
    · cases broke

theorem Phased.acceptPublish (phased : Phased s) (pending : List RetainedPublish) (resume : Resume) :
    Staged (acceptPublish s pending resume) := by
  unfold Publisher.acceptPublish
  split
  · case h_1 phase => exact .of_draining rfl phase (phased.ready phase).1 (phased.ready phase).2
  · case h_2 phase => exact (phased.setAside phase pending).resume resume
  · have refused : Phased (s.resolveAll pending fun _ => .error (permanentFailure s.permanentError)) :=
      { phased with }
    exact refused.resume resume

theorem adopt_staged (generation : Nat) (channel : Channel) (reply : Nat) :
    Staged (s.adopt generation channel reply) :=
  .of_draining rfl rfl rfl rfl

theorem finishClose_staged (reply : Nat) : Staged (s.finishClose reply) := by
  unfold State.finishClose
  dsimp only
  split <;> exact .of_ended rfl

theorem Handles.staged {command : Command} (handles : Handles settings s command t) (phased : Phased s) :
    Staged t := by
  cases handles with
  | publish => exact phased.acceptPublish _ _
  | @recovering generation _ => exact .of_phased { suspend_phased (s := s) generation with } rfl rfl
  | refuses | enables => exact .of_phased { phased with } rfl rfl
  | adopts => exact adopt_staged _ _ _
  | fails => exact .of_phased ⟨nofun, nofun, fun _ => ⟨rfl, rfl, rfl⟩⟩ rfl rfl
  | flushes ready => exact .of_draining rfl ready (phased.ready ready).1 rfl
  | closes => exact finishClose_staged _

theorem Staged.running (staged : Staged s) {mode : Mode} (same : s.mode = mode)
    (running : mode.ended = false) : Phased s :=
  staged.phased (same ▸ running)

theorem Staged.polled (staged : Staged s) (polls : s.polls = true) (keeps : Keeps s t)
    (answered : Phased s → Phased t) : Staged t := by
  unfold State.polls at polls
  split at polls
  · case h_1 idle =>
    have same := keeps.mode.trans idle
    exact .of_phased (answered (staged.running idle rfl)) (same ▸ rfl) (same ▸ rfl)
  · case h_2 closing =>
    have same := keeps.mode.trans closing
    exact .of_phased (answered (staged.running closing rfl)) (same ▸ rfl) (same ▸ rfl)
  · cases polls

theorem Staged.attempting (staged : Staged s) (attempts : s.mode.attempts = true) :
    s.phase = .ready ∧ s.channel.isSome ∧ s.replay = [] := by
  have phase := staged.attempts attempts
  refine ⟨phase, (staged.phased ?_).ready phase⟩
  cases mode : s.mode <;> simp_all [Mode.ended, Mode.attempts]

theorem Turns.staged (turns : Turns sha256 settings s event t) (staged : Staged s) : Staged t := by
  cases turns
  case tick | publish | connectionEvent | close | dropHandles =>
    exact ⟨fun ended => { staged.phased ended with }, staged.attempts, staged.starting⟩
  case orphaned | channelClosed => exact .of_ended rfl
  case batch rest idle _ =>
    have left : Phased { s with commands := (leadingPublishes rest).2.tail } :=
      { staged.running idle rfl with }
    exact left.acceptPublish _ _
  case command idle _ _ handles => exact handles.staged { staged.running idle rfl with }
  case handled handling handles => exact handles.staged (staged.running handling rfl)
  case expire idle =>
    have same : s.expireReplay.mode = .idle := idle
    exact .of_phased (staged.running idle rfl).expireReplay (same ▸ rfl) (same ▸ rfl)
  case written index _ _ _ polls done =>
    exact staged.polled polls { done.keeps with } fun phased => done.phased (phased.takeWrite index)
  case stale index _ _ _ polls _ =>
    refine staged.polled polls ⟨rfl, rfl, rfl, rfl, rfl, rfl, rfl, rfl⟩ fun phased => ?_
    exact phased.takeConfirmation index
  case confirms index confirmation _ entry _ polls known _ _ =>
    refine staged.polled polls ⟨rfl, rfl, rfl, rfl, rfl, rfl, rfl, rfl⟩ fun phased => ?_
    have phase := phased.ready_of_filed (n := confirmation.sequence) (.inr (by simp [known]))
    exact .of_ready phase (phased.ready phase).1 (phased.ready phase).2
  case loses polls _ _ _ =>
    refine staged.polled polls ⟨rfl, rfl, rfl, rfl, rfl, rfl, rfl, rfl⟩ fun _ => ?_
    exact suspend_phased _
  case started starting => exact .of_phased { staged.running starting rfl with } rfl rfl
  case unstarted starting =>
    have settled := (staged.starting (starting ▸ rfl)).2
    exact .of_phased ⟨nofun, nofun, fun _ => settled⟩ rfl rfl
  case enabled => exact adopt_staged _ _ _
  case unenabled enabling => exact .of_phased { staged.running enabling rfl with } rfl rfl
  case undeclared declaring =>
    obtain ⟨phase, channel, replay⟩ := staged.attempting (declaring ▸ rfl)
    exact .of_draining rfl phase channel replay
  case declared declaring tries =>
    obtain ⟨phase, channel, replay⟩ := staged.attempting (declaring ▸ rfl)
    exact tries.staged phase channel replay
  case drained draining => exact Phased.resume (staged.running draining rfl) _
  case drops draining _ =>
    obtain ⟨phase, channel, replay⟩ := staged.attempting (draining ▸ rfl)
    exact .of_draining rfl phase channel replay
  case parks draining none =>
    obtain ⟨-, channel, -⟩ := staged.attempting (draining ▸ rfl)
    simp [none] at channel
  case declares draining _ _ =>
    obtain ⟨phase, channel, replay⟩ := staged.attempting (draining ▸ rfl)
    exact ⟨fun _ => .of_ready phase channel replay, fun _ => phase, nofun⟩
  case tries draining _ _ _ tries =>
    obtain ⟨phase, channel, replay⟩ := staged.attempting (draining ▸ rfl)
    exact tries.staged phase channel replay
  case quiesced => exact finishClose_staged _

def PendingConfirmation.label (confirmation : PendingConfirmation) : Nat × Nat :=
  (confirmation.sequence, confirmation.generation)

def entryLabel (entry : Sigma fun _ : Nat => InFlightPublish) : Nat × Nat :=
  (entry.1, entry.2.generation)

structure PairedBut (writing : List Nat) (waiting : List (Nat × Nat)) (s : State) : Prop where
  disjoint : s.publishing.keys.Disjoint s.ledger.keys
  writes : (writing ++ s.publishInFlight.map PendingWrite.sequence).Perm s.publishing.keys
  confirms : (waiting ++ s.confirmations.map PendingConfirmation.label).Perm
    (s.ledger.entries.map entryLabel)
  publishing_le : ∀ n ∈ s.publishing.keys, n ≤ s.sequence
  ledger_le : ∀ n ∈ s.ledger.keys, n ≤ s.sequence

def Paired : State → Prop := PairedBut [] []

theorem Paired.emptied (publishing : s.publishing = ∅) (ledger : s.ledger = ∅)
    (confirmations : s.confirmations = []) (publishInFlight : s.publishInFlight = []) : Paired s := by
  refine ⟨?_, ?_, ?_, ?_, ?_⟩ <;> simp [publishing, ledger, confirmations, publishInFlight]

theorem suspend_paired (generation : Nat) : Paired (s.suspend generation) :=
  .emptied rfl rfl rfl rfl

theorem PairedBut.erasePublishing {n : Nat} {retained : RetainedPublish} (paired : PairedBut [n] [] s)
    (found : s.publishing.lookup n = some retained) :
    Paired { s with publishing := s.publishing.erase n } where
  disjoint := by
    rw [AList.keys_erase]
    exact fun key member => paired.disjoint (List.mem_of_mem_erase member)
  writes := by
    have split : s.publishing.keys.Perm (n :: (s.publishing.erase n).keys) :=
      (entries_perm_erase found).map Sigma.fst
    exact (paired.writes.trans split).cons_inv
  confirms := paired.confirms
  publishing_le key member := by
    rw [AList.keys_erase] at member
    exact paired.publishing_le key (List.mem_of_mem_erase member)
  ledger_le := paired.ledger_le

theorem PairedBut.eraseLedger {n : Nat} {entry : InFlightPublish}
    (paired : PairedBut [] [(n, entry.generation)] s) (found : s.ledger.lookup n = some entry) :
    Paired { s with ledger := s.ledger.erase n } where
  disjoint := by
    rw [AList.keys_erase]
    exact fun key member left => paired.disjoint member (List.mem_of_mem_erase left)
  writes := paired.writes
  confirms := (paired.confirms.trans ((entries_perm_erase found).map entryLabel)).cons_inv
  publishing_le := paired.publishing_le
  ledger_le key member := by
    rw [AList.keys_erase] at member
    exact paired.ledger_le key (List.mem_of_mem_erase member)

theorem Paired.awaitConfirmation {n : Nat} {entry : InFlightPublish}
    {confirmation : PendingConfirmation} (paired : Paired s) (unwritten : n ∉ s.publishing.keys)
    (unfiled : n ∉ s.ledger.keys) (issued : n ≤ s.sequence)
    (label : confirmation.label = (n, entry.generation)) :
    Paired { s.insertLedger n entry with confirmations := s.confirmations ++ [confirmation] } := by
  have entries : (s.ledger.insert n entry).entries = ⟨n, entry⟩ :: s.ledger.entries :=
    AList.entries_insert_of_notMem unfiled
  have keys : (s.ledger.insert n entry).keys = n :: s.ledger.keys := congrArg List.keys entries
  refine ⟨?_, paired.writes, ?_, paired.publishing_le, ?_⟩
  · change s.publishing.keys.Disjoint (s.ledger.insert n entry).keys
    rw [keys, List.disjoint_cons_right]
    exact ⟨unwritten, paired.disjoint⟩
  · change ((s.confirmations ++ [confirmation]).map PendingConfirmation.label).Perm
      ((s.ledger.insert n entry).entries.map entryLabel)
    rw [entries, List.map_append, List.map_cons, List.map_nil, label]
    exact (List.perm_append_singleton _ _).trans (paired.confirms.cons _)
  · change ∀ key ∈ (s.ledger.insert n entry).keys, key ≤ s.sequence
    rw [keys]
    exact List.forall_mem_cons.mpr ⟨issued, paired.ledger_le⟩

theorem Paired.insertPublishing {n : Nat} (paired : Paired s) (unwritten : n ∉ s.publishing.keys)
    (unfiled : n ∉ s.ledger.keys) (issued : n ≤ s.sequence) (retained : RetainedPublish) :
    PairedBut [n] [] (s.insertPublishing n retained) := by
  have keys : (s.publishing.insert n retained).keys = n :: s.publishing.keys :=
    congrArg List.keys (AList.entries_insert_of_notMem unwritten)
  refine ⟨?_, ?_, paired.confirms, ?_, paired.ledger_le⟩
  · change (s.publishing.insert n retained).keys.Disjoint s.ledger.keys
    rw [keys, List.disjoint_cons_left]
    exact ⟨unfiled, paired.disjoint⟩
  · change (n :: s.publishInFlight.map PendingWrite.sequence).Perm (s.publishing.insert n retained).keys
    rw [keys]
    exact paired.writes.cons n
  · change ∀ key ∈ (s.publishing.insert n retained).keys, key ≤ s.sequence
    rw [keys]
    exact List.forall_mem_cons.mpr ⟨issued, paired.publishing_le⟩

theorem Done.paired {write : PendingWrite} {outcome : WireWriteOutcome}
    (done : Done settings s write outcome t) (paired : PairedBut [write.sequence] [] s) : Paired t := by
  have written : write.sequence ∈ s.publishing.keys := paired.writes.subset List.mem_cons_self
  cases done with
  | unknown missing => exact absurd written (AList.lookup_eq_none.mp missing)
  | awaits found _ =>
    have unwritten : write.sequence ∉ (s.publishing.erase write.sequence).keys := by
      rw [AList.keys_erase]
      exact s.publishing.keys_nodup.not_mem_erase
    have unfiled : write.sequence ∉ s.ledger.keys := paired.disjoint written
    exact (paired.erasePublishing found).awaitConfirmation unwritten unfiled
      (paired.publishing_le _ written) rfl
  | resolves found _ => exact { paired.erasePublishing found with }
  | suspends => exact suspend_paired _

theorem PairedBut.found {confirmation : PendingConfirmation} (paired : PairedBut [] [confirmation.label] s) :
    ∃ entry, s.ledger.lookup confirmation.sequence = some entry ∧
      entry.generation = confirmation.generation := by
  obtain ⟨⟨n, entry⟩, member, label⟩ := List.mem_map.mp (paired.confirms.subset List.mem_cons_self)
  obtain ⟨rfl, generation⟩ := Prod.mk.inj label
  exact ⟨entry, List.mem_dlookup s.ledger.nodupKeys member, generation⟩

theorem Paired.resume (paired : Paired s) (resume : Resume) : Paired (s.resume resume) := by
  rcases resume with (_ | command) | reply | ⟨deadline, reply⟩ <;> exact { paired with }

theorem Tries.paired {item : RetainedPublish} {channel : Channel} {pending : List RetainedPublish}
    {resume : Resume} {poll : FirstPoll} (tries : Tries sha256 settings s item channel pending resume poll t)
    (paired : Paired s) (room : s.sequence < 2 ^ 64 - 1) : Paired t := by
  have next : s.nextSequence = s.sequence + 1 := by
    unfold State.nextSequence
    omega
  have grows : s.sequence ≤ s.nextSequence := by omega
  have counted : Paired (s.numbered pending resume) :=
    { paired with
      publishing_le := fun key member => (paired.publishing_le key member).trans grows
      ledger_le := fun key member => (paired.ledger_le key member).trans grows }
  have unwritten : s.nextSequence ∉ s.publishing.keys :=
    fun member => absurd (next ▸ paired.publishing_le _ member) (Nat.not_succ_le_self _)
  have unfiled : s.nextSequence ∉ s.ledger.keys :=
    fun member => absurd (next ▸ paired.ledger_le _ member) (Nat.not_succ_le_self _)
  have written (request : TransportPublish) :
      PairedBut [s.nextSequence] [] (s.written item channel pending resume request) :=
    { counted.insertPublishing unwritten unfiled (Nat.le_refl _) { item with sequence := s.nextSequence } with }
  cases tries with
  | unroutable => exact { counted with }
  | answered _ done _ | late _ done => exact done.paired (written _)
  | broken _ done _ =>
    refine Paired.resume ?_ resume
    exact { done.paired (written _) with }
  | @waits request _ =>
    refine { written request with writes := ?_ }
    change ((s.publishInFlight ++ [s.writeOf settings item channel]).map PendingWrite.sequence).Perm _
    rw [List.map_append]
    exact (List.perm_append_singleton _ _).trans (written request).writes

theorem Paired.acceptPublish (paired : Paired s) (pending : List RetainedPublish) (resume : Resume) :
    Paired (acceptPublish s pending resume) := by
  unfold Publisher.acceptPublish
  split
  · exact { paired with }
  · have setAside : Paired { s with replay := s.replay ++ pending } := { paired with }
    exact setAside.resume resume
  · have refused : Paired (s.resolveAll pending fun _ => .error (permanentFailure s.permanentError)) :=
      { paired with }
    exact refused.resume resume

theorem finishClose_paired (reply : Nat) : Paired (s.finishClose reply) := by
  unfold State.finishClose
  dsimp only
  split <;> exact .emptied rfl rfl rfl rfl

theorem Handles.paired {command : Command} (handles : Handles settings s command t) (paired : Paired s) :
    Paired t := by
  cases handles with
  | publish => exact paired.acceptPublish _ _
  | recovering | fails => exact .emptied rfl rfl rfl rfl
  | closes => exact finishClose_paired _
  | _ => exact { paired with }

theorem Paired.takeWrite {index : Nat} {write : PendingWrite} (paired : Paired s)
    (found : s.publishInFlight[index]? = some write) :
    PairedBut [write.sequence] [] { s with publishInFlight := s.publishInFlight.eraseIdx index } where
  disjoint := paired.disjoint
  writes := ((perm_cons_eraseIdx found).symm.map PendingWrite.sequence).trans paired.writes
  confirms := paired.confirms
  publishing_le := paired.publishing_le
  ledger_le := paired.ledger_le

theorem Paired.takeConfirmation {index : Nat} {confirmation : PendingConfirmation} (paired : Paired s)
    (found : s.confirmations[index]? = some confirmation) :
    PairedBut [] [confirmation.label]
      { s with confirmations := s.confirmations.eraseIdx index } where
  disjoint := paired.disjoint
  writes := paired.writes
  confirms := ((perm_cons_eraseIdx found).symm.map PendingConfirmation.label).trans paired.confirms
  publishing_le := paired.publishing_le
  ledger_le := paired.ledger_le

theorem Turns.paired (turns : Turns sha256 settings s event t) (paired : Paired s)
    (room : s.sequence < 2 ^ 64 - 1) : Paired t := by
  cases turns
  case orphaned => exact .emptied rfl rfl rfl rfl
  case batch rest _ _ =>
    have left : Paired { s with commands := (leadingPublishes rest).2.tail } := { paired with }
    exact left.acceptPublish _ _
  case command handles => exact handles.paired { paired with }
  case handled handles => exact handles.paired paired
  case written found _ done => exact done.paired (paired.takeWrite found)
  case stale found _ stale =>
    obtain ⟨entry, known, same⟩ := (paired.takeConfirmation found).found
    exact absurd same (stale entry known)
  case confirms entry found _ known same _ =>
    have taken := paired.takeConfirmation found
    rw [PendingConfirmation.label, ← same] at taken
    exact { taken.eraseLedger known with }
  case loses => exact suspend_paired _
  case declared declaration _ _ _ _ tries => exact tries.paired { paired with } room
  case tries tries => exact tries.paired paired room
  case drained => exact paired.resume _
  case parks pending _ _ _ _ _ =>
    have setAside : Paired { s with replay := s.replay ++ pending } := { paired with }
    exact setAside.resume _
  case quiesced => exact finishClose_paired _
  all_goals exact { paired with }

def State.drainsTo (sha256 : Bytes → Bytes) (settings : Settings) (s : State) (now : Nat) :
    List RetainedPublish → Option Nat
  | [] => none
  | item :: _ =>
    if overdue now item then none
    else
      s.channel.bind fun _ =>
        match ensureDelayTopology sha256 settings.delayStrategy item.request s.declaredTopology with
        | .ok none => some s.nextSequence
        | _ => none

def handsOut (sha256 : Bytes → Bytes) (settings : Settings) (s : State) : Event → Option Nat
  | .proceed _ =>
    match s.mode with
    | .draining pending now _ => s.drainsTo sha256 settings now pending
    | _ => none
  | .declared (.ok ()) _ =>
    match s.mode with
    | .declaring _ _ _ _ _ => some s.nextSequence
    | _ => none
  | _ => none

section

variable {item : RetainedPublish} {pending : List RetainedPublish} {now : Nat}

theorem drainsTo_dropped {error : PublishError} (dropped : overdue now item = true ∨
      ensureDelayTopology sha256 settings.delayStrategy item.request s.declaredTopology = .error error) :
    s.drainsTo sha256 settings now (item :: pending) = none := by
  rcases dropped with late | failed
  · exact if_pos late
  · cases held : s.channel <;> simp [State.drainsTo, failed, held]

theorem drainsTo_closed (closed : s.channel = none) : s.drainsTo sha256 settings now pending = none := by
  cases pending <;> simp [State.drainsTo, closed]

theorem drainsTo_missing {declaration : Declaration}
    (missing : ensureDelayTopology sha256 settings.delayStrategy item.request s.declaredTopology =
      .ok (some declaration)) : s.drainsTo sha256 settings now (item :: pending) = none := by
  cases held : s.channel <;> simp [State.drainsTo, missing, held]

theorem drainsTo_ready {channel : Channel} (early : overdue now item = false) (held : s.channel = some channel)
    (ready : ensureDelayTopology sha256 settings.delayStrategy item.request s.declaredTopology = .ok none) :
    s.drainsTo sha256 settings now (item :: pending) = some s.nextSequence := by
  simp [State.drainsTo, early, held, ready]

end

theorem Turns.sequence (turns : Turns sha256 settings s event t) :
    t.sequence = (handsOut sha256 settings s event).getD s.sequence := by
  cases turns
  case batch => exact (acceptPublish_passes _ _).1.sequence
  case command handles => exact handles.passes.sequence
  case written done => exact done.keeps.sequence
  case declared declaring tries =>
    simp only [handsOut, declaring, Option.getD_some]
    exact tries.writes.sequence
  case drained draining =>
    simp only [handsOut, draining, State.drainsTo]
    exact (resume_passes _).1.sequence
  case drops draining dropped =>
    simp only [handsOut, draining, drainsTo_dropped dropped]
    rfl
  case parks draining closed =>
    simp only [handsOut, draining, drainsTo_closed closed]
    exact (resume_passes _).1.sequence
  case declares draining _ missing =>
    simp only [handsOut, draining, drainsTo_missing missing]
    rfl
  case tries draining early held ready tries =>
    simp only [handsOut, draining, drainsTo_ready early held ready]
    exact tries.writes.sequence
  case handled handling handles =>
    simp only [handsOut, handling]
    exact handles.passes.sequence
  case quiesced => exact (finishClose_passes _).1.sequence
  all_goals rfl

theorem drainsTo_eq {n now : Nat} {pending : List RetainedPublish}
    (handed : s.drainsTo sha256 settings now pending = some n) : n = s.nextSequence := by
  unfold State.drainsTo at handed
  split at handed
  · cases handed
  · split at handed
    · cases handed
    · obtain ⟨channel, -, handed⟩ := Option.bind_eq_some_iff.mp handed
      split at handed
      · exact (Option.some.inj handed).symm
      · cases handed

theorem handsOut_eq {n : Nat} (handed : handsOut sha256 settings s event = some n) : n = s.nextSequence := by
  unfold handsOut at handed
  split at handed
  · split at handed
    · exact drainsTo_eq handed
    · cases handed
  · split at handed
    · exact (Option.some.inj handed).symm
    · cases handed
  · cases handed

def sequencesOf (sha256 : Bytes → Bytes) (settings : Settings) (trace : List (State × Event)) : List Nat :=
  trace.filterMap fun taken => handsOut sha256 settings taken.1 taken.2

theorem initial_staged (channel : Channel) : Staged (initial settings channel) := by
  refine ⟨fun _ => .of_ready rfl rfl rfl, ?_, fun _ => ⟨rfl, rfl, rfl, rfl⟩⟩
  intro attempts
  simp only [initial] at attempts
  split at attempts <;> cases attempts

theorem traced_paired {trace : List (State × Event)}
    (traced : Traced (machine sha256 settings) (fun _ _ => True) trace s)
    (numbered : ∀ taken ∈ trace, Numbered taken.1 taken.2) :
    Paired s ∧ (sequencesOf sha256 settings trace).Nodup ∧
      ∀ n ∈ sequencesOf sha256 settings trace, n ≤ s.sequence := by
  induction traced with
  | start fresh =>
    obtain ⟨channel, rfl⟩ := fresh
    exact ⟨.emptied rfl rfl rfl rfl, List.nodup_nil, nofun⟩
  | @next trace s t event before _ next ih =>
    obtain ⟨room, earlier⟩ := List.forall_mem_cons.mp numbered
    obtain ⟨paired, distinct, bounded⟩ := ih earlier
    have turns := step_turns next
    have counter := turns.sequence
    refine ⟨turns.paired paired room, ?_⟩
    cases handed : handsOut sha256 settings s event with
    | none =>
      have same : sequencesOf sha256 settings ((s, event) :: trace) = sequencesOf sha256 settings trace :=
        List.filterMap_cons_none handed
      rw [handed, Option.getD_none] at counter
      rw [same, counter]
      exact ⟨distinct, bounded⟩
    | some n =>
      have grown : sequencesOf sha256 settings ((s, event) :: trace) =
          n :: sequencesOf sha256 settings trace := List.filterMap_cons_some handed
      have fresh : n = s.sequence + 1 := by
        have below : s.sequence < 2 ^ 64 - 1 := room
        rw [handsOut_eq handed, State.nextSequence]
        omega
      rw [handed, Option.getD_some] at counter
      rw [grown, counter]
      refine ⟨List.nodup_cons.mpr ⟨fun repeated => ?_, distinct⟩, ?_⟩
      · have := bounded n repeated
        omega
      · refine List.forall_mem_cons.mpr ⟨Nat.le_refl n, fun older member => ?_⟩
        have := bounded older member
        omega

theorem staged_of_reaches {Allowed : State → Event → Prop} (reached : Reaches (machine sha256 settings) Allowed s) :
    Staged s := by
  refine reached.invariant ?_ fun _ staged _ next => (step_turns next).staged staged
  rintro s ⟨channel, rfl⟩
  exact initial_staged channel

/-- In every run: until its last command is being answered the actor holds what its phase allows,
and, as long as its counter has not saturated, every publication on the wire is filed under its own
sequence with the one future that answers it, and no sequence is handed out twice. -/
theorem phases_and_futures {trace : List (State × Event)}
    (traced : Traced (machine sha256 settings) (fun _ _ => True) trace s) :
    (s.mode.ended = false → Phased s) ∧
    ((∀ taken ∈ trace, Numbered taken.1 taken.2) → s.publishing.keys.Disjoint s.ledger.keys ∧
      (s.publishInFlight.map PendingWrite.sequence).Perm s.publishing.keys ∧
      (s.confirmations.map PendingConfirmation.label).Perm (s.ledger.entries.map entryLabel) ∧
      (sequencesOf sha256 settings trace).Nodup) := by
  refine ⟨(staged_of_reaches traced.reaches).phased, fun numbered => ?_⟩
  obtain ⟨paired, distinct, -⟩ := traced_paired traced numbered
  exact ⟨paired.disjoint, paired.writes, paired.confirms, distinct⟩

end

def ordersOnWire : List Event := [
  .confirmsEnabled (.ok ()), .publish order, .publish order, .receive,
  .proceed (.completed (.ok ())), .proceed .pending, .proceed .pending]

theorem orders_on_wire_paired : ∃ trace s, Traced confirming (fun _ _ => True) trace s ∧
    s.mode.ended = false ∧ (∀ taken ∈ trace, Numbered taken.1 taken.2) ∧ s.publishing.keys = [2] ∧
    s.ledger.keys = [1] ∧ Phased s ∧
    (s.publishInFlight.map PendingWrite.sequence).Perm s.publishing.keys ∧
    (s.confirmations.map PendingConfirmation.label).Perm (s.ledger.entries.map entryLabel) ∧
    (sequencesOf noDigest safeSettings trace).Nodup := by
  obtain ⟨trace, s, traced, running, numbered, publishing, ledger⟩ :=
    exists_traced confirming (fun _ _ => True) ⟨firstChannel, rfl⟩ ordersOnWire
      (fun trace s => s.mode.ended = false ∧ (∀ taken ∈ trace, taken.1.sequence < 2 ^ 64 - 1) ∧
        s.publishing.keys = [2] ∧ s.ledger.keys = [1]) (by decide +kernel)
  obtain ⟨phased, paired⟩ := phases_and_futures traced
  obtain ⟨-, writes, confirms, distinct⟩ := paired numbered
  exact ⟨trace, s, traced, running, numbered, publishing, ledger, phased running, writes, confirms,
    distinct⟩

/-- After the last sequence two confirmations are awaited under one key. -/
theorem exhausted_sequence_shares_key : ∃ trace s, Traced confirming (fun _ _ => True) trace s ∧
    s.mode = .idle ∧ ∃ key ∈ s.ledger.keys,
      (s.confirmations.filter fun confirmation => confirmation.sequence = key).length = 2 := by
  obtain ⟨trace, resolved, traced, -⟩ := worn_traced lastSequence
  rw [Nat.min_self] at traced
  obtain ⟨after, s, ran, -, spent⟩ := batch_spent lastSequence resolved trace
  have batched := traced_of_trace (fun _ _ _ => trivial) traced ran
  obtain ⟨s₁, first, spent₁, -⟩ := spent.write
  obtain ⟨s₂, second, spent₂, entry, filed, -⟩ := spent₁.write
  have waits : confirming.step s₂ (.proceed .pending) = some { s₂ with mode := .idle } := by
    simp only [confirming, machine, step, spent₂.mode]
    rfl
  have ends := ((batched.next trivial first).next trivial second).next trivial waits
  refine ⟨_, _, ends, rfl, lastSequence, ?_, ?_⟩
  · exact AList.lookup_isSome.mp (by rw [filed]; rfl)
  · have shared : ∀ c ∈ s₂.confirmations, c.sequence = lastSequence := by
      intro c member
      have label := List.mem_map_of_mem (f := fun c : PendingConfirmation =>
        (c.sequence, c.generation, c.ticket)) member
      rw [spent₂.confirmations] at label
      obtain ⟨ticket, -, same⟩ := List.mem_map.mp label
      exact (Prod.mk.inj same).1.symm
    have all : s₂.confirmations.filter (fun c => c.sequence = lastSequence) = s₂.confirmations :=
      List.filter_eq_self.mpr fun c member => decide_eq_true (shared c member)
    have two := congrArg List.length spent₂.confirmations
    rw [List.length_map, List.length_map] at two
    change (s₂.confirmations.filter _).length = 2
    rw [all, two]
    rfl

end RabbitRs.Publisher
