import RabbitRs.Publisher.Turns

/-!
What the steps of the publisher actor leave alone: who accepts publications, what is on the wire,
and what is empty once the actor is on its way out.
-/

namespace RabbitRs.Publisher

def Mode.declares : Mode → Bool
  | .declaring _ _ _ _ _ => true
  | _ => false

def Mode.ended : Mode → Bool
  | .closingChannel _ | .stopped => true
  | _ => false

def State.settled (s : State) : Prop := s.replay = [] ∧ s.publishing = ∅ ∧ s.ledger = ∅

def Emptied (s : State) : Prop :=
  match s.mode with
  | .closingChannel _ => s.settled
  | .stopped => s.settled ∧ s.commands = []
  | _ => True

structure Keeps (s t : State) : Prop where
  mode : t.mode = s.mode
  commands : t.commands = s.commands
  handlesOpen : t.handlesOpen = s.handlesOpen
  replies : t.replies = s.replies
  accepted : t.accepted = s.accepted
  wire : t.wire = s.wire
  declaredTopology : t.declaredTopology = s.declaredTopology
  sequence : t.sequence = s.sequence

structure Passes (s t : State) : Prop where
  accepted : t.accepted = s.accepted
  wire : t.wire = s.wire
  declaredTopology : t.declaredTopology = s.declaredTopology
  sequence : t.sequence = s.sequence
  quiet : t.mode.declares = false

structure Writes (sha256 : Bytes → Bytes) (settings : Settings) (channel : Channel)
    (request : PublishRequest) (s t : State) : Prop where
  accepted : t.accepted = s.accepted
  declaredTopology : t.declaredTopology = s.declaredTopology
  sequence : t.sequence = s.nextSequence
  quiet : t.mode.declares = false
  running : t.mode.ended = false
  wire : t.wire = s.wire ∨ ∃ write, routeTransportRequest sha256 request settings.delayStrategy
      settings.config.mandatoryFlag = .ok write ∧ t.wire = s.wire ++ [.publish channel request write]

section

variable {sha256 : Bytes → Bytes} {settings : Settings} {s t : State} {event : Event}

theorem Done.keeps {write : PendingWrite} {outcome : WireWriteOutcome} (done : Done settings s write outcome t) :
    Keeps s t := by
  cases done <;> exact ⟨rfl, rfl, rfl, rfl, rfl, rfl, rfl, rfl⟩

theorem resume_passes (resume : Resume) :
    Passes s (s.resume resume) ∧ (s.resume resume).mode.ended = false := by
  rcases resume with (_ | command) | reply | ⟨deadline, reply⟩ <;> exact ⟨⟨rfl, rfl, rfl, rfl, rfl⟩, rfl⟩

theorem acceptPublish_passes (pending : List RetainedPublish) (resume : Resume) :
    Passes s (acceptPublish s pending resume) ∧ (acceptPublish s pending resume).mode.ended = false := by
  unfold acceptPublish
  split
  · exact ⟨⟨rfl, rfl, rfl, rfl, rfl⟩, rfl⟩
  · obtain ⟨passed, running⟩ := @resume_passes { s with replay := s.replay ++ pending } resume
    exact ⟨{ passed with }, running⟩
  · obtain ⟨passed, running⟩ :=
      @resume_passes (s.resolveAll pending fun _ => .error (permanentFailure s.permanentError)) resume
    exact ⟨{ passed with }, running⟩

theorem finishClose_passes (reply : Nat) : Passes s (s.finishClose reply) ∧ Emptied (s.finishClose reply) := by
  unfold State.finishClose
  dsimp only
  split
  · exact ⟨⟨rfl, rfl, rfl, rfl, rfl⟩, ⟨rfl, rfl, rfl⟩, rfl⟩
  · exact ⟨⟨rfl, rfl, rfl, rfl, rfl⟩, rfl, rfl, rfl⟩

theorem Handles.passes {command : Command} (handles : Handles settings s command t) : Passes s t := by
  cases handles with
  | publish => exact (acceptPublish_passes _ _).1
  | closes => exact (finishClose_passes _).1
  | _ => exact ⟨rfl, rfl, rfl, rfl, rfl⟩

theorem Tries.writes {item : RetainedPublish} {channel : Channel} {pending : List RetainedPublish}
    {resume : Resume} {poll : FirstPoll} (tries : Tries sha256 settings s item channel pending resume poll t) :
    Writes sha256 settings channel item.request s t := by
  -- an answer leaves the task and the log of the write alone
  have answered {request : TransportPublish} {outcome : WireWriteOutcome} {u : State}
      (routed : Routes sha256 settings item request)
      (done : Done settings (s.written item channel pending resume request) (s.writeOf settings item channel)
        outcome u) : Writes sha256 settings channel item.request s u := by
    have kept := done.keeps
    exact ⟨kept.accepted, kept.declaredTopology, kept.sequence, kept.mode ▸ rfl, kept.mode ▸ rfl,
      .inr ⟨request, routed, kept.wire⟩⟩
  cases tries with
  | unroutable => exact ⟨rfl, rfl, rfl, rfl, rfl, .inl rfl⟩
  | answered routed done _ | late routed done => exact answered routed done
  | @broken request result u routed done _ =>
    have wrote := answered routed done
    obtain ⟨passed, running⟩ := @resume_passes { u with replay := u.replay ++ pending } resume
    exact ⟨passed.accepted.trans wrote.accepted, passed.declaredTopology.trans wrote.declaredTopology,
      passed.sequence.trans wrote.sequence, passed.quiet, running, .inr ⟨request, routed, passed.wire.trans done.keeps.wire⟩⟩
  | @waits request routed => exact ⟨rfl, rfl, rfl, rfl, rfl, .inr ⟨request, routed, rfl⟩⟩

theorem polls_running (polls : s.polls = true) : s.mode.declares = false ∧ s.mode.ended = false := by
  unfold State.polls at polls
  split at polls
  · case h_1 idle => exact idle ▸ ⟨rfl, rfl⟩
  · case h_2 closing => exact closing ▸ ⟨rfl, rfl⟩
  · cases polls

theorem Keeps.polled (keeps : Keeps s t) (polls : s.polls = true) : Passes s t :=
  ⟨keeps.accepted, keeps.wire, keeps.declaredTopology, keeps.sequence, keeps.mode ▸ (polls_running polls).1⟩

theorem Emptied.of_running (running : s.mode.ended = false) : Emptied s := by
  unfold Emptied
  split
  · case h_1 closing => cases closing ▸ running
  · case h_2 stopped => cases stopped ▸ running
  · trivial

theorem Turns.emptied (turns : Turns sha256 settings s event t) (emptied : Emptied s) : Emptied t := by
  cases turns
  case tick | dropHandles => exact emptied
  case publish running | connectionEvent running | close running =>
    unfold Emptied at emptied ⊢
    cases mode : s.mode <;> simp_all [Mode.isStopped, State.settled]
  case orphaned => exact ⟨⟨rfl, rfl, rfl⟩, rfl⟩
  case batch => exact .of_running (acceptPublish_passes _ _).2
  case command handles | handled handles =>
    cases handles with
    | publish => exact .of_running (acceptPublish_passes _ _).2
    | closes => exact (finishClose_passes _).2
    | _ => trivial
  case expire idle => exact .of_running (by change s.mode.ended = false; rw [idle]; rfl)
  case written polls done => exact .of_running (done.keeps.mode ▸ (polls_running polls).2)
  case stale polls _ | confirms polls _ _ _ | loses polls _ _ _ => exact .of_running (polls_running polls).2
  case declared tries | tries tries => exact .of_running tries.writes.running
  case drained | parks => exact .of_running (resume_passes _).2
  case quiesced => exact (finishClose_passes _).2
  case channelClosed closing =>
    unfold Emptied at emptied
    rw [closing] at emptied
    exact ⟨emptied, rfl⟩
  all_goals trivial

inductive Logs (sha256 : Bytes → Bytes) (settings : Settings) (s : State) : Event → State → Prop where
  | stays {event : Event} {t : State} : t.mode = s.mode → t.wire = s.wire →
      t.declaredTopology = s.declaredTopology → Logs sha256 settings s event t
  | passes {event : Event} {t : State} : Passes s t → Logs sha256 settings s event t
  | asks {poll : FirstPoll} {item : RetainedPublish} {rest : List RetainedPublish} {resume : Resume}
      {channel : Channel} {declaration : Declaration} :
      ensureDelayTopology sha256 settings.delayStrategy item.request s.declaredTopology = .ok (some declaration) →
      Logs sha256 settings s (.proceed poll) { s with mode := .declaring item channel declaration rest resume }
  | writes {poll : FirstPoll} {item : RetainedPublish} {rest : List RetainedPublish} {now : Nat}
      {resume : Resume} {channel : Channel} {t : State} : s.mode = .draining (item :: rest) now resume →
      overdue now item = false →
      ensureDelayTopology sha256 settings.delayStrategy item.request s.declaredTopology = .ok none →
      Writes sha256 settings channel item.request s t → Logs sha256 settings s (.proceed poll) t
  | declares {poll : FirstPoll} {item : RetainedPublish} {channel : Channel} {declaration : Declaration}
      {pending : List RetainedPublish} {resume : Resume} {t : State} :
      s.mode = .declaring item channel declaration pending resume →
      Writes sha256 settings channel item.request { s with
        declaredTopology := declaration.name :: s.declaredTopology
        wire := s.wire ++ [.declare channel declaration item.request] } t →
      Logs sha256 settings s (.declared (.ok ()) poll) t

theorem Turns.logs (turns : Turns sha256 settings s event t) : Logs sha256 settings s event t := by
  cases turns
  case tick | publish | connectionEvent | close | dropHandles | expire | stale | confirms | loses =>
    exact .stays rfl rfl rfl
  case batch => exact .passes { (acceptPublish_passes _ _).1 with }
  case command handles => exact .passes { handles.passes with }
  case handled handles => exact .passes handles.passes
  case written polls done => exact .passes (Keeps.polled { done.keeps with } polls)
  case declared declaring tries => exact .declares declaring tries.writes
  case tries draining early _ ready tries => exact .writes draining early ready tries.writes
  case declares _ _ missing => exact .asks missing
  case drained => exact .passes (resume_passes _).1
  case parks => exact .passes { (resume_passes _).1 with }
  case quiesced => exact .passes (finishClose_passes _).1
  all_goals exact .passes ⟨rfl, rfl, rfl, rfl, rfl⟩

end

end RabbitRs.Publisher
