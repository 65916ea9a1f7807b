import RabbitRs.Publisher.Frames

/-!
The publisher actor as its coordinator sees it: a phase, a channel, and the connection events it
owes an answer to. Every step of the actor is a step of this view, unless the transport reports a
recoverable failure.
-/

namespace RabbitRs.Publisher

inductive Task where
  | event (event : ConnectionEvent) (reply : Nat)
  | enabling (generation : Nat) (channel : Channel) (reply : Nat)
  | flushing (reply : Nat)
  | close

def Command.task : Command → Option Task
  | .publish _ => none
  | .connectionEvent event reply => some (.event event reply)
  | .close _ => some .close

def Resume.task : Resume → Option Task
  | .deferred command => command.bind Command.task
  | .recovered reply => some (.flushing reply)
  | .closing _ _ => some .close

/-- A stopped actor counts as closing. -/
def Mode.task : Mode → Option Task
  | .starting | .idle => none
  | .draining _ _ resume | .declaring _ _ _ _ resume => resume.task
  | .handling command => command.task
  | .enabling generation channel reply => some (.enabling generation channel reply)
  | .closing _ _ | .closingChannel _ | .stopped => some .close

structure View where
  phase : Phase
  channel : Option Channel
  tasks : List Task
  replies : List (Nat × Except PublishError Unit)
  handlesOpen : Bool

def State.queuedTasks (s : State) : List Task := s.commands.filterMap Command.task

def State.view (s : State) : View where
  phase := s.phase
  channel := s.channel
  tasks := s.mode.task.toList ++ s.queuedTasks
  replies := s.replies
  handlesOpen := s.handlesOpen

def View.Offered (v : View) (generation : Nat) (channel : Channel) (restored : Bool) (reply : Nat)
    (rest : List Task) : Prop :=
  v.tasks = .event (.ready generation channel restored) reply :: rest ∨
    v.tasks = .enabling generation channel reply :: rest

/-- The steps the view takes. -/
inductive ViewStep : View → View → Prop where
  | stays {v : View} : ViewStep v v
  | suspends {v : View} {generation reply : Nat} {rest : List Task} :
      v.tasks = .event (.recovering generation) reply :: rest →
      ViewStep v { v with
        phase := .suspended
        channel := none
        tasks := rest
        replies := v.replies ++ [(reply, .ok ())] }
  | fails {v : View} {generation reply : Nat} {error : TransportError} {rest : List Task} :
      v.tasks = .event (.failedPermanent generation error) reply :: rest →
      ViewStep v { v with
        phase := .failedPermanent
        channel := none
        tasks := rest
        replies := v.replies ++ [(reply, .ok ())] }
  | refuses {v : View} {generation reply : Nat} {channel : Channel} {restored : Bool}
      {error : PublishError} {rest : List Task} :
      v.Offered generation channel restored reply rest →
      ViewStep v { v with
        tasks := rest
        replies := v.replies ++ [(reply, .error error)] }
  | enables {v : View} {generation reply : Nat} {channel : Channel} {rest : List Task} :
      v.tasks = .event (.ready generation channel true) reply :: rest →
      ViewStep v { v with tasks := .enabling generation channel reply :: rest }
  | adopts {v : View} {generation reply : Nat} {channel : Channel} {rest : List Task} :
      v.Offered generation channel true reply rest →
      ViewStep v { v with
        phase := .ready
        channel := some channel
        tasks := .flushing reply :: rest }
  | answers {v : View} {reply : Nat} {rest : List Task} : v.tasks = .flushing reply :: rest →
      ViewStep v { v with tasks := rest, replies := v.replies ++ [(reply, .ok ())] }
  | ends {v w : View} : v.tasks.head? = some .close ∨ v.handlesOpen = false →
      w.handlesOpen = v.handlesOpen → ViewStep v w

def Mode.isStarting : Mode → Bool
  | .starting => true
  | _ => false

theorem View.Offered.unique {v : View} {generation generation' reply reply' : Nat}
    {channel channel' : Channel} {restored restored' : Bool} {rest rest' : List Task}
    (left : v.Offered generation channel restored reply rest)
    (right : v.Offered generation' channel' restored' reply' rest') :
    generation' = generation ∧ channel' = channel ∧ reply' = reply ∧ rest' = rest := by
  rcases left with left | left <;> rcases right with right | right <;> rw [left] at right <;>
    cases right <;> exact ⟨rfl, rfl, rfl, rfl⟩

/-- The answers of the transport that change the phase without an event: a recoverable failure of
a write or of a confirmation, and refused confirms at spawn. -/
def Event.breaks (s : State) : Event → Bool
  | .written _ outcome => outcome.recoverable
  | .confirmed _ result => result.recoverable
  | .proceed poll | .declared _ poll => poll.recoverable
  | .confirmsEnabled (.error _) => s.mode.isStarting
  | _ => false

def Event.external : Event → Bool
  | .connectionEvent _ _ | .close _ | .dropHandles => true
  | _ => false

def Broken (v w : View) : Prop := ∃ phase channel, w = { v with phase, channel }

def Passive (v w : View) : Prop :=
  w = v ∨ ∃ reply rest, v.tasks = .flushing reply :: rest ∧
    w = { v with tasks := rest, replies := v.replies ++ [(reply, .ok ())] }

/-- A step of the view, or a batch the transport broke. -/
def Follows (broke : Bool) (v w : View) : Prop :=
  ViewStep v w ∨ broke = true ∧ ∃ stepped, Passive v stepped ∧ Broken stepped w

theorem ViewStep.follows {broke : Bool} {v w : View} (stepped : ViewStep v w) : Follows broke v w :=
  .inl stepped

theorem Follows.handlesOpen {broke : Bool} {v w : View} (follows : Follows broke v w) :
    w.handlesOpen = v.handlesOpen := by
  rcases follows with stepped | ⟨_, stepped, passive, _, _, rfl⟩
  · cases stepped with
    | ends _ same => exact same
    | _ => rfl
  · rcases passive with rfl | ⟨_, _, _, rfl⟩ <;> rfl

theorem Broken.follows {v w : View} (broken : Broken v w) : Follows true v w :=
  .inr ⟨rfl, v, .inl rfl, broken⟩

section

variable {sha256 : Bytes → Bytes} {settings : Settings} {s t : State} {event : Event}

theorem Keeps.broken (keeps : Keeps s t) : Broken s.view t.view := by
  refine ⟨t.phase, t.channel, ?_⟩
  simp only [State.view, State.queuedTasks, keeps.mode, keeps.commands, keeps.replies,
    keeps.handlesOpen]

def State.viewAt (s : State) (head : Option Task) : View :=
  { s.view with tasks := head.toList ++ s.queuedTasks }

theorem viewAt_eq {head : Option Task} (same : s.mode.task = head) : s.viewAt head = s.view := by
  rw [← same]
  rfl

theorem resume_broken {v : View} (resume : Resume) (broken : Broken v (s.viewAt resume.task)) :
    ∃ stepped, Passive v stepped ∧ Broken stepped (s.resume resume).view := by
  obtain ⟨phase, channel, same⟩ := broken
  obtain ⟨vPhase, vChannel, tasks, replies, handles⟩ := v
  simp only [State.viewAt, State.view, View.mk.injEq] at same
  obtain ⟨rfl, rfl, rfl, rfl, rfl⟩ := same
  rcases resume with (_ | command) | reply | ⟨deadline, reply⟩
  · exact ⟨_, .inl rfl, s.phase, s.channel, rfl⟩
  · exact ⟨_, .inl rfl, s.phase, s.channel, rfl⟩
  · exact ⟨_, .inr ⟨reply, _, rfl, rfl⟩, s.phase, s.channel, rfl⟩
  · exact ⟨_, .inl rfl, s.phase, s.channel, rfl⟩

theorem resume_view (resume : Resume) : ViewStep (s.viewAt resume.task) (s.resume resume).view := by
  rcases resume with (_ | command) | reply | ⟨deadline, reply⟩
  · exact .stays
  · exact .stays
  · exact .answers rfl
  · exact .stays

theorem Done.follows {write : PendingWrite} {outcome : WireWriteOutcome}
    (done : Done settings s write outcome t) : t.view = s.view ∨ outcome.recoverable = true := by
  cases done with
  | suspends _ broke => exact .inr broke
  | _ => exact .inl rfl

theorem Tries.follows {item : RetainedPublish} {channel : Channel} {pending : List RetainedPublish}
    {resume : Resume} {poll : FirstPoll} (tries : Tries sha256 settings s item channel pending resume poll t) :
    Follows poll.recoverable (s.viewAt resume.task) t.view := by
  have polled : ∀ result : Except TransportError Unit,
      (WireWriteOutcome.completed result).recoverable = (FirstPoll.completed result).recoverable := by
    intro result
    cases result <;> rfl
  cases tries with
  | unroutable | waits => exact ViewStep.stays.follows
  | late _ done =>
    rcases done.follows with same | broke
    · rw [same]
      exact ViewStep.stays.follows
    · cases broke
  | @answered request result _ _ done _ =>
    rcases done.follows with same | broke
    · rw [same]
      exact ViewStep.stays.follows
    · rw [← polled, broke]
      exact Broken.follows done.keeps.broken
  | @broken request result u _ done _ =>
    have held : { u with replay := u.replay ++ pending }.viewAt resume.task = u.view :=
      viewAt_eq (congrArg Mode.task done.keeps.mode)
    rcases done.follows with same | broke
    · have step := @resume_view { u with replay := u.replay ++ pending } resume
      rw [held, same] at step
      exact step.follows
    · exact .inr ⟨polled result ▸ broke, resume_broken resume (held ▸ done.keeps.broken)⟩

theorem acceptPublish_view (pending : List RetainedPublish) (resume : Resume) :
    ViewStep (s.viewAt resume.task) (acceptPublish s pending resume).view := by
  unfold acceptPublish
  split
  · exact .stays
  · exact @resume_view { s with replay := s.replay ++ pending } resume
  · exact @resume_view (s.resolveAll pending _) resume

theorem finishClose_handlesOpen (reply : Nat) : (s.finishClose reply).handlesOpen = s.handlesOpen := by
  unfold State.finishClose
  dsimp only
  split <;> rfl

theorem Handles.view {command : Command} (handles : Handles settings s command t) :
    ViewStep (s.viewAt command.task) t.view := by
  cases handles with
  | publish => exact acceptPublish_view _ (.deferred none)
  | recovering => exact .suspends rfl
  | refuses => exact .refuses (.inl rfl)
  | enables => exact .enables rfl
  | adopts => exact .adopts (.inl rfl)
  | fails => exact .fails rfl
  | flushes => exact .ends (.inl rfl) rfl
  | closes => exact .ends (.inl rfl) (finishClose_handlesOpen _)

theorem leadingPublishes_tasks (commands : List Command) :
    (leadingPublishes commands).2.filterMap Command.task = commands.filterMap Command.task := by
  induction commands with
  | nil => rfl
  | cons command rest ih =>
    cases command with
    | publish retained => exact ih
    | connectionEvent event reply | close reply => rfl

theorem deferred_tasks (commands : List Command) :
    (Resume.deferred commands.head?).task.toList ++ commands.tail.filterMap Command.task =
      commands.filterMap Command.task := by
  cases commands with
  | nil => rfl
  | cons command rest => cases command <;> rfl

theorem idle_viewAt {commands : List Command} (idle : s.mode = .idle)
    (queued : commands.filterMap Command.task = s.queuedTasks) :
    { s with commands := commands.tail }.viewAt (Resume.deferred commands.head?).task = s.view := by
  simp only [State.viewAt, State.view, State.queuedTasks, deferred_tasks, queued, idle]
  rfl

theorem Turns.follows (turns : Turns sha256 settings s event t) (internal : event.external = false) :
    Follows (event.breaks s) s.view t.view := by
  cases turns
  case tick | expire | stale | confirms => exact ViewStep.stays.follows
  case connectionEvent | close | dropHandles => cases internal
  case publish request _ =>
    refine .inl ?_
    simp only [State.view, State.queuedTasks, List.filterMap_append]
    rw [show [Command.publish _].filterMap Command.task = [] from rfl, List.append_nil]
    exact .stays
  case orphaned error _ _ dropped =>
    exact (@ViewStep.ends s.view (s.failAll error).stop.view (.inr dropped) rfl).follows
  case batch retained rest idle queued =>
    have before := @idle_viewAt s (leadingPublishes rest).2 idle (by
      rw [leadingPublishes_tasks, State.queuedTasks, queued]
      rfl)
    rw [← before]
    exact (acceptPublish_view _ (.deferred (leadingPublishes rest).2.head?)).follows
  case command command rest idle queued _ handles =>
    rw [← @idle_viewAt s (command :: rest) idle (congrArg _ queued.symm)]
    exact handles.view.follows
  case written index write outcome _ _ done =>
    rcases done.follows with same | broke
    · rw [same]
      exact ViewStep.stays.follows
    · rw [Event.breaks, broke]
      exact Broken.follows done.keeps.broken
  case loses broke =>
    rw [Event.breaks, broke]
    exact Broken.follows ⟨.suspended, none, rfl⟩
  case started starting =>
    rw [← viewAt_eq (congrArg Mode.task starting)]
    exact ViewStep.stays.follows
  case unstarted starting =>
    refine .inr ⟨?_, s.view, .inl rfl, .failedPermanent, s.channel, ?_⟩
    · simp only [Event.breaks, starting]
      rfl
    · simp only [State.view, State.queuedTasks, starting]
      rfl
  case enabled enabling =>
    rw [← viewAt_eq (congrArg Mode.task enabling)]
    exact (ViewStep.adopts (.inr rfl)).follows
  case unenabled generation reply channel error enabling =>
    rw [← viewAt_eq (congrArg Mode.task enabling)]
    exact (@ViewStep.refuses _ generation reply channel true _ _ (.inr rfl)).follows
  case undeclared declaring =>
    rw [← viewAt_eq (congrArg Mode.task declaring)]
    exact ViewStep.stays.follows
  case declared declaring tries =>
    rw [← viewAt_eq (congrArg Mode.task declaring)]
    exact tries.follows
  case drained draining =>
    rw [← viewAt_eq (congrArg Mode.task draining)]
    exact (resume_view _).follows
  case drops draining _ | declares draining _ _ =>
    rw [← viewAt_eq (congrArg Mode.task draining)]
    exact ViewStep.stays.follows
  case parks pending now resume _ draining _ =>
    rw [← viewAt_eq (congrArg Mode.task draining)]
    exact (@resume_view { s with replay := s.replay ++ pending } resume).follows
  case tries draining _ _ _ tries =>
    rw [← viewAt_eq (congrArg Mode.task draining)]
    exact tries.follows
  case handled handling handles =>
    rw [← viewAt_eq (congrArg Mode.task handling)]
    exact handles.view.follows
  case quiesced closing =>
    refine (ViewStep.ends (.inl ?_) (finishClose_handlesOpen _)).follows
    simp only [State.view, closing]
    rfl
  case channelClosed closing =>
    refine ViewStep.follows (.ends (.inl ?_) rfl)
    simp only [State.view, closing]
    rfl

end

end RabbitRs.Publisher
