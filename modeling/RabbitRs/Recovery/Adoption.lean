import RabbitRs.Recovery.Coordinator

/-!
A recovered publisher: behind a connection that is Ready at a recovered generation, the publisher
holds a channel of that generation, if the transport breaks the publisher only after the connection.
-/

namespace RabbitRs.Recovery

open StepMachine
open Publisher (Channel ConnectionEvent View ViewStep Follows)

def Past (c : Connection) (generation : Nat) : Prop :=
  generation ≤ c.generation ∧ c.published ≠ .ready generation

theorem published_ready {c : Connection} {generation : Nat} :
    c.published = .ready generation ↔ c.phase.isReady = true ∧ c.generation = generation := by
  cases phase : c.phase <;> simp [Connection.published, Phase.isReady, phase]

structure Grows (c d : Connection) : Prop where
  generation : c.generation ≤ d.generation
  past : ∀ generation, Past c generation → Past d generation
  reply : d.reply = c.reply ∨
    ∃ result, d.reply = some result ∧ ∀ channel, result = .ok channel → channel.opened = c.generation

theorem Connection.Stays.grows {c d : Connection} (stays : c.Stays d) : Grows c d := by
  refine ⟨stays.generation.ge, ?_, stays.reply⟩
  rintro generation ⟨reached, left⟩
  refine ⟨stays.generation.symm ▸ reached, ?_⟩
  intro ready
  obtain ⟨isReady, same⟩ := published_ready.mp ready
  exact left (published_ready.mpr ⟨stays.ready isReady, stays.generation.symm.trans same⟩)

theorem becomeReady_grows {c : Connection} (room : c.generation + 1 < 2 ^ 64) : Grows c c.becomeReady := by
  have next : c.becomeReady.generation = c.generation + 1 := by
    simp only [Connection.becomeReady]
    omega
  refine ⟨by omega, ?_, .inl rfl⟩
  rintro generation ⟨reached, _⟩
  refine ⟨by omega, ?_⟩
  intro ready
  have same := (published_ready.mp ready).2
  omega

/-- The transport breaks the publisher only once the connection has left the generation of the
publisher's channel; and generations do not run out. -/
def Calm (s : System) : Event → Prop
  | .publisher event => ∀ p channel, s.publisher = some p → event.breaks p = true →
      p.channel = some channel → s.conn.published ≠ .ready channel.opened
  | .connection (.attempted (.completed (.ok ()))) => s.conn.generation + 1 < 2 ^ 64
  | _ => True

def Between (generation : Nat) (channel : Channel) (c : Connection) : Prop :=
  generation ≤ channel.opened ∧ channel.opened ≤ c.generation

def Holds (c : Connection) (v : View) (generation : Nat) : Prop :=
  ∃ channel, v.phase = .ready ∧ v.channel = some channel ∧ Between generation channel c

theorem Between.past {generation : Nat} {channel : Channel} {c : Connection}
    (between : Between generation channel c) (left : c.published ≠ .ready channel.opened) :
    Past c generation := by
  refine ⟨between.1.trans between.2, ?_⟩
  intro ready
  have same := (published_ready.mp ready).2
  have opened : channel.opened = generation := by
    have low := between.1
    have high := between.2
    omega
  exact left (opened.symm ▸ ready)

theorem Holds.grows {c d : Connection} {v : View} {generation : Nat} (grows : Grows c d)
    (holds : Holds c v generation) : Holds d v generation := by
  obtain ⟨channel, ready, held, low, high⟩ := holds
  exact ⟨channel, ready, held, low, high.trans grows.generation⟩

def Kept (c : Connection) (publisher : Option Publisher.State) (generation : Nat) : Prop :=
  Past c generation ∨ ∃ p, publisher = some p ∧ Holds c p.view generation

theorem Kept.grows {c d : Connection} {publisher : Option Publisher.State} {generation : Nat}
    (grows : Grows c d) (kept : Kept c publisher generation) : Kept d publisher generation := by
  rcases kept with past | ⟨p, same, holds⟩
  · exact .inl (grows.past generation past)
  · exact .inr ⟨p, same, holds.grows grows⟩

theorem follows_resting {broke : Bool} {v w : View} (resting : v.tasks = [])
    (handles : v.handlesOpen = true) (follows : Follows broke v w) :
    w = v ∨ broke = true ∧ Publisher.Broken v w := by
  rcases follows with stepped | ⟨broke, stepped, passive, broken⟩
  · cases stepped with
    | stays => exact .inl rfl
    | suspends task | fails task | enables task | answers task => simp [resting] at task
    | refuses offered | adopts offered =>
      rcases offered with task | task <;> simp [resting] at task
    | ends ending => simp [resting, handles] at ending
  · rcases passive with rfl | ⟨_, _, task, _⟩
    · exact .inr ⟨broke, broken⟩
    · simp [resting] at task

def isWarning : ConnectionEvent → Bool
  | .ready _ _ _ => false
  | .recovering _ | .failedPermanent _ _ => true

def Notifying (v : View) (reply : Nat) : Prop :=
  v.tasks = [] ∨ ∃ event, isWarning event = true ∧ v.tasks = [.event event reply] ∧
    v.replies.lookup reply = none

inductive Adopting (c : Connection) (generation : Nat) (channel : Channel) (reply : Nat) (v : View) : Prop where
  | queued : v.replies.lookup reply = none → v.Offered generation channel true reply [] →
      Adopting c generation channel reply v
  | flushing : v.replies.lookup reply = none → v.tasks = [.flushing reply] →
      Past c generation ∨ v.phase = .ready ∧ v.channel = some channel →
      Adopting c generation channel reply v
  | refused {error : PublishError} : v.replies.lookup reply = some (.error error) → v.tasks = [] →
      Adopting c generation channel reply v
  | done : v.replies.lookup reply = some (.ok ()) → v.tasks = [] →
      Past c generation ∨ v.phase = .ready ∧ v.channel = some channel →
      Adopting c generation channel reply v

theorem lookup_snoc_self {replies : List (Nat × Except PublishError Unit)} {reply : Nat}
    {result : Except PublishError Unit} (fresh : replies.lookup reply = none) :
    (replies ++ [(reply, result)]).lookup reply = some result := by
  induction replies with
  | nil => simp
  | cons first rest ih =>
    obtain ⟨key, value⟩ := first
    by_cases same : reply = key
    · simp [same] at fresh
    · rw [List.lookup_cons, beq_eq_false_iff_ne.mpr same] at fresh
      rw [List.cons_append, List.lookup_cons, beq_eq_false_iff_ne.mpr same]
      exact ih fresh

theorem Notifying.follows {broke : Bool} {v w : View} {reply : Nat} (notifying : Notifying v reply)
    (handles : v.handlesOpen = true) (follows : Follows broke v w) : Notifying w reply := by
  rcases notifying with resting | ⟨event, warning, tasks, fresh⟩
  · rcases follows_resting resting handles follows with rfl | ⟨_, _, _, rfl⟩ <;> exact .inl resting
  · rcases follows with stepped | ⟨_, stepped, passive, phase, channel, rfl⟩
    · cases stepped with
      | stays => exact .inr ⟨event, warning, tasks, fresh⟩
      | suspends task | fails task =>
        rw [tasks] at task
        exact .inl (List.cons.inj task).2.symm
      | answers task =>
        rw [tasks] at task
        cases task
      | enables task =>
        rw [tasks] at task
        cases task
        cases warning
      | refuses offered | adopts offered =>
        rcases offered with task | task <;> rw [tasks] at task <;> cases task
        cases warning
      | ends ending => simp [tasks, handles] at ending
    · rcases passive with rfl | ⟨_, _, task, _⟩
      · exact .inr ⟨event, warning, tasks, fresh⟩
      · simp [tasks] at task

theorem Adopting.grows {c d : Connection} {generation reply : Nat} {channel : Channel} {v : View}
    (grows : Grows c d) (adopting : Adopting c generation channel reply v) :
    Adopting d generation channel reply v := by
  cases adopting with
  | queued fresh tasks => exact .queued fresh tasks
  | flushing fresh tasks held => exact .flushing fresh tasks (held.imp_left (grows.past generation))
  | refused refused tasks => exact .refused refused tasks
  | done answered tasks held => exact .done answered tasks (held.imp_left (grows.past generation))

theorem Between.calm {c : Connection} {generation : Nat} {channel : Channel} {v : View}
    (between : Between generation channel c)
    (calm : ∀ held, v.channel = some held → c.published ≠ .ready held.opened)
    (held : Past c generation ∨ v.phase = .ready ∧ v.channel = some channel) : Past c generation := by
  rcases held with past | ⟨_, holds⟩
  · exact past
  · exact between.past (calm channel holds)

theorem Adopting.follows {broke : Bool} {c : Connection} {generation reply : Nat} {channel : Channel}
    {v w : View} (between : Between generation channel c)
    (adopting : Adopting c generation channel reply v) (handles : v.handlesOpen = true)
    (calm : broke = true → ∀ held, v.channel = some held → c.published ≠ .ready held.opened)
    (follows : Follows broke v w) : Adopting c generation channel reply w := by
  cases adopting with
  | queued fresh offered =>
    rcases follows with stepped | ⟨_, stepped, passive, phase, other, rfl⟩
    · cases stepped with
      | stays => exact .queued fresh offered
      | suspends task | fails task | answers task =>
        rcases offered with same | same <;> rw [same] at task <;> cases task
      | refuses taken =>
        obtain ⟨_, _, rfl, rfl⟩ := offered.unique taken
        exact .refused (lookup_snoc_self fresh) rfl
      | enables task =>
        obtain ⟨rfl, rfl, rfl, rfl⟩ := offered.unique (.inl task)
        exact .queued fresh (.inr rfl)
      | adopts taken =>
        obtain ⟨rfl, rfl, rfl, rfl⟩ := offered.unique taken
        exact .flushing fresh rfl (.inr ⟨rfl, rfl⟩)
      | ends ending =>
        rcases offered with same | same <;> simp [same, handles] at ending
    · rcases passive with rfl | ⟨_, _, task, _⟩
      · exact .queued fresh offered
      · rcases offered with same | same <;> rw [same] at task <;> cases task
  | flushing fresh tasks held =>
    rcases follows with stepped | ⟨broken, stepped, passive, phase, other, rfl⟩
    · cases stepped with
      | stays => exact .flushing fresh tasks held
      | suspends task | fails task | enables task =>
        rw [tasks] at task
        cases task
      | refuses offered | adopts offered =>
        rcases offered with task | task <;> rw [tasks] at task <;> cases task
      | answers task =>
        rw [tasks] at task
        cases task
        exact .done (lookup_snoc_self fresh) rfl held
      | ends ending => simp [tasks, handles] at ending
    · have past := between.calm (calm broken) held
      rcases passive with rfl | ⟨_, _, task, rfl⟩
      · exact .flushing fresh tasks (.inl past)
      · rw [tasks] at task
        cases task
        exact .done (lookup_snoc_self fresh) rfl (.inl past)
  | refused refused tasks =>
    rcases follows_resting tasks handles follows with rfl | ⟨_, _, _, rfl⟩ <;>
      exact .refused refused tasks
  | done answered tasks held =>
    rcases follows_resting tasks handles follows with rfl | ⟨broken, _, _, rfl⟩
    · exact .done answered tasks held
    · exact .done answered tasks (.inl (between.calm (calm broken) held))

def Rests (publisher : Option Publisher.State) : Prop :=
  ∀ p, publisher = some p → p.view.tasks = []

def AllPast (s : System) : Prop := ∀ generation ∈ s.completed, Past s.conn generation

def Steady (s : System) : Prop :=
  Rests s.publisher ∧ ∀ generation ∈ s.completed, Past s.conn generation ∨
    generation = s.lastGeneration ∧ Kept s.conn s.publisher generation

def ModeSound (s : System) : Prop :=
  match s.mode with
  | .starting | .idle | .noticed | .keepingAlive => Steady s
  | .requesting generation => Rests s.publisher ∧ AllPast s ∧ s.lastGeneration = generation ∧
      generation ≤ s.conn.generation
  | .opening generation => Rests s.publisher ∧ AllPast s ∧ s.lastGeneration = generation ∧
      generation ≤ s.conn.generation ∧
      ∀ channel, s.conn.reply = some (.ok channel) → Between generation channel s.conn
  | .reconciling generation channel | .offering generation channel => Rests s.publisher ∧
      AllPast s ∧ s.lastGeneration = generation ∧ Between generation channel s.conn
  | .adopting generation channel reply => AllPast s ∧ s.lastGeneration = generation ∧
      Between generation channel s.conn ∧
      ∃ p, s.publisher = some p ∧ Adopting s.conn generation channel reply p.view
  | .establishing generation => Rests s.publisher ∧ AllPast s ∧ s.lastGeneration = generation ∧
      Kept s.conn s.publisher generation
  | .failing _ _ => Rests s.publisher ∧ AllPast s
  | .warning event => Rests s.publisher ∧ AllPast s ∧ isWarning event = true
  | .notifying reply => AllPast s ∧ ∀ p, s.publisher = some p → Notifying p.view reply
  | .closing | .closingPublisher _ | .stopped => True

structure Sound (s : System) : Prop where
  held : s.conn.Held
  handles : ∀ p, s.publisher = some p → p.view.handlesOpen = true
  mode : ModeSound s

theorem ModeSound.grows {s : System} {d : Connection} (grows : Grows s.conn d)
    (sound : ModeSound s) : ModeSound { s with conn := d } := by
  have past : AllPast s → AllPast { s with conn := d } :=
    fun all generation member => grows.past generation (all generation member)
  have between : ∀ {generation channel}, Between generation channel s.conn → Between generation channel d :=
    fun known => ⟨known.1, known.2.trans grows.generation⟩
  unfold ModeSound at sound ⊢
  dsimp only
  split at sound
  case h_1 | h_2 | h_3 | h_4 =>
    refine ⟨sound.1, fun generation member => ?_⟩
    rcases sound.2 generation member with left | ⟨last, kept⟩
    · exact .inl (grows.past generation left)
    · exact .inr ⟨last, kept.grows grows⟩
  case h_5 generation => exact ⟨sound.1, past sound.2.1, sound.2.2.1, sound.2.2.2.trans grows.generation⟩
  case h_6 generation =>
    obtain ⟨rests, all, last, reached, replied⟩ := sound
    refine ⟨rests, past all, last, reached.trans grows.generation, ?_⟩
    intro channel answered
    rcases grows.reply with same | ⟨result, found, own⟩
    · exact between (replied channel (same.symm.trans answered))
    · have ok := Option.some.inj (found.symm.trans answered)
      have opened := own channel ok
      exact ⟨opened ▸ reached, opened ▸ grows.generation⟩
  case h_7 | h_8 => exact ⟨sound.1, past sound.2.1, sound.2.2.1, between sound.2.2.2⟩
  case h_9 =>
    obtain ⟨all, last, known, p, same, adopting⟩ := sound
    exact ⟨past all, last, between known, p, same, adopting.grows grows⟩
  case h_10 => exact ⟨sound.1, past sound.2.1, sound.2.2.1, sound.2.2.2.grows grows⟩
  case h_11 => exact ⟨sound.1, past sound.2⟩
  case h_12 => exact ⟨sound.1, past sound.2.1, sound.2.2⟩
  case h_13 => exact ⟨past sound.1, sound.2⟩
  case h_14 | h_15 | h_16 => trivial

theorem Kept.follows {c : Connection} {p q : Publisher.State} {broke : Bool} {generation : Nat}
    (kept : Kept c (some p) generation) (resting : p.view.tasks = [])
    (handles : p.view.handlesOpen = true)
    (calm : broke = true → ∀ held, p.view.channel = some held → c.published ≠ .ready held.opened)
    (follows : Follows broke p.view q.view) : Kept c (some q) generation := by
  rcases kept with past | ⟨holder, same, channel, ready, held, between⟩
  · exact .inl past
  · cases same
    rcases follows_resting resting handles follows with same | ⟨broken, _⟩
    · exact .inr ⟨q, rfl, channel, same ▸ ready, same ▸ held, between⟩
    · exact .inl (between.past (calm broken channel held))

theorem Rests.follows {broke : Bool} {p q : Publisher.State} (rests : Rests (some p))
    (handles : p.view.handlesOpen = true) (follows : Follows broke p.view q.view) :
    Rests (some q) := by
  intro _ same
  cases same
  have resting := rests p rfl
  rcases follows_resting resting handles follows with same | ⟨_, _, _, same⟩ <;>
    rw [same] <;> exact resting

theorem ModeSound.follows {s : System} {p q : Publisher.State} {broke : Bool}
    (sound : ModeSound s) (spawned : s.publisher = some p) (handles : p.view.handlesOpen = true)
    (calm : broke = true → ∀ held, p.view.channel = some held → s.conn.published ≠ .ready held.opened)
    (follows : Follows broke p.view q.view) : ModeSound { s with publisher := some q } := by
  have rests : Rests s.publisher → Rests (some q) :=
    fun known => (spawned ▸ known : Rests (some p)).follows handles follows
  have keeps : ∀ {generation}, Rests s.publisher → Kept s.conn s.publisher generation →
      Kept s.conn (some q) generation :=
    fun known kept => (spawned ▸ kept : Kept s.conn (some p) _).follows (known p spawned) handles
      calm follows
  unfold ModeSound at sound ⊢
  dsimp only
  split at sound
  case h_1 | h_2 | h_3 | h_4 =>
    refine ⟨rests sound.1, fun generation member => ?_⟩
    rcases sound.2 generation member with left | ⟨last, kept⟩
    · exact .inl left
    · exact .inr ⟨last, keeps sound.1 kept⟩
  case h_5 | h_6 | h_7 | h_8 | h_11 | h_12 => exact ⟨rests sound.1, sound.2⟩
  case h_9 =>
    obtain ⟨all, last, between, holder, same, adopting⟩ := sound
    obtain rfl := Option.some.inj (spawned.symm.trans same)
    exact ⟨all, last, between, q, rfl, adopting.follows between handles calm follows⟩
  case h_10 => exact ⟨rests sound.1, sound.2.1, sound.2.2.1, keeps sound.1 sound.2.2.2⟩
  case h_13 =>
    refine ⟨sound.1, ?_⟩
    intro _ same
    cases same
    exact (sound.2 p spawned).follows handles follows
  case h_14 | h_15 | h_16 => trivial

theorem Kept.reached {c : Connection} {publisher : Option Publisher.State} {generation : Nat}
    (kept : Kept c publisher generation) : generation ≤ c.generation := by
  rcases kept with past | ⟨_, _, _, _, _, low, high⟩
  · exact past.1
  · exact low.trans high

theorem Steady.allPast {s : System} (steady : Steady s)
    (left : s.conn.published ≠ .ready s.lastGeneration) : AllPast s := by
  intro generation member
  rcases steady.2 generation member with past | ⟨rfl, kept⟩
  · exact past
  · exact ⟨kept.reached, left⟩

theorem AllPast.steady {s : System} (all : AllPast s) (rests : Rests s.publisher) : Steady s :=
  ⟨rests, fun generation member => .inl (all generation member)⟩

theorem warnPublisher_sound {s : System} (rests : Rests s.publisher) (all : AllPast s)
    {event : ConnectionEvent} (warning : isWarning event = true) :
    ModeSound (s.warnPublisher event) := by
  unfold System.warnPublisher
  split
  · exact all.steady rests
  · exact ⟨rests, all, warning⟩

theorem observe_frame (s : System) : s.observe.conn = s.conn ∧ s.observe.publisher = s.publisher := by
  unfold System.observe System.warnPublisher
  repeat' split
  all_goals exact ⟨rfl, rfl⟩

theorem observe_sound {s : System} (steady : Steady s) : ModeSound s.observe := by
  unfold System.observe
  split
  case h_1 generation published =>
    split
    · exact steady
    case isFalse other =>
      refine ⟨steady.1, steady.allPast ?_, rfl, (published_ready.mp published).2.ge⟩
      rw [published]
      intro same
      exact other (ConnectionState.ready.inj same)
  case h_2 published | h_3 published | h_4 published =>
    exact warnPublisher_sound steady.1 (steady.allPast (by rw [published]; nofun)) rfl
  case h_5 | h_6 => exact steady

section

variable {sha256 : Bytes → Bytes} {settings : Publisher.Settings}

theorem initial_view (channel : Channel) : (Publisher.initial settings channel).view =
    { phase := .ready, channel := some channel, tasks := [], replies := [], handlesOpen := true } := by
  simp only [Publisher.State.view, Publisher.initial]
  split <;> rfl

theorem send_view {p q : Publisher.State} {command : Publisher.Command}
    (sent : p.send settings command = some q) :
    q.view = { p.view with tasks := p.view.tasks ++ command.task.toList } := by
  unfold Publisher.State.send at sent
  split at sent
  · cases sent
    simp only [Publisher.State.view, Publisher.State.queuedTasks, List.filterMap_append,
      List.append_assoc]
    cases command <;> rfl
  · cases sent

theorem sendEvent_view {p q : Publisher.State} {event : ConnectionEvent} {reply : Nat}
    (sent : sendEvent sha256 settings p event reply = some q) :
    p.view.replies.lookup reply = none ∧
      q.view = { p.view with tasks := p.view.tasks ++ [.event event reply] } := by
  unfold sendEvent at sent
  split at sent
  · cases sent
  case isFalse fresh => exact ⟨Option.not_isSome_iff_eq_none.mp fresh, send_view sent⟩

variable {s t : System}

theorem sendEvent_handles {p q : Publisher.State} {event : ConnectionEvent} {reply : Nat}
    (handles : p.view.handlesOpen = true) (sent : sendEvent sha256 settings p event reply = some q) :
    ∀ r, some q = some r → r.view.handlesOpen = true := by
  intro r same
  rw [← Option.some.inj same, (sendEvent_view sent).2]
  exact handles

theorem publisher_sound {event : Publisher.Event} {p q : Publisher.State} (sound : Sound s)
    (calm : Calm s (.publisher event)) (internal : event.external = false) (spawned : s.publisher = some p)
    (stepped : Publisher.step sha256 settings p event = some q) : Sound { s with publisher := some q } := by
  have follows := (Publisher.step_turns stepped).follows internal
  have handles := sound.handles p spawned
  refine ⟨sound.held, ?_, sound.mode.follows spawned handles ?_ follows⟩
  · intro _ same
    cases same
    exact follows.handlesOpen.trans handles
  · intro broke held channel
    exact calm p held spawned broke channel

theorem spawned_sound {generation : Nat} {channel : Channel} (sound : Sound s)
    (mode : s.mode = .reconciling generation channel) :
    Sound { s with publisher := some (Publisher.initial settings channel), mode := .establishing generation } := by
  have known := sound.mode
  simp only [ModeSound, mode] at known
  obtain ⟨rests, all, last, between⟩ := known
  have view := @initial_view settings channel
  refine ⟨sound.held, ?_, ?_, all, last, .inr ⟨_, rfl, channel, ?_, ?_, between⟩⟩
  · intro _ same
    rw [← Option.some.inj same, view]
  · intro _ same
    rw [← Option.some.inj same, view]
  · rw [view]
  · rw [view]

theorem Adopting.answered {c : Connection} {generation reply : Nat} {channel : Channel} {v : View}
    {result : Except PublishError Unit} (adopting : Adopting c generation channel reply v)
    (answered : v.replies.lookup reply = some result) : v.tasks = [] ∧ (result = .ok () →
      Past c generation ∨ v.phase = .ready ∧ v.channel = some channel) := by
  cases adopting with
  | queued fresh _ | flushing fresh _ _ => exact absurd (fresh.symm.trans answered) nofun
  | refused refused resting =>
    obtain rfl := Option.some.inj (refused.symm.trans answered)
    exact ⟨resting, nofun⟩
  | done ok resting held => exact ⟨resting, fun _ => held⟩

theorem rests_of {p : Publisher.State} (spawned : s.publisher = some p) (resting : p.view.tasks = []) :
    Rests s.publisher := by
  intro q same
  rw [Option.some.inj (same.symm.trans spawned)]
  exact resting

theorem ModeSound.recovering {generation : Nat} (known : ModeSound s)
    (mode : s.mode.recovering = some generation) : Rests s.publisher ∧ AllPast s := by
  unfold ModeSound at known
  cases at_ : s.mode <;> rw [at_] at known mode <;> first | exact ⟨known.1, known.2.1⟩ | cases mode

theorem Sound.steady (sound : Sound s)
    (mode : s.mode = .idle ∨ s.mode = .noticed ∨ s.mode = .keepingAlive) : Steady s := by
  have known := sound.mode
  rcases mode with mode | mode | mode <;>
  · simp only [ModeSound, mode] at known
    exact known

theorem closing_sound {mode : Mode} (closing : mode.isClosing = true) : ModeSound { s with mode } := by
  cases mode <;> trivial

theorem Turns.sound {event : Event} (turns : Turns sha256 settings s event t) (sound : Sound s)
    (calm : Calm s event) : Sound t := by
  have known := sound.mode
  cases turns with
  | connection stepped =>
    rcases (Connection.step_turns stepped).stays sound.held with stays | ⟨rfl, rfl⟩
    · exact ⟨stays.held, sound.handles, sound.mode.grows stays.grows⟩
    · exact ⟨fun _ => rfl, sound.handles, sound.mode.grows (becomeReady_grows calm)⟩
  | publisher internal spawned stepped => exact publisher_sound sound calm internal spawned stepped
  | starts mode sent =>
    have stays := Connection.send_stays sound.held sent
    have grown := known.grows stays.grows
    simp only [ModeSound, mode] at grown
    exact ⟨stays.held, sound.handles, grown⟩
  | changes mode | keepsAlive mode => exact ⟨sound.held, sound.handles, sound.steady (.inl mode)⟩
  | keptAlive mode => exact ⟨sound.held, sound.handles, sound.steady (.inr (.inr mode))⟩
  | reads mode =>
    have frame := observe_frame s
    refine ⟨frame.1 ▸ sound.held, ?_, observe_sound (sound.steady (.inr (.inl mode)))⟩
    rw [frame.2]
    exact sound.handles
  | requests mode sent =>
    simp only [ModeSound, mode] at known
    obtain ⟨rests, all, last, reached⟩ := known
    have stays := Connection.send_stays sound.held sent
    have grows := stays.grows
    exact ⟨stays.held, sound.handles, rests, fun g member => grows.past g (all g member), last,
      reached.trans grows.generation, nofun⟩
  | opens mode replied =>
    simp only [ModeSound, mode] at known
    obtain ⟨rests, all, last, _, own⟩ := known
    exact ⟨sound.held, sound.handles, rests, all, last, own _ replied⟩
  | reconciles mode =>
    simp only [ModeSound, mode] at known
    exact ⟨sound.held, sound.handles, known⟩
  | spawns mode => exact spawned_sound sound mode
  | offers mode spawned sent =>
    simp only [ModeSound, mode] at known
    obtain ⟨rests, all, last, between⟩ := known
    obtain ⟨fresh, view⟩ := sendEvent_view sent
    refine ⟨sound.held, sendEvent_handles (sound.handles _ spawned) sent, all, last, between, _, rfl,
      .queued ?_ (.inl ?_)⟩
    · rw [view]
      exact fresh
    · rw [view, rests _ spawned]
      rfl
  | adopts mode spawned replied =>
    simp only [ModeSound, mode] at known
    obtain ⟨all, last, between, holder, same, adopting⟩ := known
    obtain rfl := Option.some.inj (spawned.symm.trans same)
    obtain ⟨resting, held⟩ := adopting.answered replied
    refine ⟨sound.held, sound.handles, rests_of spawned resting, all, last, ?_⟩
    rcases held rfl with past | ⟨ready, holds⟩
    · exact .inl past
    · exact .inr ⟨_, spawned, _, ready, holds, between⟩
  | refuses mode spawned replied =>
    simp only [ModeSound, mode] at known
    obtain ⟨all, _, _, holder, same, adopting⟩ := known
    obtain rfl := Option.some.inj (spawned.symm.trans same)
    exact ⟨sound.held, sound.handles, rests_of spawned (adopting.answered replied).1, all⟩
  | establishes mode =>
    simp only [ModeSound, mode] at known
    obtain ⟨rests, all, last, kept⟩ := known
    refine ⟨sound.held, sound.handles, rests, ?_⟩
    intro other member
    rcases List.mem_cons.mp member with rfl | member
    · exact .inr ⟨last.symm, kept⟩
    · exact .inl (all other member)
  | fails _ mode => exact ⟨sound.held, sound.handles, known.recovering mode⟩
  | drops mode _ =>
    simp only [ModeSound, mode] at known
    exact ⟨sound.held, sound.handles, known.1, fun other member => .inl (known.2 other member)⟩
  | reports mode sent =>
    simp only [ModeSound, mode] at known
    have stays := Connection.send_stays sound.held sent
    exact ⟨stays.held, sound.handles, known.1,
      fun other member => .inl (stays.grows.past other (known.2 other member))⟩
  | skips mode =>
    simp only [ModeSound, mode] at known
    exact ⟨sound.held, sound.handles, known.2.1.steady known.1⟩
  | @warns event _ _ _ mode spawned sent =>
    simp only [ModeSound, mode] at known
    obtain ⟨rests, all, warning⟩ := known
    obtain ⟨fresh, view⟩ := sendEvent_view sent
    refine ⟨sound.held, sendEvent_handles (sound.handles _ spawned) sent, all, ?_⟩
    intro _ same
    cases same
    refine .inr ⟨event, warning, ?_, ?_⟩
    · rw [view, rests _ spawned]
      rfl
    · rw [view]
      exact fresh
  | warned mode spawned replied =>
    simp only [ModeSound, mode] at known
    refine ⟨sound.held, sound.handles, known.1.steady (rests_of spawned ?_)⟩
    rcases known.2 _ spawned with resting | ⟨_, _, _, fresh⟩
    · exact resting
    · exact absurd (fresh.symm.trans replied) nofun
  | closes spawned sent =>
    refine ⟨sound.held, ?_, trivial⟩
    intro _ same
    rw [← Option.some.inj same, send_view sent]
    exact sound.handles _ spawned
  | ends _ closing => exact ⟨sound.held, sound.handles, closing_sound closing⟩

theorem reaches_sound (reaches : Reaches (machine sha256 settings) Calm s) : Sound s := by
  refine reaches.invariant ?_ ?_
  · rintro _ rfl
    refine ⟨fun some => absurd rfl some, ?_, ?_, ?_⟩
    · exact fun p spawned => (Option.some_ne_none p spawned.symm).elim
    · exact fun p spawned => (Option.some_ne_none p spawned.symm).elim
    · exact fun generation member => (List.not_mem_nil member).elim
  · intro before event after _ sound calm next
    exact (step_turns next).sound sound calm

end

end RabbitRs.Recovery
