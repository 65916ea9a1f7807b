import RabbitRs.Recovery.Adoption

/-!
The coordinator misses no Ready: at rest it has recovered the generation the connection is Ready
at. With the adoption invariant, the publisher then holds a channel of that generation.
-/

namespace RabbitRs.Recovery

open StepMachine

namespace Connection

def Doomed (c : Connection) : Prop :=
  c.phase.isReady = true → c.commands.any Command.isLoss = true ∨ c.phase.isLeaving = true

structure Later (c d : Connection) : Prop where
  version : c.version ≤ d.version
  generation : c.generation ≤ d.generation
  unseen : d.version = c.version → d.generation = c.generation
  doomed : d.version = c.version → c.Doomed → d.Doomed

variable {c d : Connection}

theorem Stays.later (stays : Stays c d) (version : c.version ≤ d.version)
    (doomed : d.version = c.version → c.Doomed → d.Doomed) : Later c d :=
  ⟨version, stays.generation.ge, fun _ => stays.generation, doomed⟩

theorem Stays.newVersion (stays : Stays c d) (version : c.version < d.version) : Later c d :=
  stays.later version.le fun same => absurd same version.ne'

theorem Leaves.version (leaves : Leaves c d) : c.version ≤ d.version ∧ (d.version = c.version → d.Doomed) := by
  cases leaves with
  | drops | stops => exact ⟨Nat.le_succ _, fun same => absurd same (Nat.succ_ne_self _)⟩
  | closes _ leaving => exact ⟨le_rfl, fun _ _ => .inr leaving⟩

theorem Serves.version {command : Command} (serves : Serves c command d) : c.version ≤ d.version ∧
    (c.phase.isReady = true → d.version = c.version →
      (command.isLoss = false → c.phase.isLeaving = false → c.commands.any Command.isLoss = true) → d.Doomed) := by
  have offline (away : c.phase.isReady = false) {P : Prop} : c.phase.isReady = true → P :=
    fun ready => absurd (away.symm.trans ready) nofun
  cases serves with
  | waits away => exact ⟨le_rfl, offline away⟩
  | starts away => exact ⟨Nat.le_succ _, offline away⟩
  | fails => exact ⟨Nat.le_succ _, fun _ same => absurd same (Nat.succ_ne_self _)⟩
  | shuts => exact (shutdown_leaves c).version.imp_right fun doomed _ same _ => doomed same
  | loses => exact (lose_leaves c _).version.imp_right fun doomed _ same _ => doomed same
  | ignores waiting other _ | opens waiting other _ =>
    exact ⟨le_rfl, fun _ _ left _ => .inl (left other (by rw [waiting]; rfl))⟩
  | @denies requester waiting =>
    obtain ⟨reply, same, -⟩ := answer_eq c requester (.error notReady)
    rw [same]
    exact ⟨le_rfl, fun _ _ left _ => .inl (left rfl (by rw [waiting]; rfl))⟩

theorem send_later (held : Held c) {command : Command} (sent : c.send command = some d) : Later c d := by
  refine (send_stays held sent).later ?_ ?_ <;> rw [send_eq sent]
  intro _ doomed ready
  rcases doomed ready with loss | leaving
  · exact .inl (by rw [List.any_append, loss, Bool.true_or])
  · exact .inr leaving

theorem send_loss {error : TransportError} (sent : c.send (.connectionLost error) = some d) : d.Doomed := by
  rw [send_eq sent]
  exact fun _ => .inl (by rw [List.any_append]; exact Bool.or_true _)

theorem becomeReady_later (room : c.generation + 1 < 2 ^ 64) : Later c c.becomeReady := by
  refine ⟨Nat.le_succ _, ?_, ?_, ?_⟩
  · simp only [becomeReady]
    omega
  · exact fun same => absurd same (Nat.succ_ne_self _)
  · exact fun same => absurd same (Nat.succ_ne_self _)

theorem Turns.later {event : Event} (turns : Turns c event d) (held : Held c)
    (room : event = .attempted (.completed (.ok ())) → c.generation + 1 < 2 ^ 64) : Later c d := by
  rcases turns.stays held with stays | ⟨rfl, rfl⟩
  case inr => exact becomeReady_later (room rfl)
  -- while a channel is opened, what dooms the connection is in the queue
  have queued {requester : Requester} {deadline : Nat} (phase : c.phase = .ready (.opening requester deadline))
      (doomed : c.Doomed) : c.commands.any Command.isLoss = true := by
    simpa [Doomed, phase, Phase.isReady, Phase.isLeaving] using doomed
  cases turns with
  | establishes => exact becomeReady_later (room rfl)
  | tick | notes => exact stays.later le_rfl fun _ doomed => doomed
  | send =>
    refine stays.later le_rfl fun _ doomed ready => ?_
    rcases doomed ready with loss | leaving
    · exact .inl (by rw [List.any_append, loss, Bool.true_or])
    · exact .inr leaving
  | @serves command rest _ taken serves =>
    obtain ⟨version, doomed⟩ := serves.version
    refine stays.later version fun same known ready => doomed (stays.ready ready) same (fun other waiting => ?_) ready
    rcases known (stays.ready ready) with loss | leaving
    · rw [taken, List.any_cons, other, Bool.false_or] at loss
      exact loss
    · cases waiting.symm.trans leaving
  | misses phase =>
    obtain ⟨version, doomed⟩ := (attemptFailed_leaves (held.none (by rw [phase]; rfl)) _ _).version
    exact stays.later version fun same _ => doomed same
  | breaks =>
    obtain ⟨version, doomed⟩ := (lose_leaves c _).version
    exact stays.later version fun same _ => doomed same
  | @opens requester _ phase =>
    obtain ⟨reply, same, -⟩ := answer_eq { c with phase := .ready .waiting, channels := c.channels + 1 } requester
      (.ok { opened := c.generation, id := c.channels })
    rw [openChannel, same] at stays ⊢
    exact stays.later le_rfl fun _ doomed _ => .inl (queued phase doomed)
  | @refuses requester _ error phase =>
    obtain ⟨reply, same, -⟩ := answer_eq { c with phase := .ready .waiting } requester (.error error)
    rw [same] at stays ⊢
    exact stays.later le_rfl fun _ doomed _ => .inl (queued phase doomed)
  | @expires requester _ _ =>
    obtain ⟨version, doomed⟩ := (lose_leaves (c.answer requester (.error channelTimedOut)) channelTimedOut).version
    have kept : (c.answer requester (.error channelTimedOut)).version = c.version := by cases requester <;> rfl
    rw [kept] at version doomed
    exact stays.later version fun same _ => doomed same
  | @routes error _ _ _ =>
    obtain ⟨version, doomed⟩ := (routeLoss_leaves (c := c.dropConnection) rfl error).version
    exact stays.later version fun same _ => doomed same
  | stops | retries => exact stays.newVersion (Nat.lt_succ_self _)

end Connection

def Observed (s : System) : Prop :=
  s.seen ≤ s.conn.version ∧ (s.seen = s.conn.version → s.lastGeneration = s.conn.generation ∨ s.conn.Doomed)

def Accounted (s : System) : Prop :=
  s.lastGeneration = 0 ∨ s.lastGeneration ∈ s.completed ∨ s.lastGeneration < s.conn.generation

def Recovers (s : System) (generation : Nat) : Prop :=
  s.lastGeneration = generation ∧ 0 < generation ∧ generation ≤ s.conn.generation ∧ Observed s

def ModeWatchful (s : System) : Prop :=
  match s.mode with
  | .starting | .idle | .keepingAlive | .warning _ | .notifying _ => Observed s ∧ Accounted s
  | .noticed => s.seen ≤ s.conn.version ∧ Accounted s
  | .requesting generation | .opening generation | .reconciling generation _
  | .offering generation _ | .adopting generation _ _ | .establishing generation =>
    Recovers s generation
  | .failing generation _ => s.seen ≤ s.conn.version ∧ 0 < generation ∧ generation ≤ s.conn.generation
  | .closing | .closingPublisher _ | .stopped => True

structure Watchful (s : System) : Prop where
  numbered : s.conn.phase.isReady = true → 0 < s.conn.generation
  mode : ModeWatchful s

section

variable {s t : System} {d : Connection}

theorem Observed.later (later : s.conn.Later d) (observed : Observed s) : Observed { s with conn := d } := by
  obtain ⟨seen, upToDate⟩ := observed
  have grown := later.version
  refine ⟨seen.trans grown, ?_⟩
  intro current
  have same : d.version = s.conn.version := by
    dsimp only at current
    omega
  rcases upToDate (current.trans same) with last | doomed
  · exact .inl (last.trans (later.unseen same).symm)
  · exact .inr (later.doomed same doomed)

theorem Accounted.later (later : s.conn.Later d) (accounted : Accounted s) : Accounted { s with conn := d } :=
  accounted.imp_right (Or.imp_right fun gone => gone.trans_le later.generation)

theorem ModeWatchful.later (later : s.conn.Later d) (watchful : ModeWatchful s) :
    ModeWatchful { s with conn := d } := by
  have recovers : ∀ {generation}, Recovers s generation → Recovers { s with conn := d } generation :=
    fun known => ⟨known.1, known.2.1, known.2.2.1.trans later.generation, known.2.2.2.later later⟩
  unfold ModeWatchful at watchful ⊢
  dsimp only
  split at watchful
  case h_1 | h_2 | h_3 | h_4 | h_5 => exact ⟨watchful.1.later later, watchful.2.later later⟩
  case h_6 => exact ⟨watchful.1.trans later.version, watchful.2.later later⟩
  case h_7 | h_8 | h_9 | h_10 | h_11 | h_12 => exact recovers watchful
  case h_13 =>
    exact ⟨watchful.1.trans later.version, watchful.2.1, watchful.2.2.trans later.generation⟩
  case h_14 | h_15 | h_16 => trivial

theorem observe_watchful (seen : s.seen ≤ s.conn.version) (accounted : Accounted s)
    (numbered : s.conn.phase.isReady = true → 0 < s.conn.generation) : ModeWatchful s.observe := by
  have offline : (∀ generation, s.conn.published ≠ .ready generation) → s.conn.Doomed :=
    fun left ready => absurd (published_ready.mpr ⟨ready, rfl⟩) (left s.conn.generation)
  have warned : (∀ generation, s.conn.published ≠ .ready generation) → ∀ event,
      ModeWatchful (s.warnPublisher event) := by
    intro left event
    unfold System.warnPublisher
    split <;> exact ⟨⟨seen, fun _ => .inr (offline left)⟩, accounted⟩
  unfold System.observe
  split
  case h_1 generation published =>
    obtain ⟨ready, same⟩ := published_ready.mp published
    split
    case isTrue last => exact ⟨⟨seen, fun _ => .inl (last.symm.trans same.symm)⟩, accounted⟩
    case isFalse =>
      exact ⟨rfl, same ▸ numbered ready, same.ge, seen, fun _ => .inl same.symm⟩
  case h_2 published | h_3 published | h_4 published =>
    exact warned (by rw [published]; nofun) _
  case h_5 published | h_6 published =>
    exact ⟨⟨seen, fun _ => .inr (offline (by rw [published]; nofun))⟩, accounted⟩

theorem ModeWatchful.recovering {generation : Nat} (known : ModeWatchful s)
    (mode : s.mode.recovering = some generation) : Recovers s generation := by
  unfold ModeWatchful at known
  cases at_ : s.mode <;> rw [at_] at known mode <;> cases mode <;> exact known

theorem Recovers.fail {generation : Nat} (recovers : Recovers s generation)
    (error : CoordinatorError) : ModeWatchful (s.fail generation error) :=
  ⟨recovers.2.2.2.1, recovers.2.1, recovers.2.2.1⟩

theorem stopped_doomed {c : Connection} (stopped : c.phase.isStopped = true) : c.Doomed := by
  intro ready
  cases phase : c.phase <;> simp [phase, Phase.isReady, Phase.isStopped] at ready stopped

theorem reported_watchful {generation : Nat} (seen : s.seen ≤ s.conn.version)
    (positive : 0 < generation) (reached : generation ≤ s.conn.generation)
    (doomed : s.conn.Doomed) :
    ModeWatchful { s with lastGeneration := generation - 1, mode := .idle } := by
  refine ⟨⟨seen, fun _ => .inr doomed⟩, .inr (.inr ?_)⟩
  dsimp only
  omega

variable {sha256 : Bytes → Bytes} {settings : Publisher.Settings}

theorem Watchful.sends {command : Command} (watchful : Watchful s) (held : s.conn.Held)
    (sent : s.conn.send command = some d) :
    s.conn.Later d ∧ (d.phase.isReady = true → 0 < d.generation) := by
  have later := Connection.send_later held sent
  have stays := Connection.send_stays held sent
  exact ⟨later, fun ready => (watchful.numbered (stays.ready ready)).trans_le later.generation⟩

theorem Turns.watchful {event : Event} (turns : Turns sha256 settings s event t) (held : s.conn.Held)
    (watchful : Watchful s) (calm : Calm s event) : Watchful t := by
  have known := watchful.mode
  cases turns with
  | @connection event d stepped =>
    have room : event = .attempted (.completed (.ok ())) → s.conn.generation + 1 < 2 ^ 64 := by
      rintro rfl
      exact calm
    have later := (Connection.step_turns stepped).later held room
    refine ⟨?_, watchful.mode.later later⟩
    rcases (Connection.step_turns stepped).stays held with stays | ⟨_, rfl⟩
    · intro ready
      exact (watchful.numbered (stays.ready ready)).trans_le later.generation
    · intro _
      simp only [Connection.becomeReady]
      omega
  | publisher => exact ⟨watchful.numbered, known⟩
  | starts mode sent =>
    simp only [ModeWatchful, mode] at known
    obtain ⟨later, numbered⟩ := watchful.sends held sent
    exact ⟨numbered, known.1.later later, known.2.later later⟩
  | changes mode =>
    simp only [ModeWatchful, mode] at known
    exact ⟨watchful.numbered, le_rfl, known.2⟩
  | reads mode =>
    simp only [ModeWatchful, mode] at known
    refine ⟨?_, observe_watchful known.1 known.2 watchful.numbered⟩
    rw [(observe_frame s).1]
    exact watchful.numbered
  | @requests _ d mode sent =>
    simp only [ModeWatchful, mode] at known
    obtain ⟨later, numbered⟩ := watchful.sends held sent
    have later : s.conn.Later { d with reply := none } := { later with }
    exact ⟨numbered, known.1, known.2.1, known.2.2.1.trans later.generation, known.2.2.2.later later⟩
  | opens mode | reconciles mode | spawns mode | offers mode | adopts mode | skips mode | warns mode
  | warned mode | keepsAlive mode | keptAlive mode =>
    simp only [ModeWatchful, mode] at known
    exact ⟨watchful.numbered, known⟩
  | refuses mode =>
    simp only [ModeWatchful, mode] at known
    exact ⟨watchful.numbered, known.fail _⟩
  | fails _ mode => exact ⟨watchful.numbered, (known.recovering mode).fail _⟩
  | establishes mode =>
    simp only [ModeWatchful, mode] at known
    obtain ⟨last, _, _, observed⟩ := known
    exact ⟨watchful.numbered, observed, .inr (.inl (last ▸ List.mem_cons_self))⟩
  | drops mode stopped =>
    simp only [ModeWatchful, mode] at known
    obtain ⟨seen, positive, reached⟩ := known
    exact ⟨watchful.numbered, reported_watchful seen positive reached (stopped_doomed stopped)⟩
  | @reports _ _ _ d mode sent =>
    simp only [ModeWatchful, mode] at known
    obtain ⟨seen, positive, reached⟩ := known
    obtain ⟨later, numbered⟩ := watchful.sends held sent
    refine ⟨numbered, ?_⟩
    exact @reported_watchful { s with conn := d } _ (seen.trans later.version) positive
      (reached.trans later.generation) (Connection.send_loss sent)
  | closes => exact ⟨watchful.numbered, trivial⟩
  | ends mode closing => exact ⟨watchful.numbered, by cases mode <;> trivial⟩

theorem reaches_watchful (reaches : Reaches (machine sha256 settings) Calm s) : Watchful s := by
  refine reaches.invariant_of (fun _ => reaches_sound) ?_ ?_
  · rintro _ rfl
    exact ⟨fun ready => Bool.noConfusion ready, ⟨le_rfl, fun _ => .inl rfl⟩, .inl rfl⟩
  · intro before event after sound watchful calm next
    exact (step_turns next).watchful sound.held watchful calm

end

def Connection.isQuiet (c : Connection) : Bool :=
  c.commands.isEmpty && match c.phase with
    | .disconnected | .ready .waiting | .failedPermanent _ | .stopped => true
    | _ => false

/-- No command, no write or confirmation in flight, and no deadline to wait for. -/
def publisherQuiet (p : Publisher.State) : Bool :=
  p.commands.isEmpty && p.publishInFlight.isEmpty && p.confirmations.isEmpty &&
    p.nextDeadline.isNone && match p.mode with
      | .idle | .stopped => true
      | _ => false

/-- Nothing is queued, unobserved or pending in any of the three tasks. -/
def System.isQuiescent (s : System) : Bool :=
  (match s.mode with
    | .idle => true
    | _ => false) && s.seen == s.conn.version && s.conn.isQuiet && s.publisher.all publisherQuiet

theorem quiet_not_doomed {c : Connection} (quiet : c.isQuiet = true)
    (ready : c.phase.isReady = true) : ¬ c.Doomed := by
  intro doomed
  simp only [Connection.isQuiet, Bool.and_eq_true, List.isEmpty_iff] at quiet
  obtain ⟨empty, waiting⟩ := quiet
  rcases doomed ready with loss | leaving
  · simp [empty] at loss
  · cases phase : c.phase with
    | ready serving => cases serving <;> simp [phase, Phase.isLeaving] at leaving waiting
    | _ => simp [phase, Phase.isReady] at ready

theorem resting_idle {p : Publisher.State} (resting : p.view.tasks = [])
    (quiet : publisherQuiet p = true) : p.mode = .idle := by
  simp only [publisherQuiet, Bool.and_eq_true] at quiet
  have mode := quiet.2
  cases same : p.mode with
  | idle => rfl
  | stopped =>
    simp only [Publisher.State.view, same] at resting
    cases resting
  | _ => simp [same] at mode

section

variable {sha256 : Bytes → Bytes} {settings : Publisher.Settings} {s : System} {generation : Nat}

/-- As long as the transport breaks the publisher only after the connection: at rest behind a
connection that is Ready, the generation is recovered and the publisher is ready on a channel of
it. -/
theorem recovered_publisher_ready (reaches : Reaches (machine sha256 settings) Calm s)
    (quiescent : s.isQuiescent = true) (published : s.conn.published = .ready generation) :
    generation ∈ s.completed ∧ ∃ p channel, s.publisher = some p ∧ p.mode = .idle ∧
      p.phase = .ready ∧ p.channel = some channel ∧ channel.opened = generation := by
  have sound := reaches_sound reaches
  have watchful := reaches_watchful reaches
  obtain ⟨ready, same⟩ := published_ready.mp published
  simp only [System.isQuiescent, Bool.and_eq_true, beq_iff_eq] at quiescent
  obtain ⟨⟨⟨waits, current⟩, quiet⟩, publisherWaits⟩ := quiescent
  have mode : s.mode = .idle := by
    cases mode : s.mode <;> simp [mode] at waits ⊢
  have observed := watchful.mode
  simp only [ModeWatchful, mode] at observed
  have last : s.lastGeneration = generation := by
    rcases observed.1.2 current with last | doomed
    · exact last.trans same
    · exact absurd doomed (quiet_not_doomed quiet ready)
  have positive := watchful.numbered ready
  have completed : generation ∈ s.completed := by
    rcases observed.2 with none | member | gone
    · omega
    · exact last ▸ member
    · omega
  have steady := sound.steady (.inl mode)
  -- the connection is not past the generation it is Ready at
  have current : ¬ Past s.conn generation := fun past => past.2 published
  rcases steady.2 generation completed with past | ⟨_, past | ⟨p, spawned, channel, holds⟩⟩
  · exact absurd past current
  · exact absurd past current
  · obtain ⟨phase, held, low, high⟩ := holds
    have idle := resting_idle (steady.1 p spawned) (by simpa [spawned] using publisherWaits)
    have opened : channel.opened = generation := by omega
    exact ⟨completed, p, channel, spawned, idle, phase, held, opened⟩

end

def confirmedSettings : Publisher.Settings where
  config := { bufferCapacity := 8, confirmTimeout := .fromSecs 30, safety := .safe }
  delayStrategy := none

def firstRecovery : List Event :=
  [.start, .connection .receive, .connection (.attempted (.completed (.ok ()))), .changed, .read,
    .request, .connection .receive, .connection (.opened (.completed (.ok ()))), .opened,
    .reconciled (.ok ()), .established (.ok ())]

def firstSystem : Machine System Event := machine (fun _ => List.replicate 32 0) confirmedSettings

def retriedOrder : PublishRequest where
  destination := { exchange := "", routingKey := "orders" }
  payload := [1, 2, 3]
  properties := { messageId := "order-1" }
  deadline := 30000000000

def reset : TransportError := { kind := .connection, message := "connection reset by peer" }

/-- The connection is lost under a pending write, which then fails; the second generation adopts
the publisher and the order is written again. -/
def secondRecovery : List Event := firstRecovery ++ [
  .publisher (.confirmsEnabled (.ok ())), .publisher (.publish retriedOrder), .publisher .receive,
  .publisher (.proceed .pending), .publisher (.proceed .pending),
  .connection (.transport (.error reset)), .connection (.closed false),
  .publisher (.written 0 (.completed (.error reset))),
  .changed, .read, .warn 0, .publisher .receive, .warned,
  .connection .slept, .connection (.attempted (.completed (.ok ()))), .changed, .read, .request,
  .connection .receive, .connection (.opened (.completed (.ok ()))), .opened, .reconciled (.ok ()),
  .offer 1, .publisher .receive, .publisher (.confirmsEnabled (.ok ())),
  .publisher (.proceed .pending), .publisher (.proceed .pending),
  .publisher (.written 0 (.completed (.ok ()))),
  .publisher (.confirmed 0 (.completed (.ok (.ack none)))), .adopted, .established (.ok ())]

def calmly (s : System) : Event → Bool
  | .publisher event => s.publisher.all fun p => !event.breaks p ||
      p.channel.all fun channel => s.conn.published ≠ .ready channel.opened
  | .connection (.attempted (.completed (.ok ()))) => s.conn.generation + 1 < 2 ^ 64
  | _ => true

theorem calm_of_calmly (s : System) (event : Event) (calm : calmly s event = true) : Calm s event := by
  unfold Calm
  split
  · intro p channel spawned broke held
    simpa [calmly, spawned, broke, held] using calm
  · exact of_decide_eq_true calm
  · trivial

theorem secondRecovery_ready : ∃ s : System, Reaches firstSystem Calm s ∧ s.isQuiescent = true ∧
    s.conn.published = .ready 2 ∧ 2 ∈ s.completed ∧ ∃ p channel, s.publisher = some p ∧
      p.mode = .idle ∧ p.phase = .ready ∧ p.channel = some channel ∧ channel.opened = 2 := by
  have ran : (run firstSystem calmly {} secondRecovery).any
      (fun s => s.isQuiescent && s.conn.published == .ready 2) = true := by
    decide +kernel
  have fresh : firstSystem.Initial {} := rfl
  obtain ⟨s, reached, holds⟩ := exists_of_run calm_of_calmly fresh ran
  simp only [Bool.and_eq_true, beq_iff_eq] at holds
  exact ⟨s, reached, holds.1, holds.2, recovered_publisher_ready reached holds.1 holds.2⟩

def refusedConfirms : List Event := firstRecovery ++ [
  .publisher (.confirmsEnabled (.error { kind := .closed, message := "channel closed by broker" }))]

/-- A publisher whose confirms were refused at spawn stays failed behind a Ready connection. -/
theorem refused_publisher_stranded : ∃ s, Reachable firstSystem s ∧ s.isQuiescent = true ∧
    s.conn.published = .ready 1 ∧ 1 ∈ s.completed ∧
    ∃ p, s.publisher = some p ∧ p.phase = .failedPermanent := by
  obtain ⟨s, reached, quiescent, ready, completed, p, spawned, failed⟩ :=
    exists_reachable firstSystem rfl refusedConfirms
      (fun s => s.isQuiescent = true ∧ s.conn.published = .ready 1 ∧ 1 ∈ s.completed ∧
        ∃ p, s.publisher = some p ∧ p.phase = .failedPermanent) (by decide +kernel)
  exact ⟨s, reached, quiescent, ready, completed, p, spawned, failed⟩

end RabbitRs.Recovery
