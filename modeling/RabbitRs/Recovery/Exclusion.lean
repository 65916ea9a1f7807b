import RabbitRs.Recovery.Establishment

/-!
A profile has at most one open set of a generation: under the establish lock a set is spawned only
when the map has no open one, and an open set is in the map or about to be.
-/

namespace RabbitRs.Establishment

open StepMachine
open Recovery (Connection)

variable {v : ValidatedConfig} {broker : String} {s t : State} {task after : Task}

/-- Only the bookkeeping of the supervisor changes. -/
def Noted (s t : State) : Prop :=
  ∃ lastGeneration stopped, t = { s with lastGeneration, stopped }

theorem Noted.refl (s : State) : Noted s s := ⟨s.lastGeneration, s.stopped, rfl⟩

theorem rollBack_noted (s : State) (task : Task) : Noted s (s.rollBack task) := by
  unfold State.rollBack
  split
  · exact .refl s
  · exact ⟨_, s.stopped, rfl⟩

theorem interrupt_noted (s : State) (task : Task) : Noted s (s.interrupt task) := by
  unfold State.interrupt
  split
  · exact .refl s
  · exact ⟨s.lastGeneration, _, rfl⟩

/-- The task is between two profiles, or done. -/
def Stage.rests : Stage → Bool
  | .locking | .fetching | .done => true
  | _ => false

/-- The steps of an establishment that open or close no set. -/
inductive Moves (v : ValidatedConfig) (broker : String) (s : State) (task : Task) : State → Stage → Prop where
  | locks {worker : WorkerProfile} : task.stage = .locking → s.lockFree = true →
      s.current task.profile task.generation = none → s.worker v task.profile = some worker →
      Moves v broker s task s (.opening (worker.subscriptions.filter fun sub => sub.broker = broker) [])
  | requests {connection : Nat} : task.stage = .requesting → s.conn.connection = some connection →
      Moves v broker s task s (.reconciling (generationPlan v s.requested) (.adopt connection))
  | opens {sub : SubscriptionConfig} {rest : List SubscriptionConfig} {channels : Channels} {connection : Nat} :
      task.stage = .opening (sub :: rest) channels → s.conn.connection = some connection →
      Moves v broker s task s (.opening rest (channels ++ [(sub, connection)]))
  | plans {channels : Channels} : task.stage = .opening [] channels →
      Moves v broker s task s (.reconciling (generationPlan v s.requested) (.consume channels))
  | knows {plan : TopologyPlan} {follow : Follow} : task.stage = .reconciling plan follow →
      s.reconciler = some (task.generation, plan) → Moves v broker s task s follow.stage
  | begins {plan : TopologyPlan} {channel : Nat} : task.stage = .reconciling plan (.adopt channel) →
      Moves v broker s task s (.applying plan channel (.adopt channel))
  | declares {plan : TopologyPlan} {channels : Channels} : task.stage = .reconciling plan (.consume channels) →
      Moves v broker s task s (.declaring plan channels)
  | answers {plan : TopologyPlan} {channels : Channels} {connection : Nat} :
      task.stage = .declaring plan channels → s.conn.connection = some connection →
      Moves v broker s task s (.applying plan connection (.consume channels))
  | applies {plan : TopologyPlan} {channel : Nat} {follow : Follow} : task.stage = .applying plan channel follow →
      Moves v broker s task { s with
        reconciler := some (task.generation, plan), applied := (channel, plan) :: s.applied } follow.stage
  | consumes {sub : SubscriptionConfig} {connection : Nat} {rest : Channels} :
      task.stage = .consuming ((sub, connection) :: rest) →
      Moves v broker s task { s with
        consumed := ⟨task.profile, sub.queue, task.generation, connection⟩ :: s.consumed } (.consuming rest)

/-- What one step of a task can do. -/
inductive Advances (v : ValidatedConfig) (broker : String) (s : State) (task : Task) : State → Task → Prop where
  | moves {t : State} {stage : Stage} : Moves v broker s task t stage →
      Advances v broker s task t { task with stage }
  | rests {t : State} {after : Task} : Noted s t → task.stage.inProgress = true →
      (∀ index, task.stage ≠ .inserting index) → after.generation = task.generation → after.stage.rests = true →
      Advances v broker s task t after
  | refused {t u : State} {sub : SubscriptionConfig} {connection : Nat} {rest : Channels} :
      Moves v broker s task t (.consuming rest) → task.stage = .consuming ((sub, connection) :: rest) → Noted t u →
      Advances v broker s task u { task with stage := .done }
  | holds {index : Nat} : task.stage.inProgress = true → task.stage.establishes = false →
      s.consumers.lookup task.profile = some index →
      Advances v broker s task s { task with stage := .holding index }
  | drops {t : State} {after : Task} {index : Nat} : Noted (s.dropHandle task index) t →
      (task.stage = .checking ∧ s.consumers.lookup task.profile = some index ∨ task.stage = .holding index ∨
        task.stage = .inserting index) →
      after.generation = task.generation → after.stage.rests = true →
      (after.stage.inProgress = true → task.stage.inProgress = true) → Advances v broker s task t after
  | spawns : task.stage = .consuming [] → Advances v broker s task
        { s with sets := s.sets ++ [{ profile := task.profile, generation := task.generation }] }
        { task with stage := .inserting s.sets.length }
  | registers {after : Task} {index : Nat} : task.stage = .inserting index →
      after.generation = task.generation → after.stage.rests = true →
      Advances v broker s task (s.register task index) after

theorem nextProfile_rests (task : Task) (s : State) (v : ValidatedConfig) (names : List String) (extras : Bool) :
    (task.nextProfile s v names extras).generation = task.generation ∧
      (task.nextProfile s v names extras).stage.rests = true := by
  unfold Task.nextProfile
  split
  · exact ⟨rfl, rfl⟩
  · split <;> exact ⟨rfl, rfl⟩
  · exact ⟨rfl, rfl⟩

theorem established_rests (task : Task) (s : State) (v : ValidatedConfig) :
    (task.established s v).generation = task.generation ∧ (task.established s v).stage.rests = true := by
  unfold Task.established
  split
  · exact ⟨rfl, rfl⟩
  · exact nextProfile_rests task s v _ _

theorem current_lookup {profile : String} {generation index : Nat}
    (found : s.current profile generation = some index) : s.consumers.lookup profile = some index :=
  (Option.filter_eq_some_iff.mp found).1

theorem advance_advances {event : Event} (stepped : advance v broker s task event = some (t, after)) :
    Advances v broker s task t after := by
  -- a step to a stage between profiles, from a stage that has no set to drop
  have leaves {stage : Stage} {u : State} {next : Task} (standing : task.stage = stage) (noted : Noted s u)
      (progress : stage.inProgress = true) (free : ∀ index, stage ≠ .inserting index)
      (rest : next.generation = task.generation ∧ next.stage.rests = true) : Advances v broker s task u next :=
    .rests noted (standing ▸ progress) (standing ▸ free) rest.1 rest.2
  cases event with
  | check _ =>
    simp only [advance] at stepped
    split at stepped
    case h_2 => cases stepped
    case h_1 standing =>
      split at stepped
      case h_1 index found =>
        cases stepped
        exact .holds (standing ▸ rfl) (standing ▸ rfl) (current_lookup found)
      case h_2 =>
        have resting : (if s.isRequested task.profile then Stage.locking else .done).rests = true := by
          split <;> rfl
        split at stepped <;> cases stepped
        case h_1 index found => exact .drops (.refl _) (.inl ⟨standing, found⟩) rfl resting fun _ => standing ▸ rfl
        case h_2 => exact leaves standing (.refl s) rfl nofun ⟨rfl, resting⟩
  | lock _ =>
    simp only [advance] at stepped
    split at stepped
    case h_2 => cases stepped
    case h_1 standing =>
      split at stepped
      case isFalse => cases stepped
      case isTrue free =>
        split at stepped <;> cases stepped
        case h_1 worker absent known => exact .moves (.locks standing free absent known)
        case h_2 => exact leaves standing (.refl s) rfl nofun (established_rests task s v)
  | opened _ ok =>
    cases ok with
    | false =>
      simp only [advance] at stepped
      split at stepped <;> cases stepped
      case h_1 standing | h_2 standing | h_3 standing => exact leaves standing (rollBack_noted s task) rfl nofun ⟨rfl, rfl⟩
    | true =>
      simp only [advance] at stepped
      split at stepped <;> cases stepped
      case h_1 standing held => exact .moves (.requests standing held)
      case h_2 standing held => exact .moves (.opens standing held)
      case h_3 standing held => exact .moves (.answers standing held)
  | proceed _ =>
    simp only [advance] at stepped
    split at stepped <;> cases stepped
    case h_1 standing => exact leaves standing (.refl s) rfl nofun (established_rests task s v)
    case h_2 standing => exact .moves (.plans standing)
  | reconcile _ =>
    simp only [advance] at stepped
    split at stepped
    case h_2 => cases stepped
    case h_1 standing =>
      split at stepped
      case isFalse => cases stepped
      case isTrue =>
        split at stepped
        case isTrue known =>
          cases stepped
          exact .moves (.knows standing (of_decide_eq_true known))
        case isFalse =>
          split at stepped <;> cases stepped
          · exact .moves (.begins standing)
          · exact .moves (.declares standing)
  | applied _ ok =>
    simp only [advance] at stepped
    split at stepped <;> cases stepped
    case h_1 standing => exact .moves (.applies standing)
    case h_2 standing => exact leaves standing (rollBack_noted s task) rfl nofun ⟨rfl, rfl⟩
  | adopted _ ok =>
    simp only [advance] at stepped
    split at stepped <;> cases stepped
    case h_1 standing => exact leaves standing (.refl s) rfl nofun (nextProfile_rests task s v _ _)
    case h_2 standing => exact leaves standing (rollBack_noted s task) rfl nofun ⟨rfl, rfl⟩
  | consumed _ ok =>
    simp only [advance] at stepped
    split at stepped
    case h_2 => cases stepped
    case h_1 standing =>
      split at stepped <;> cases stepped
      · exact .moves (.consumes standing)
      · exact .refused (.consumes standing) standing (rollBack_noted _ task)
  | insert _ =>
    simp only [advance] at stepped
    split at stepped <;> cases stepped
    case h_1 standing => exact .spawns standing
    case h_2 standing => exact .registers standing (established_rests task s v).1 (established_rests task s v).2
  | fetch _ =>
    simp only [advance] at stepped
    split at stepped
    case h_2 => cases stepped
    case h_1 standing =>
      split at stepped <;> cases stepped
      case h_1 found => exact .holds (standing ▸ rfl) (standing ▸ rfl) found
      case h_2 => exact leaves standing (.refl s) rfl nofun ⟨rfl, rfl⟩
  | drop _ =>
    simp only [advance] at stepped
    split at stepped <;> cases stepped
    case h_1 standing => exact .drops (.refl _) (.inr (.inl standing)) rfl rfl nofun
  | cancel _ =>
    simp only [advance] at stepped
    split at stepped <;> cases stepped
    case h_1 standing => exact .drops (interrupt_noted _ task) (.inr (.inr standing)) rfl rfl nofun
    case h_4 inserting holding done =>
      have progress : task.stage.inProgress = true := by
        cases standing : task.stage with
        | holding index => exact absurd standing (holding index)
        | done => exact absurd standing done
        | _ => rfl
      exact .rests (interrupt_noted s task) progress inserting rfl rfl
  | _ => cases stepped

/-- What one event can do. -/
inductive Steps (v : ValidatedConfig) (broker : String) (s : State) : Event → State → Prop where
  | conn {event : Connection.Event} {conn : Connection} : s.conn.step event = some conn →
      Steps v broker s (.conn event) { s with conn }
  | request (worker : WorkerProfile) : Steps v broker s (.request worker) (s.request v worker)
  | begins {event : Event} {task : Task} {lastGeneration generation : Nat} :
      s.conn.published = .ready generation → task.generation = generation →
      task.stage = .checking ∨ task.stage = .requesting →
      Steps v broker s event { s with lastGeneration, tasks := s.tasks ++ [task] }
  | shutdown : Steps v broker s .shutdown { s with
      stopped := true, emptied := true, consumers := ∅, leaving := Keyed.values s.consumers }
  | closes {index : Nat} {rest : List Nat} : s.leaving = index :: rest →
      Steps v broker s .closeNext { s.closeSet index with leaving := rest }
  | task {event : Event} {i : Nat} {task after : Task} {t : State} : event.task = some i →
      s.tasks[i]? = some task → Advances v broker s task t after →
      Steps v broker s event { t with tasks := t.tasks.set i after }

theorem step_steps {event : Event} (stepped : step v broker s event = some t) : Steps v broker s event t := by
  have tasks : (∃ i, event.task = some i) → Steps v broker s event t := by
    rintro ⟨i, named⟩
    have taken : (do
        let task ← s.tasks[i]?
        let next ← advance v broker s task event
        some { next.1 with tasks := next.1.tasks.set i next.2 }) = some t := by
      cases event <;> cases named <;> exact stepped
    obtain ⟨task, found, taken⟩ := Option.bind_eq_some_iff.mp taken
    obtain ⟨⟨u, after⟩, advanced, taken⟩ := Option.bind_eq_some_iff.mp taken
    cases taken
    exact .task named found (advance_advances advanced)
  cases event with
  | conn event =>
    obtain ⟨conn, next, rfl⟩ := Option.map_eq_some_iff.mp stepped
    exact .conn next
  | request worker =>
    cases stepped
    exact .request worker
  | call profile =>
    simp only [step] at stepped
    split at stepped
    case h_1 ready =>
      cases stepped
      exact .begins ready rfl (.inl rfl)
    case h_2 => cases stepped
  | recover =>
    simp only [step] at stepped
    split at stepped
    case h_1 ready =>
      split at stepped
      · cases stepped
      · cases stepped
        exact .begins ready rfl (.inr rfl)
    case h_2 => cases stepped
  | shutdown =>
    simp only [step] at stepped
    split at stepped
    · cases stepped
    · cases stepped
      exact .shutdown
  | closeNext =>
    simp only [step] at stepped
    split at stepped
    case h_1 queued =>
      cases stepped
      exact .closes queued
    case h_2 => cases stepped
  | _ => exact tasks ⟨_, rfl⟩

/-- Sets are appended and closed, never reopened or relabelled. -/
structure Later (s t : State) : Prop where
  grows : s.sets.length ≤ t.sets.length
  kept : ∀ {index : Nat} {set : ConsumerSet}, index < s.sets.length → t.sets[index]? = some set →
    ∃ old, s.sets[index]? = some old ∧ old.profile = set.profile ∧ old.generation = set.generation ∧
      (set.closed = false → old.closed = false)

theorem Later.of_sets (same : t.sets = s.sets) : Later s t :=
  ⟨same ▸ le_rfl, fun _ found => ⟨_, same ▸ found, rfl, rfl, id⟩⟩

theorem Later.trans {u : State} (first : Later s t) (second : Later t u) : Later s u := by
  refine ⟨first.grows.trans second.grows, fun inside found => ?_⟩
  obtain ⟨middle, found, profile, generation, closed⟩ := second.kept (inside.trans_le first.grows) found
  obtain ⟨old, found, profile', generation', closed'⟩ := first.kept inside found
  exact ⟨old, found, profile'.trans profile, generation'.trans generation, fun opened => closed' (closed opened)⟩

theorem closeSet_getElem? (s : State) (index other : Nat) : (s.closeSet index).sets[other]? =
      s.sets[other]?.map fun set => if index = other then { set with closed := true } else set := by
  rw [State.closeSet, List.getElem?_modify]
  split <;> simp

theorem closeSet_later (s : State) (index : Nat) : Later s (s.closeSet index) := by
  refine ⟨by simp [State.closeSet], fun _ found => ?_⟩
  rw [closeSet_getElem?] at found
  obtain ⟨old, known, rfl⟩ := Option.map_eq_some_iff.mp found
  refine ⟨old, known, ?_⟩
  split <;> simp

theorem closeSet_closed {index : Nat} {set : ConsumerSet} (found : (s.closeSet index).sets[index]? = some set) :
    set.closed = true := by
  rw [closeSet_getElem?] at found
  obtain ⟨old, -, rfl⟩ := Option.map_eq_some_iff.mp found
  simp

theorem record_sets (s : State) (task : Task) (set : ConsumerSet) : (s.record task set).sets = s.sets := by
  unfold State.record
  split <;> rfl

theorem Noted.later (noted : Noted s t) : Later s t := by
  obtain ⟨_, _, rfl⟩ := noted
  exact .of_sets rfl

theorem dropHandle_later (s : State) (task : Task) (index : Nat) : Later s (s.dropHandle task index) := by
  unfold State.dropHandle
  split
  · split
    · exact .of_sets rfl
    · exact (Later.of_sets (record_sets ..)).trans (closeSet_later ..)
  · exact .of_sets rfl

theorem dropHandle_closed {index : Nat} {set : ConsumerSet}
    (found : (s.dropHandle task index).sets[index]? = some set) : set.closed = true := by
  unfold State.dropHandle at found
  split at found
  case h_1 known =>
    split at found
    case isTrue closed =>
      rw [known] at found
      cases found
      exact closed
    case isFalse => exact closeSet_closed found
  case h_2 known =>
    rw [known] at found
    cases found

theorem dropHandle_length (s : State) (task : Task) (index : Nat) :
    (s.dropHandle task index).sets.length = s.sets.length := by
  unfold State.dropHandle
  split
  · split
    · rfl
    · simp [State.closeSet, record_sets]
  · rfl

theorem register_later (s : State) (task : Task) (index : Nat) : Later s (s.register task index) := by
  unfold State.register
  dsimp only
  split
  · split
    · exact ((Later.of_sets (record_sets ..)).trans (closeSet_later ..)).trans (.of_sets rfl)
    · exact .of_sets rfl
  · exact .of_sets rfl

theorem register_length (s : State) (task : Task) (index : Nat) :
    (s.register task index).sets.length = s.sets.length := by
  unfold State.register
  dsimp only
  split
  · split
    · simp [State.closeSet, record_sets]
    · rfl
  · rfl

theorem register_closed {index old : Nat} {set : ConsumerSet} (known : s.consumers.lookup task.profile = some old)
    (found : (s.register task index).sets[old]? = some set) : set.closed = true := by
  unfold State.register at found
  simp only [known] at found
  split at found
  case h_1 => exact closeSet_closed found
  case h_2 absent =>
    rw [absent] at found
    cases found

structure Framed (s t : State) : Prop where
  conn : t.conn = s.conn
  requested : t.requested = s.requested
  tasks : t.tasks = s.tasks
  emptied : t.emptied = s.emptied

theorem Framed.trans {u : State} (first : Framed s t) (second : Framed t u) : Framed s u :=
  ⟨second.conn.trans first.conn, second.requested.trans first.requested, second.tasks.trans first.tasks,
    second.emptied.trans first.emptied⟩

theorem Noted.framed (noted : Noted s t) : Framed s t := by
  obtain ⟨_, _, rfl⟩ := noted
  exact ⟨rfl, rfl, rfl, rfl⟩

theorem record_framed (s : State) (task : Task) (set : ConsumerSet) : Framed s (s.record task set) := by
  unfold State.record
  split <;> exact ⟨rfl, rfl, rfl, rfl⟩

theorem dropHandle_framed (s : State) (task : Task) (index : Nat) : Framed s (s.dropHandle task index) := by
  unfold State.dropHandle
  split
  · split
    · exact ⟨rfl, rfl, rfl, rfl⟩
    · exact (record_framed ..).trans ⟨rfl, rfl, rfl, rfl⟩
  · exact ⟨rfl, rfl, rfl, rfl⟩

theorem register_framed (s : State) (task : Task) (index : Nat) : Framed s (s.register task index) := by
  unfold State.register
  dsimp only
  split
  · split
    · exact (record_framed ..).trans ⟨rfl, rfl, rfl, rfl⟩
    · exact ⟨rfl, rfl, rfl, rfl⟩
  · exact ⟨rfl, rfl, rfl, rfl⟩

theorem Moves.framed {stage : Stage} (moves : Moves v broker s task t stage) : Framed s t := by
  cases moves <;> exact ⟨rfl, rfl, rfl, rfl⟩

theorem Advances.framed (advances : Advances v broker s task t after) : Framed s t := by
  cases advances with
  | moves moves => exact moves.framed
  | rests noted => exact noted.framed
  | refused moves _ noted => exact moves.framed.trans noted.framed
  | holds | spawns => exact ⟨rfl, rfl, rfl, rfl⟩
  | drops noted => exact (dropHandle_framed ..).trans noted.framed
  | registers => exact register_framed ..

theorem Moves.sets {stage : Stage} (moves : Moves v broker s task t stage) :
    t.sets = s.sets ∧ t.consumers = s.consumers := by
  cases moves <;> exact ⟨rfl, rfl⟩

theorem Advances.later (advances : Advances v broker s task t after) : Later s t := by
  cases advances with
  | moves moves => exact .of_sets moves.sets.1
  | rests noted => exact noted.later
  | refused moves _ noted => exact (Later.of_sets moves.sets.1).trans noted.later
  | holds => exact .of_sets rfl
  | drops noted => exact (dropHandle_later ..).trans noted.later
  | spawns =>
    refine ⟨by simp, fun inside found => ⟨_, ?_, rfl, rfl, id⟩⟩
    rwa [List.getElem?_append_left inside] at found
  | registers => exact register_later ..

theorem Noted.consumers (noted : Noted s t) : t.consumers = s.consumers := by
  obtain ⟨_, _, rfl⟩ := noted
  rfl

theorem dropHandle_consumers (s : State) (task : Task) (index : Nat) :
    (s.dropHandle task index).consumers = s.consumers := by
  unfold State.dropHandle State.record
  split
  · split
    · rfl
    · split <;> rfl
  · rfl

theorem Advances.consumers (advances : Advances v broker s task t after) : t.consumers = s.consumers ∨
    ∃ index, task.stage = .inserting index ∧ t.consumers = s.consumers.insert task.profile index := by
  cases advances with
  | moves moves => exact .inl moves.sets.2
  | rests noted => exact .inl noted.consumers
  | refused moves _ noted => exact .inl (noted.consumers.trans moves.sets.2)
  | holds | spawns => exact .inl rfl
  | drops noted => exact .inl (noted.consumers.trans (dropHandle_consumers ..))
  | registers standing => exact .inr ⟨_, standing, rfl⟩

def Stage.handle : Stage → Option Nat
  | .inserting index | .holding index => some index
  | _ => none

theorem Stage.rests_handle {stage : Stage} (rests : stage.rests = true) : stage.handle = none := by
  cases stage <;> cases rests <;> rfl

theorem Stage.rests_establishes {stage : Stage} (rests : stage.rests = true) : stage.establishes = false := by
  cases stage <;> cases rests <;> rfl

theorem Moves.handle {stage : Stage} (moves : Moves v broker s task t stage) : stage.handle = none := by
  cases moves with
  | @knows _ follow | @applies _ _ follow => cases follow <;> rfl
  | _ => rfl

/-- Every index in the map or at a task is that of a set. -/
structure Ranged (s : State) : Prop where
  registered : ∀ {profile : String} {index : Nat}, s.consumers.lookup profile = some index → index < s.sets.length
  handled : ∀ {task : Task} {index : Nat}, task ∈ s.tasks → task.stage.handle = some index → index < s.sets.length

theorem Ranged.advance (ranged : Ranged s) {i : Nat} (found : s.tasks[i]? = some task)
    (advances : Advances v broker s task t after) : Ranged { t with tasks := t.tasks.set i after } := by
  have member : task ∈ s.tasks := List.mem_of_getElem? found
  have grows := advances.later.grows
  refine ⟨fun {profile index} known => ?_, fun {other index} known handled => ?_⟩
  · dsimp only at known ⊢
    rcases advances.consumers with same | ⟨fresh, standing, same⟩ <;> rw [same] at known
    · exact (ranged.registered known).trans_le grows
    · rcases Keyed.lookup_insert_cases known with ⟨-, rfl⟩ | ⟨-, known⟩
      · exact (ranged.handled member (by rw [standing]; rfl)).trans_le grows
      · exact (ranged.registered known).trans_le grows
  · dsimp only at known ⊢
    rcases List.mem_or_eq_of_mem_set known with old | rfl
    · rw [advances.framed.tasks] at old
      exact (ranged.handled old handled).trans_le grows
    · cases advances with
      | moves moves => cases moves.handle.symm.trans handled
      | rests _ _ _ _ rests | drops _ _ _ rests _ | registers _ _ rests =>
        cases (Stage.rests_handle rests).symm.trans handled
      | refused => cases handled
      | holds _ _ looked =>
        cases handled
        exact ranged.registered looked
      | spawns =>
        cases handled
        simp

theorem Ranged.steps {event : Event} (ranged : Ranged s) (steps : Steps v broker s event t) : Ranged t := by
  cases steps with
  | conn | request worker => exact ⟨ranged.registered, ranged.handled⟩
  | begins _ _ stage =>
    refine ⟨ranged.registered, fun known handled => ?_⟩
    rcases List.mem_append.mp known with old | fresh
    · exact ranged.handled old handled
    · obtain rfl := List.mem_singleton.mp fresh
      rcases stage with stage | stage <;> rw [stage] at handled <;> cases handled
  | shutdown => exact ⟨nofun, ranged.handled⟩
  | @closes index =>
    have grows := (closeSet_later s index).grows
    exact ⟨fun known => (ranged.registered known).trans_le grows,
      fun known handled => (ranged.handled known handled).trans_le grows⟩
  | task _ found advances => exact ranged.advance found advances

theorem reaches_ranged {Allowed : State → Event → Prop} (reached : Reaches (machine v broker) Allowed s) :
    Ranged s := by
  have preserved : Preserves (machine v broker) Allowed (fun _ => True) Ranged :=
    fun _ ranged _ stepped => ranged.steps (step_steps stepped)
  refine Reaches.invariant ?_ preserved reached
  rintro s rfl
  exact ⟨nofun, nofun⟩

/-- The map has no open set of the task's generation. -/
def Clear (s : State) (task : Task) : Prop :=
  ∀ (index : Nat) (set : ConsumerSet), s.consumers.lookup task.profile = some index → s.sets[index]? = some set →
    set.closed = false → set.generation ≠ task.generation

/-- A task is about to insert the set. -/
def Pending (tasks : List Task) (index : Nat) (set : ConsumerSet) : Prop :=
  ∃ (i : Nat) (task : Task), tasks[i]? = some task ∧ task.stage = .inserting index ∧
    task.profile = set.profile ∧ task.generation = set.generation

/-- One task holds the establish lock, it has found the map clear, and until the map is emptied every
open set is in it or about to be. -/
structure Exclusive (s : State) : Prop where
  locked : ∀ {i j : Nat} {a b : Task}, s.tasks[i]? = some a → s.tasks[j]? = some b →
    a.stage.establishes = true → b.stage.establishes = true → i = j
  clear : ∀ {i : Nat} {task : Task}, s.tasks[i]? = some task → task.stage.establishes = true → Clear s task
  placed : s.emptied = false → ∀ {index : Nat} {set : ConsumerSet}, s.sets[index]? = some set → set.closed = false →
    s.consumers.lookup set.profile = some index ∨ Pending s.tasks index set

theorem Advances.establishes (advances : Advances v broker s task t after) (holds : after.stage.establishes = true) :
    (task.stage.establishes = true ∧ after.profile = task.profile ∧ after.generation = task.generation ∨
      s.lockFree = true ∧ s.current after.profile after.generation = none) ∧
      t.consumers = s.consumers := by
  cases advances with
  | moves moves =>
    refine ⟨?_, moves.sets.2⟩
    cases moves with
    | locks _ free absent => exact .inr ⟨free, absent⟩
    | requests standing => cases holds
    | @knows _ follow standing | @applies _ _ follow standing =>
      cases follow with
      | adopt => cases holds
      | consume => exact .inl ⟨by rw [standing]; rfl, rfl, rfl⟩
    | begins => cases holds
    | opens standing | plans standing | declares standing | answers standing | consumes standing =>
      exact .inl ⟨by rw [standing]; rfl, rfl, rfl⟩
  | rests _ _ _ _ rests | drops _ _ _ rests _ | registers _ _ rests =>
    cases (Stage.rests_establishes rests).symm.trans holds
  | refused | holds => cases holds
  | spawns standing => exact ⟨.inl ⟨by rw [standing]; rfl, rfl, rfl⟩, rfl⟩

theorem clear_of_current (absent : s.current task.profile task.generation = none) : Clear s task := by
  intro index set known found opened same
  have passes : s.sets[index]?.any (fun set => set.generation = task.generation && !set.closed) = true := by
    simp [found, opened, same]
  rw [State.current, known, Option.filter_some, passes] at absent
  cases absent

theorem Clear.later (ranged : Ranged s) (later : Later s t) (consumers : t.consumers = s.consumers)
    (clear : Clear s task) (profile : after.profile = task.profile) (generation : after.generation = task.generation) :
    Clear t after := by
  intro index set known found opened
  rw [consumers, profile] at known
  obtain ⟨old, before, -, same, wasOpen⟩ := later.kept (ranged.registered known) found
  rw [← same, generation]
  exact clear index old known before (wasOpen opened)

theorem set_cases {tasks : List Task} {i j : Nat} {other : Task} (found : (tasks.set i after)[j]? = some other) :
    j = i ∧ other = after ∨ j ≠ i ∧ tasks[j]? = some other := by
  rw [List.getElem?_set] at found
  split at found
  case isTrue same =>
    split at found <;> cases found
    exact .inl ⟨same.symm, rfl⟩
  case isFalse different => exact .inr ⟨fun same => different same.symm, found⟩

theorem lockFree_idle {i : Nat} (free : s.lockFree = true) (found : s.tasks[i]? = some task) :
    task.stage.establishes = false := by
  simpa using List.all_eq_true.mp free task (List.mem_of_getElem? found)

theorem Exclusive.placed_before {i index : Nat} {set : ConsumerSet} (exclusive : Exclusive s)
    (later : Later s t) (untouched : s.emptied = false) (found : s.tasks[i]? = some task)
    (inside : index < s.sets.length) (known : t.sets[index]? = some set) (opened : set.closed = false) :
    s.consumers.lookup set.profile = some index ∨ Pending (s.tasks.set i after) index set ∨
      task.stage = .inserting index ∧ task.profile = set.profile := by
  obtain ⟨old, before, profile, generation, wasOpen⟩ := later.kept inside known
  rcases exclusive.placed untouched before (wasOpen opened) with looked | ⟨j, other, listed, inserting, same, label⟩
  · exact .inl (profile ▸ looked)
  · by_cases own : j = i
    · rw [own, found] at listed
      cases listed
      exact .inr (.inr ⟨inserting, same.trans profile⟩)
    · refine .inr (.inl ⟨j, other, ?_, inserting, same.trans profile, label.trans generation⟩)
      rwa [List.getElem?_set_ne fun equal => own equal.symm]

theorem Exclusive.advance_placed {i index : Nat} {set : ConsumerSet} (exclusive : Exclusive s)
    (untouched : s.emptied = false) (found : s.tasks[i]? = some task) (advances : Advances v broker s task t after)
    (known : t.sets[index]? = some set) (opened : set.closed = false) :
    t.consumers.lookup set.profile = some index ∨ Pending (s.tasks.set i after) index set := by
  have later := advances.later
  -- steps of a task with no set to register, on a map that stays
  have quiet (sets : t.sets = s.sets) (consumers : t.consumers = s.consumers)
      (free : ∀ index, task.stage ≠ .inserting index) :
      t.consumers.lookup set.profile = some index ∨ Pending (s.tasks.set i after) index set := by
    have inside : index < s.sets.length := sets ▸ (List.getElem?_eq_some_iff.mp known).1
    rcases exclusive.placed_before later untouched found inside known opened with looked | pending | ⟨own, -⟩
    · exact .inl (consumers ▸ looked)
    · exact .inr pending
    · exact absurd own (free index)
  cases advances with
  | moves moves =>
    refine quiet moves.sets.1 moves.sets.2 fun index inserting => ?_
    cases moves <;> simp_all
  | rests noted _ free =>
    obtain ⟨_, _, rfl⟩ := noted
    exact quiet rfl rfl free
  | refused moves standing noted =>
    obtain ⟨_, _, rfl⟩ := noted
    exact quiet moves.sets.1 moves.sets.2 fun _ inserting => by cases standing.symm.trans inserting
  | holds _ unlocked _ =>
    refine quiet rfl rfl fun index inserting => ?_
    rw [inserting] at unlocked
    cases unlocked
  | @drops t after dropped noted stage =>
    have sets : t.sets = (s.dropHandle task dropped).sets := by
      obtain ⟨_, _, rfl⟩ := noted
      rfl
    have inside : index < s.sets.length := by
      rw [← dropHandle_length s task dropped, ← sets]
      exact (List.getElem?_eq_some_iff.mp known).1
    have consumers : t.consumers = s.consumers := noted.consumers.trans (dropHandle_consumers ..)
    rcases exclusive.placed_before later untouched found inside known opened with looked | pending | ⟨own, -⟩
    · exact .inl (consumers ▸ looked)
    · exact .inr pending
    · -- the set it was to register is the one it dropped
      have same : index = dropped := by
        rcases stage with ⟨standing, -⟩ | standing | standing <;> cases own.symm.trans standing
        rfl
      rw [sets, same] at known
      exact absurd (dropHandle_closed known) (by simp [opened])
  | spawns standing =>
    rcases Nat.lt_or_ge index s.sets.length with inside | outside
    · rcases exclusive.placed_before later untouched found inside known opened with looked | pending | ⟨own, -⟩
      · exact .inl looked
      · exact .inr pending
      · cases own.symm.trans standing
    · rw [List.getElem?_append_right outside] at known
      obtain ⟨last, rfl⟩ := List.getElem?_eq_some_iff.mp known
      obtain rfl : index = s.sets.length := by simp at last; omega
      refine .inr ⟨i, _, List.getElem?_set_self (List.getElem?_eq_some_iff.mp found).1, rfl, ?_, ?_⟩ <;> simp
  | @registers after spawned standing _ rests =>
    have inside : index < s.sets.length := by
      rw [← register_length s task spawned]
      exact (List.getElem?_eq_some_iff.mp known).1
    rcases exclusive.placed_before later untouched found inside known opened with looked | pending | ⟨own, profile⟩
    · refine .inl ?_
      by_cases same : set.profile = task.profile
      · rw [same] at looked
        exact absurd (register_closed looked known) (by simp [opened])
      · exact (AList.lookup_insert_ne same).trans looked
    · exact .inr pending
    · cases own.symm.trans standing
      exact .inl (profile ▸ AList.lookup_insert _)

theorem Exclusive.advance {i : Nat} (ranged : Ranged s) (exclusive : Exclusive s) (found : s.tasks[i]? = some task)
    (advances : Advances v broker s task t after) : Exclusive { t with tasks := t.tasks.set i after } := by
  have framed := advances.framed
  rw [framed.tasks]
  have later : Later s { t with tasks := s.tasks.set i after } := ⟨advances.later.grows, advances.later.kept⟩
  -- nobody else holds the lock when the task has it afterwards
  have alone {j : Nat} {other : Task} (different : j ≠ i) (listed : s.tasks[j]? = some other)
      (holds : after.stage.establishes = true) : other.stage.establishes = false := by
    rcases (advances.establishes holds).1 with ⟨held, -⟩ | ⟨free, -⟩
    · by_contra also
      exact different (exclusive.locked listed found (by simpa using also) held)
    · exact lockFree_idle free listed
  refine ⟨?_, ?_, ?_⟩
  · intro j k a b first second holds also
    rcases set_cases first with ⟨rfl, rfl⟩ | ⟨different, before⟩
    · rcases set_cases second with ⟨rfl, -⟩ | ⟨different, before⟩
      · rfl
      · cases (alone different before holds).symm.trans also
    · rcases set_cases second with ⟨rfl, rfl⟩ | ⟨-, before'⟩
      · cases (alone different before also).symm.trans holds
      · exact exclusive.locked before before' holds also
  · intro j other listed holds
    rcases set_cases listed with ⟨rfl, rfl⟩ | ⟨different, before⟩
    · obtain ⟨origin, consumers⟩ := advances.establishes holds
      rcases origin with ⟨held, profile, generation⟩ | ⟨-, absent⟩
      · exact (exclusive.clear found held).later ranged later consumers profile generation
      · exact (clear_of_current absent).later ranged later consumers rfl rfl
    · rcases advances.consumers with same | ⟨index, standing, -⟩
      · exact (exclusive.clear before holds).later ranged later same rfl rfl
      · -- registering takes the lock, so the other task does not hold it
        exact absurd (exclusive.locked before found holds (by rw [standing]; rfl)) different
  · intro untouched index set known opened
    have unemptied : s.emptied = false := framed.emptied ▸ untouched
    change t.consumers.lookup set.profile = some index ∨ Pending (s.tasks.set i after) index set
    exact exclusive.advance_placed unemptied found advances known opened

theorem Exclusive.steps {event : Event} (ranged : Ranged s) (exclusive : Exclusive s)
    (steps : Steps v broker s event t) : Exclusive t := by
  cases steps with
  | conn | request worker => exact ⟨exclusive.locked, exclusive.clear, exclusive.placed⟩
  | @begins _ task _ _ _ _ stage =>
    have idle : task.stage.establishes = false := by rcases stage with stage | stage <;> rw [stage] <;> rfl
    -- a task that holds the lock was there before
    have old {i : Nat} {other : Task} (listed : (s.tasks ++ [task])[i]? = some other)
        (holds : other.stage.establishes = true) : s.tasks[i]? = some other := by
      rcases Nat.lt_or_ge i s.tasks.length with inside | outside
      · rwa [List.getElem?_append_left inside] at listed
      · rw [List.getElem?_append_right outside] at listed
        obtain rfl := List.mem_singleton.mp (List.mem_of_getElem? listed)
        cases idle.symm.trans holds
    refine ⟨fun first second holds also => exclusive.locked (old first holds) (old second also) holds also,
      fun listed holds => exclusive.clear (old listed holds) holds, fun untouched _ _ known opened => ?_⟩
    refine (exclusive.placed untouched known opened).imp_right ?_
    rintro ⟨i, other, listed, pending⟩
    have inside := (List.getElem?_eq_some_iff.mp listed).1
    exact ⟨i, other, (List.getElem?_append_left inside).trans listed, pending⟩
  | shutdown => exact ⟨exclusive.locked, fun _ _ _ _ => nofun, nofun⟩
  | @closes index rest =>
    have closed := closeSet_later s index
    have later : Later s { s.closeSet index with leaving := rest } := ⟨closed.grows, closed.kept⟩
    refine ⟨exclusive.locked, fun listed holds => ?_, fun untouched other set known opened => ?_⟩
    · exact (exclusive.clear listed holds).later ranged later rfl rfl rfl
    · have inside : other < s.sets.length := by
        simpa [State.closeSet] using (List.getElem?_eq_some_iff.mp known).1
      obtain ⟨old, before, profile, generation, wasOpen⟩ := later.kept inside known
      refine (exclusive.placed untouched before (wasOpen opened)).imp (profile ▸ ·) ?_
      rintro ⟨i, task, listed, inserting, same, label⟩
      exact ⟨i, task, listed, inserting, same.trans profile, label.trans generation⟩
  | task _ found advances => exact exclusive.advance ranged found advances

theorem reachable_exclusive (reached : Reachable (machine v broker) s) : Exclusive s := by
  have preserved : Preserves (machine v broker) (fun _ _ => True) Ranged Exclusive :=
    fun ranged exclusive _ stepped => exclusive.steps ranged (step_steps stepped)
  refine Reaches.invariant_of (fun _ => reaches_ranged) ?_ preserved reached
  rintro s rfl
  exact ⟨nofun, nofun, fun _ => nofun⟩

/-- A profile has at most one open set of a generation. -/
def Unrepeated (s : State) : Prop :=
  ∀ (i j : Nat) (a b : ConsumerSet), s.sets[i]? = some a → s.sets[j]? = some b → a.closed = false → b.closed = false →
    a.profile = b.profile → a.generation = b.generation → i = j

theorem Exclusive.unrepeated (exclusive : Exclusive s) (untouched : s.emptied = false) : Unrepeated s := by
  -- a registered open set keeps every task from establishing its profile again
  have apart {i j k : Nat} {a b : ConsumerSet} {task : Task} (first : s.sets[i]? = some a) (opened : a.closed = false)
      (profile : a.profile = b.profile) (generation : a.generation = b.generation)
      (looked : s.consumers.lookup a.profile = some i) (listed : s.tasks[k]? = some task)
      (inserting : task.stage = .inserting j) (same : task.profile = b.profile)
      (label : task.generation = b.generation) : False := by
    have holds : task.stage.establishes = true := by rw [inserting]; rfl
    refine exclusive.clear listed holds i a ?_ first opened (generation.trans label.symm)
    rw [same, ← profile]
    exact looked
  intro i j a b first second opened also profile generation
  rcases exclusive.placed untouched first opened with looked | ⟨k, task, listed, inserting, same, label⟩ <;>
    rcases exclusive.placed untouched second also with looked' | ⟨k', task', listed', inserting', same', label'⟩
  · rw [profile] at looked
    exact Option.some.inj (looked.symm.trans looked')
  · exact (apart first opened profile generation looked listed' inserting' same' label').elim
  · exact (apart second also profile.symm generation.symm looked' listed inserting same label).elim
  · have one : k = k' := exclusive.locked listed listed' (by rw [inserting]; rfl) (by rw [inserting']; rfl)
    rw [one, listed'] at listed
    cases listed
    exact Stage.inserting.inj (inserting.symm.trans inserting')

end RabbitRs.Establishment
