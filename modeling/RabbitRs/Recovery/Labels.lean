import RabbitRs.Recovery.Exclusion

/-!
Labels of consumer sets, as long as no connection is established while work of an earlier generation
is in progress: what consumes does so where the topology was applied, and no call closes a set newer
than the generation it read.
-/

namespace RabbitRs.Establishment

open StepMachine
open Recovery (Connection)

variable {v : ValidatedConfig} {broker : String} {s t : State} {task after : Task}

/-- No connection is established while a task works for an earlier one, and generations have room. -/
def Settled (s : State) (event : Event) : Prop :=
  event = .conn (.attempted (.completed (.ok ()))) →
    (∀ task ∈ s.tasks, task.stage.inProgress = false) ∧ s.conn.generation + 1 < 2 ^ 64

/-- No call closed or replaced a set of a generation greater than the one it read. -/
def Spared (s : State) : Prop := ∀ closing ∈ s.closings, closing.2 ≤ closing.1

structure Labelled (s : State) : Prop where
  latest : ∀ {connection : Nat}, s.conn.connection = some connection → connection + 1 = s.conn.obtained
  tasks : ∀ {task : Task}, task ∈ s.tasks → task.stage.inProgress = true → task.generation = s.conn.generation
  sets : ∀ {index : Nat} {set : ConsumerSet}, s.sets[index]? = some set → set.generation ≤ s.conn.generation
  held : ∀ {task : Task} {index : Nat} {set : ConsumerSet}, task ∈ s.tasks → task.stage = .holding index →
    s.sets[index]? = some set → set.generation ≤ task.generation
  spared : Spared s

theorem record_closings {closing : Nat × Nat} {set : ConsumerSet}
    (member : closing ∈ (s.record task set).closings) :
    closing ∈ s.closings ∨ closing = (task.generation, set.generation) := by
  unfold State.record at member
  split at member
  · exact (List.mem_cons.mp member).symm
  · exact .inl member

theorem dropHandle_closings {closing : Nat × Nat} {index : Nat}
    (member : closing ∈ (s.dropHandle task index).closings) :
    closing ∈ s.closings ∨ ∃ set, s.sets[index]? = some set ∧ closing = (task.generation, set.generation) := by
  unfold State.dropHandle at member
  split at member
  case h_1 set found =>
    split at member
    · exact .inl member
    · exact (record_closings member).imp_right fun recorded => ⟨set, found, recorded⟩
  case h_2 => exact .inl member

theorem register_closings {closing : Nat × Nat} {index : Nat}
    (member : closing ∈ (s.register task index).closings) :
    closing ∈ s.closings ∨ ∃ (old : Nat) (set : ConsumerSet), s.sets[old]? = some set ∧ closing = (task.generation, set.generation) := by
  unfold State.register at member
  dsimp only at member
  split at member
  case h_1 old _ =>
    split at member
    case h_1 set found => exact (record_closings member).imp_right fun recorded => ⟨old, set, found, recorded⟩
    case h_2 => exact .inl member
  case h_2 => exact .inl member

theorem Noted.closings (noted : Noted s t) : t.closings = s.closings := by
  obtain ⟨_, _, rfl⟩ := noted
  rfl

theorem Moves.closings {stage : Stage} (moves : Moves v broker s task t stage) : t.closings = s.closings := by
  cases moves <;> rfl

theorem Advances.closings {closing : Nat × Nat} (advances : Advances v broker s task t after)
    (member : closing ∈ t.closings) :
    closing ∈ s.closings ∨ ∃ index set, s.sets[index]? = some set ∧ closing = (task.generation, set.generation) ∧
      (task.stage.inProgress = true ∨ task.stage = .holding index) := by
  cases advances with
  | moves moves => exact .inl (moves.closings ▸ member)
  | rests noted => exact .inl (noted.closings ▸ member)
  | refused moves _ noted => exact .inl (moves.closings ▸ noted.closings ▸ member)
  | holds | spawns => exact .inl member
  | drops noted stage =>
    rw [noted.closings] at member
    refine (dropHandle_closings member).imp_right ?_
    rintro ⟨set, found, closed⟩
    refine ⟨_, set, found, closed, ?_⟩
    rcases stage with ⟨standing, -⟩ | standing | standing
    · exact .inl (by rw [standing]; rfl)
    · exact .inr standing
    · exact .inl (by rw [standing]; rfl)
  | registers standing =>
    refine (register_closings member).imp_right ?_
    rintro ⟨old, set, found, closed⟩
    exact ⟨old, set, found, closed, .inl (by rw [standing]; rfl)⟩

theorem Moves.inProgress {stage : Stage} (moves : Moves v broker s task t stage) : task.stage.inProgress = true := by
  cases moves with
  | locks standing | requests standing | opens standing | plans standing | knows standing | begins standing
  | declares standing | answers standing | applies standing | consumes standing => rw [standing]; rfl

theorem Advances.label (advances : Advances v broker s task t after) : after.generation = task.generation ∧
    (after.stage.inProgress = true → task.stage.inProgress = true) := by
  cases advances with
  | moves moves => exact ⟨rfl, fun _ => moves.inProgress⟩
  | rests _ progress _ label => exact ⟨label, fun _ => progress⟩
  | refused | holds => exact ⟨rfl, nofun⟩
  | drops _ _ label _ progress => exact ⟨label, progress⟩
  | spawns standing => exact ⟨rfl, fun _ => by rw [standing]; rfl⟩
  | registers standing label => exact ⟨label, fun _ => by rw [standing]; rfl⟩

theorem Advances.sets {index : Nat} {set : ConsumerSet} (advances : Advances v broker s task t after)
    (found : t.sets[index]? = some set) :
    (∃ old, s.sets[index]? = some old ∧ old.generation = set.generation) ∨
      task.stage.inProgress = true ∧ set.generation = task.generation := by
  rcases Nat.lt_or_ge index s.sets.length with inside | outside
  · obtain ⟨old, before, -, generation, -⟩ := advances.later.kept inside found
    exact .inl ⟨old, before, generation⟩
  · have absent {u : State} (same : u.sets.length = s.sets.length) : u.sets[index]? ≠ some set := by
      rw [List.getElem?_eq_none (same ▸ outside)]
      nofun
    cases advances with
    | moves moves => exact absurd found (absent (by rw [moves.sets.1]))
    | rests noted =>
      obtain ⟨_, _, rfl⟩ := noted
      exact absurd found (absent rfl)
    | refused moves _ noted =>
      obtain ⟨_, _, rfl⟩ := noted
      exact absurd found (absent (congrArg List.length moves.sets.1))
    | holds => exact absurd found (absent rfl)
    | @drops _ _ dropped noted =>
      obtain ⟨_, _, rfl⟩ := noted
      exact absurd found (absent (dropHandle_length s task dropped))
    | spawns standing =>
      rw [List.getElem?_append_right outside] at found
      obtain rfl := List.mem_singleton.mp (List.mem_of_getElem? found)
      exact .inr ⟨by rw [standing]; rfl, rfl⟩
    | registers => exact absurd found (absent (register_length ..))

theorem Labelled.advance {i : Nat} (ranged : Ranged s) (labelled : Labelled s) (found : s.tasks[i]? = some task)
    (advances : Advances v broker s task t after) : Labelled { t with tasks := t.tasks.set i after } := by
  have member : task ∈ s.tasks := List.mem_of_getElem? found
  have framed := advances.framed
  have label := advances.label
  have generation : t.conn.generation = s.conn.generation := by rw [framed.conn]
  refine ⟨?_, ?_, ?_, ?_, ?_⟩
  · intro connection current
    dsimp only at current ⊢
    rw [framed.conn] at current ⊢
    exact labelled.latest current
  · intro other listed progress
    dsimp only at listed ⊢
    rw [generation]
    rcases List.mem_or_eq_of_mem_set listed with old | rfl
    · exact labelled.tasks (framed.tasks ▸ old) progress
    · exact label.1.trans (labelled.tasks member (label.2 progress))
  · intro index set known
    dsimp only at known ⊢
    rw [generation]
    rcases advances.sets known with ⟨old, before, same⟩ | ⟨progress, same⟩
    · exact same ▸ labelled.sets before
    · exact (same.trans (labelled.tasks member progress)).le
  · intro other index set listed holding known
    dsimp only at listed known
    rcases List.mem_or_eq_of_mem_set listed with old | rfl
    · rw [framed.tasks] at old
      have inside := ranged.handled old (by rw [holding]; rfl)
      obtain ⟨before, stored, -, same, -⟩ := advances.later.kept inside known
      exact same ▸ labelled.held old holding stored
    · cases advances with
      | moves moves => cases moves.handle.symm.trans (congrArg Stage.handle holding)
      | rests _ _ _ _ rests | drops _ _ _ rests _ | registers _ _ rests =>
        cases (Stage.rests_handle rests).symm.trans (congrArg Stage.handle holding)
      | refused => cases holding
      | holds progress => exact (labelled.sets known).trans (labelled.tasks member progress).ge
      | spawns => cases holding
  · intro closing closed
    rcases advances.closings closed with before | ⟨index, set, stored, rfl, progress | holding⟩
    · exact labelled.spared closing before
    · exact (labelled.sets stored).trans (labelled.tasks member progress).ge
    · exact labelled.held member holding stored

theorem Labelled.connected (labelled : Labelled s) (idle : ∀ task ∈ s.tasks, task.stage.inProgress = false)
    (room : s.conn.generation + 1 < 2 ^ 64) : Labelled { s with conn := s.conn.becomeReady } := by
  have grows : s.conn.generation ≤ s.conn.becomeReady.generation := by
    change s.conn.generation ≤ min (s.conn.generation + 1) (2 ^ 64 - 1)
    omega
  refine ⟨?_, ?_, fun known => (labelled.sets known).trans grows, labelled.held, labelled.spared⟩
  · intro connection current
    cases current
    rfl
  · intro task listed progress
    cases (idle task listed).symm.trans progress

theorem Labelled.steps {event : Event} (ranged : Ranged s) (labelled : Labelled s) (settled : Settled s event)
    (steps : Steps v broker s event t) : Labelled t := by
  cases steps with
  | @conn event conn next =>
    rcases (Connection.step_turns next).keeps with keeps | ⟨rfl, rfl⟩
    · refine ⟨?_, ?_, ?_, labelled.held, labelled.spared⟩
      · intro connection current
        dsimp only at current ⊢
        rw [keeps.obtained]
        rcases keeps.connection with same | gone
        · exact labelled.latest (same ▸ current)
        · cases gone.symm.trans current
      · intro task listed progress
        exact (labelled.tasks listed progress).trans keeps.generation.symm
      · intro index set known
        exact (labelled.sets known).trans keeps.generation.ge
    · obtain ⟨idle, room⟩ := settled rfl
      exact labelled.connected idle room
  | request worker | shutdown =>
    exact ⟨labelled.latest, labelled.tasks, labelled.sets, labelled.held, labelled.spared⟩
  | @begins _ task _ generation ready label stage =>
    have current : task.generation = s.conn.generation := by
      unfold Connection.published at ready
      split at ready <;> cases ready
      exact label
    refine ⟨labelled.latest, ?_, labelled.sets, ?_, labelled.spared⟩
    · intro other listed progress
      rcases List.mem_append.mp listed with old | fresh
      · exact labelled.tasks old progress
      · obtain rfl := List.mem_singleton.mp fresh
        exact current
    · intro other index set listed holding known
      rcases List.mem_append.mp listed with old | fresh
      · exact labelled.held old holding known
      · obtain rfl := List.mem_singleton.mp fresh
        rcases stage with standing | standing <;> cases standing.symm.trans holding
  | @closes index rest =>
    have kept {other : Nat} {set : ConsumerSet} (known : (s.closeSet index).sets[other]? = some set) :
        ∃ old, s.sets[other]? = some old ∧ old.generation = set.generation := by
      have inside : other < s.sets.length := by
        simpa [State.closeSet] using (List.getElem?_eq_some_iff.mp known).1
      obtain ⟨old, before, -, same, -⟩ := (closeSet_later s index).kept inside known
      exact ⟨old, before, same⟩
    refine ⟨labelled.latest, labelled.tasks, ?_, ?_, labelled.spared⟩
    · intro other set known
      obtain ⟨old, before, same⟩ := kept known
      exact same ▸ labelled.sets before
    · intro task other set listed holding known
      obtain ⟨old, before, same⟩ := kept known
      exact same ▸ labelled.held listed holding before
  | task _ found advances => exact labelled.advance ranged found advances

theorem reaches_labelled (reached : Reaches (machine v broker) Settled s) : Labelled s := by
  have preserved : Preserves (machine v broker) Settled Ranged Labelled :=
    fun ranged labelled settled stepped => labelled.steps ranged settled (step_steps stepped)
  refine Reaches.invariant_of (fun _ => reaches_ranged) ?_ preserved reached
  rintro s rfl
  exact ⟨nofun, nofun, nofun, nofun, nofun⟩

def Hosts (v : ValidatedConfig) (s : State) (profile : String) (plan : TopologyPlan) : Prop :=
  ∃ worker, s.worker v profile = some worker ∧ ∀ sub ∈ worker.subscriptions, sub.queue ∈ plan.queues.map (·.name)

/-- Every `basic.consume` is for a queue of its profile, on a connection on which a plan with every
queue of the profile was applied. -/
def Declared (v : ValidatedConfig) (s : State) : Prop :=
  ∀ consumption ∈ s.consumed, ∃ plan worker, (consumption.connection, plan) ∈ s.applied ∧
    s.worker v consumption.profile = some worker ∧ consumption.queue ∈ worker.subscriptions.map (·.queue) ∧
    ∀ sub ∈ worker.subscriptions, sub.queue ∈ plan.queues.map (·.name)

theorem find_requestProfile {requested : List WorkerProfile} {profile : String} {found : WorkerProfile}
    (worker : WorkerProfile) (known : requested.find? (fun worker => worker.name = profile) = some found) :
    (requestProfile v requested worker).find? (fun worker => worker.name = profile) = some found := by
  unfold requestProfile
  split
  · exact known
  case isFalse absent =>
    have named : ((configured v worker.name).getD worker).name = worker.name := by
      cases stored : configured v worker.name with
      | none => rfl
      | some _ => simpa using List.find?_some stored
    have different : ¬((configured v worker.name).getD worker).name = profile := by
      rw [named]
      rintro rfl
      have matched : found.name = worker.name := by simpa using List.find?_some known
      exact absent (List.any_eq_true.mpr ⟨found, List.mem_of_find?_eq_some known, by simpa using matched⟩)
    rw [List.orderedInsert_eq_take_drop, List.find?_append, List.find?_cons_of_neg (by simpa using different),
      ← List.find?_append, List.takeWhile_append_dropWhile]
    exact known

theorem worker_request {profile : String} {found : WorkerProfile} (worker : WorkerProfile)
    (known : s.worker v profile = some found) : (s.request v worker).worker v profile = some found := by
  unfold State.worker at known ⊢
  cases listed : configured v profile with
  | some _ =>
    rw [listed] at known
    exact known
  | none =>
    rw [listed, Option.none_or] at known
    rw [Option.none_or]
    exact find_requestProfile worker known

theorem generationPlan_hosts {profile : String} {worker : WorkerProfile} (declare : v.config.topologyMode = .declare)
    (known : s.worker v profile = some worker) : Hosts v s profile (generationPlan v s.requested) := by
  have planned : worker ∈ v.config.workers ++ generationExtras v s.requested := by
    unfold State.worker at known
    cases listed : configured v profile with
    | some found =>
      rw [listed, Option.some_or] at known
      cases known
      exact List.mem_append_left _ (List.mem_of_find?_eq_some listed)
    | none =>
      rw [listed, Option.none_or] at known
      obtain rfl : worker.name = profile := by simpa using List.find?_some known
      refine List.mem_append_right _ ?_
      unfold generationExtras
      rw [declare]
      refine List.mem_filter.mpr ⟨List.mem_of_find?_eq_some known, ?_⟩
      simpa [configured] using listed
  refine ⟨worker, known, fun sub member => ?_⟩
  rw [(generationPlan_shape v s.requested).2.2.1, plannedQueues_names]
  exact List.mem_append_left _ (List.mem_map_of_mem (List.mem_flatMap.mpr ⟨worker, planned, member⟩))

namespace Stage

def prepares : Stage → Bool
  | .opening _ _ | .reconciling _ (.consume _) | .declaring _ _ | .applying _ _ (.consume _) | .consuming _ => true
  | _ => false

def channels : Stage → Channels
  | .opening _ channels | .reconciling _ (.consume channels) | .declaring _ channels
  | .applying _ _ (.consume channels) | .consuming channels => channels
  | _ => []

def subscriptions : Stage → List SubscriptionConfig
  | .opening rest channels => rest ++ channels.map Prod.fst
  | stage => stage.channels.map Prod.fst

def topology : Stage → Option Nat
  | .reconciling _ (.adopt channel) | .applying _ channel _ => some channel
  | _ => none

def plan : Stage → Option TopologyPlan
  | .reconciling plan (.consume _) | .declaring plan _ | .applying plan _ (.consume _) => some plan
  | _ => none

end Stage

structure Equipped (v : ValidatedConfig) (s : State) (task : Task) : Prop where
  topology : ∀ connection, task.stage.topology = some connection → connection + 1 = s.conn.obtained
  channels : ∀ channel ∈ task.stage.channels, channel.2 + 1 = s.conn.obtained
  worker : task.stage.prepares = true → ∃ worker, s.worker v task.profile = some worker ∧
    ∀ sub ∈ task.stage.subscriptions, sub ∈ worker.subscriptions
  planned : ∀ plan, task.stage.plan = some plan → Hosts v s task.profile plan
  applied : ∀ channels, task.stage = .consuming channels → ∃ plan, Hosts v s task.profile plan ∧
    ∀ connection, connection + 1 = s.conn.obtained → (connection, plan) ∈ s.applied

theorem equipped_of_free (idle : task.stage.prepares = false) (untold : task.stage.topology = none) :
    Equipped v s task := by
  refine ⟨fun _ told => ?_, ?_, fun prepares => ?_, ?_, ?_⟩
  · cases untold.symm.trans told
  · cases stage : task.stage with
    | reconciling _ follow | applying _ _ follow => cases follow <;> simp_all [Stage.prepares, Stage.channels]
    | _ => simp_all [Stage.prepares, Stage.channels]
  · cases idle.symm.trans prepares
  · cases stage : task.stage with
    | reconciling _ follow | applying _ _ follow => cases follow <;> simp_all [Stage.prepares, Stage.plan]
    | _ => simp_all [Stage.prepares, Stage.plan]
  · intro channels stage
    rw [stage] at idle
    cases idle

theorem Equipped.keep (equipped : Equipped v s task) (obtained : t.conn.obtained = s.conn.obtained)
    (worker : ∀ {profile : String} {found : WorkerProfile}, s.worker v profile = some found → t.worker v profile = some found)
    (applied : ∀ entry ∈ s.applied, entry ∈ t.applied) : Equipped v t task := by
  have hosts {profile : String} {plan : TopologyPlan} : Hosts v s profile plan → Hosts v t profile plan := by
    rintro ⟨found, known, all⟩
    exact ⟨found, worker known, all⟩
  refine ⟨obtained ▸ equipped.topology, obtained ▸ equipped.channels, ?_, ?_, ?_⟩
  · intro prepares
    obtain ⟨found, known, all⟩ := equipped.worker prepares
    exact ⟨found, worker known, all⟩
  · exact fun plan wanted => hosts (equipped.planned plan wanted)
  · intro channels stage
    obtain ⟨plan, hosted, everywhere⟩ := equipped.applied channels stage
    exact ⟨plan, hosts hosted, fun connection latest => applied _ (everywhere connection (obtained ▸ latest))⟩

structure Prepared (v : ValidatedConfig) (s : State) : Prop where
  reconciled : ∀ {generation : Nat} {plan : TopologyPlan}, s.reconciler = some (generation, plan) →
    generation ≤ s.conn.generation ∧ (generation = s.conn.generation →
      ∀ connection, connection + 1 = s.conn.obtained → (connection, plan) ∈ s.applied)
  tasks : ∀ {task : Task}, task ∈ s.tasks → Equipped v s task
  declared : Declared v s

theorem Prepared.moves {stage : Stage} (declare : v.config.topologyMode = .declare) (labelled : Labelled s)
    (prepared : Prepared v s) (member : task ∈ s.tasks) (moves : Moves v broker s task t stage) :
    Equipped v t { task with stage } := by
  have equipped := prepared.tasks member
  have label := labelled.tasks member moves.inProgress
  obtain ⟨topology, channels, worker, planned, applied⟩ := equipped
  cases moves with
  | @locks worker standing _ _ known =>
    refine ⟨nofun, by rintro _ ⟨⟩, fun _ => ⟨worker, known, fun sub listed => ?_⟩, nofun, nofun⟩
    simp only [Stage.subscriptions, List.map_nil, List.append_nil] at listed
    exact List.mem_of_mem_filter listed
  | requests standing held =>
    refine ⟨?_, by rintro _ ⟨⟩, nofun, nofun, nofun⟩
    rintro connection ⟨⟩
    exact labelled.latest held
  | @opens sub rest opened connection standing held =>
    rw [standing] at channels worker
    refine ⟨nofun, ?_, fun _ => ?_, nofun, nofun⟩
    · intro channel listed
      rcases List.mem_append.mp listed with old | fresh
      · exact channels channel old
      · obtain rfl := List.mem_singleton.mp fresh
        exact labelled.latest held
    · obtain ⟨found, known, all⟩ := worker rfl
      refine ⟨found, known, fun sub listed => all sub ?_⟩
      simp only [Stage.subscriptions, List.map_append, List.map_cons, List.map_nil, List.mem_append,
        List.mem_cons, List.not_mem_nil, or_false] at listed ⊢
      tauto
  | plans standing =>
    rw [standing] at channels worker
    obtain ⟨found, known, all⟩ := worker rfl
    refine ⟨nofun, channels, fun _ => ⟨found, known, all⟩, ?_, nofun⟩
    rintro plan ⟨⟩
    exact generationPlan_hosts declare known
  | @knows plan follow standing known =>
    cases follow with
    | adopt => exact equipped_of_free rfl rfl
    | consume ready =>
      rw [standing] at channels worker planned
      refine ⟨nofun, channels, worker, nofun, ?_⟩
      rintro _ ⟨⟩
      exact ⟨plan, planned plan rfl, (prepared.reconciled known).2 label⟩
  | begins standing =>
    rw [standing] at topology
    exact ⟨topology, by rintro _ ⟨⟩, nofun, nofun, nofun⟩
  | declares standing =>
    rw [standing] at channels worker planned
    exact ⟨nofun, channels, worker, planned, nofun⟩
  | answers standing held =>
    rw [standing] at channels worker planned
    refine ⟨?_, channels, worker, planned, nofun⟩
    rintro connection ⟨⟩
    exact labelled.latest held
  | @applies plan channel follow standing =>
    cases follow with
    | adopt => exact equipped_of_free rfl rfl
    | consume ready =>
      rw [standing] at topology channels worker planned
      refine ⟨nofun, channels, worker, nofun, ?_⟩
      rintro _ ⟨⟩
      refine ⟨plan, planned plan rfl, fun connection latest => ?_⟩
      obtain rfl : connection = channel := by
        have told : channel + 1 = s.conn.obtained := topology channel rfl
        have latest : connection + 1 = s.conn.obtained := latest
        omega
      exact List.mem_cons_self
  | @consumes sub connection rest standing =>
    rw [standing] at channels worker applied
    refine ⟨nofun, fun channel listed => channels channel (List.mem_cons_of_mem _ listed), fun _ => ?_, nofun, ?_⟩
    · obtain ⟨found, known, all⟩ := worker rfl
      exact ⟨found, known, fun sub listed => all sub (List.mem_cons_of_mem _ listed)⟩
    · intro _ _
      exact applied _ rfl

structure SameLogs (s t : State) : Prop where
  reconciler : t.reconciler = s.reconciler
  applied : t.applied = s.applied
  consumed : t.consumed = s.consumed

theorem SameLogs.trans {u : State} (first : SameLogs s t) (second : SameLogs t u) : SameLogs s u :=
  ⟨second.reconciler.trans first.reconciler, second.applied.trans first.applied,
    second.consumed.trans first.consumed⟩

theorem Noted.logs (noted : Noted s t) : SameLogs s t := by
  obtain ⟨_, _, rfl⟩ := noted
  exact ⟨rfl, rfl, rfl⟩

theorem record_logs (s : State) (task : Task) (set : ConsumerSet) : SameLogs s (s.record task set) := by
  unfold State.record
  split <;> exact ⟨rfl, rfl, rfl⟩

theorem dropHandle_logs (s : State) (task : Task) (index : Nat) : SameLogs s (s.dropHandle task index) := by
  unfold State.dropHandle
  split
  · split
    · exact ⟨rfl, rfl, rfl⟩
    · exact (record_logs ..).trans ⟨rfl, rfl, rfl⟩
  · exact ⟨rfl, rfl, rfl⟩

theorem register_logs (s : State) (task : Task) (index : Nat) : SameLogs s (s.register task index) := by
  unfold State.register
  dsimp only
  split
  · split
    · exact (record_logs ..).trans ⟨rfl, rfl, rfl⟩
    · exact ⟨rfl, rfl, rfl⟩
  · exact ⟨rfl, rfl, rfl⟩

theorem Framed.worker (framed : Framed s t) (profile : String) : t.worker v profile = s.worker v profile := by
  unfold State.worker
  rw [framed.requested]

theorem Moves.applied {stage : Stage} (moves : Moves v broker s task t stage) :
    ∀ entry ∈ s.applied, entry ∈ t.applied := by
  cases moves with
  | applies => exact fun _ => List.mem_cons_of_mem _
  | _ => exact fun _ => id

theorem Declared.keep (declared : Declared v s) (consumed : t.consumed = s.consumed)
    (worker : ∀ {profile : String} {found : WorkerProfile}, s.worker v profile = some found → t.worker v profile = some found)
    (applied : ∀ entry ∈ s.applied, entry ∈ t.applied) : Declared v t := by
  intro consumption listed
  rw [consumed] at listed
  obtain ⟨plan, found, entry, known, own, all⟩ := declared consumption listed
  exact ⟨plan, found, applied _ entry, worker known, own, all⟩

theorem Prepared.moves_declared {stage : Stage} (prepared : Prepared v s) (member : task ∈ s.tasks)
    (moves : Moves v broker s task t stage) : Declared v t := by
  have grown := moves.applied
  cases moves with
  | @consumes sub connection rest standing =>
    obtain ⟨_, channels, worker, _, applied⟩ := prepared.tasks member
    rw [standing] at channels worker applied
    obtain ⟨plan, ⟨found, known, all⟩, everywhere⟩ := applied _ rfl
    obtain ⟨same, again, own⟩ := worker rfl
    obtain rfl : found = same := Option.some.inj (known.symm.trans again)
    intro consumption listed
    rcases List.mem_cons.mp listed with rfl | old
    · exact ⟨plan, found, everywhere _ (channels _ List.mem_cons_self), known,
        List.mem_map_of_mem (own _ List.mem_cons_self), all⟩
    · exact prepared.declared consumption old
  | _ => exact prepared.declared.keep rfl id grown

theorem Prepared.moves_reconciled {stage : Stage} {generation : Nat} {plan : TopologyPlan} (labelled : Labelled s)
    (prepared : Prepared v s) (member : task ∈ s.tasks) (moves : Moves v broker s task t stage)
    (known : t.reconciler = some (generation, plan)) : generation ≤ s.conn.generation ∧
      (generation = s.conn.generation → ∀ connection, connection + 1 = s.conn.obtained → (connection, plan) ∈ t.applied) := by
  have label := labelled.tasks member moves.inProgress
  cases moves with
  | @applies plan channel follow standing =>
    cases known
    have told : channel + 1 = s.conn.obtained := (prepared.tasks member).topology channel (by rw [standing]; rfl)
    refine ⟨label.le, fun _ connection latest => ?_⟩
    obtain rfl : connection = channel := by omega
    exact List.mem_cons_self
  | _ => exact prepared.reconciled known

theorem Prepared.rests {i : Nat} (prepared : Prepared v s) (framed : Framed s t) (logs : SameLogs s t)
    (idle : after.stage.prepares = false) (untold : after.stage.topology = none) :
    Prepared v { t with tasks := t.tasks.set i after } := by
  have worker {profile : String} {found : WorkerProfile} (known : s.worker v profile = some found) :
      t.worker v profile = some found := (framed.worker profile).trans known
  have applied (entry : Nat × TopologyPlan) (listed : entry ∈ s.applied) : entry ∈ t.applied := logs.applied ▸ listed
  refine ⟨?_, ?_, prepared.declared.keep logs.consumed worker applied⟩
  · intro generation plan known
    dsimp only at known ⊢
    rw [logs.reconciler] at known
    rw [framed.conn, logs.applied]
    exact prepared.reconciled known
  · intro other listed
    rcases List.mem_or_eq_of_mem_set listed with old | rfl
    · rw [framed.tasks] at old
      exact (prepared.tasks old).keep (congrArg Connection.obtained framed.conn) worker applied
    · exact equipped_of_free idle untold

theorem Stage.rests_free {stage : Stage} (rests : stage.rests = true) :
    stage.prepares = false ∧ stage.topology = none := by
  cases stage <;> cases rests <;> exact ⟨rfl, rfl⟩

theorem Prepared.moved {u : State} {i : Nat} {stage : Stage} (labelled : Labelled s) (prepared : Prepared v s)
    (member : task ∈ s.tasks) (moves : Moves v broker s task t stage) (noted : Noted t u)
    (equipped : Equipped v t after) : Prepared v { u with tasks := u.tasks.set i after } := by
  obtain ⟨_, _, rfl⟩ := noted
  have framed := moves.framed
  have obtained := congrArg Connection.obtained framed.conn
  have worker {profile : String} {found : WorkerProfile} (known : s.worker v profile = some found) :
      t.worker v profile = some found := (framed.worker profile).trans known
  refine ⟨?_, ?_, (prepared.moves_declared member moves).keep rfl id fun _ => id⟩
  · intro generation plan known
    dsimp only
    rw [framed.conn]
    exact prepared.moves_reconciled labelled member moves known
  · intro other listed
    rcases List.mem_or_eq_of_mem_set listed with old | rfl
    · rw [framed.tasks] at old
      exact (prepared.tasks old).keep obtained worker moves.applied
    · exact equipped.keep rfl id fun _ => id

theorem Prepared.advance {i : Nat} (declare : v.config.topologyMode = .declare) (labelled : Labelled s)
    (prepared : Prepared v s) (found : s.tasks[i]? = some task) (advances : Advances v broker s task t after) :
    Prepared v { t with tasks := t.tasks.set i after } := by
  have member : task ∈ s.tasks := List.mem_of_getElem? found
  have framed := advances.framed
  cases advances with
  | moves moves =>
    exact prepared.moved labelled member moves (.refl _) (prepared.moves declare labelled member moves)
  | rests noted _ _ _ rests =>
    exact prepared.rests framed noted.logs (Stage.rests_free rests).1 (Stage.rests_free rests).2
  | refused moves _ noted => exact prepared.moved labelled member moves noted (equipped_of_free rfl rfl)
  | holds | spawns => exact prepared.rests framed ⟨rfl, rfl, rfl⟩ rfl rfl
  | drops noted _ _ rests _ =>
    exact prepared.rests framed ((dropHandle_logs ..).trans noted.logs) (Stage.rests_free rests).1 (Stage.rests_free rests).2
  | registers _ _ rests =>
    exact prepared.rests framed (register_logs ..) (Stage.rests_free rests).1 (Stage.rests_free rests).2

theorem Prepared.steps {event : Event} (declare : v.config.topologyMode = .declare) (labelled : Labelled s)
    (prepared : Prepared v s) (settled : Settled s event) (steps : Steps v broker s event t) : Prepared v t := by
  cases steps with
  | @conn event conn next =>
    rcases (Connection.step_turns next).keeps with keeps | ⟨rfl, rfl⟩
    · refine ⟨?_, fun listed => (prepared.tasks listed).keep keeps.obtained id fun _ => id, prepared.declared⟩
      intro generation plan known
      dsimp only
      rw [keeps.generation, keeps.obtained]
      exact prepared.reconciled known
    · obtain ⟨idle, room⟩ := settled rfl
      have grows : s.conn.becomeReady.generation = s.conn.generation + 1 := by
        change min (s.conn.generation + 1) (2 ^ 64 - 1) = _
        omega
      refine ⟨?_, ?_, prepared.declared⟩
      · -- what was reconciled is of an earlier generation now
        intro generation plan known
        have before := (prepared.reconciled known).1
        refine ⟨before.trans (by dsimp only; omega), fun same => ?_⟩
        dsimp only at same
        omega
      · intro task listed
        have idle := idle task listed
        refine equipped_of_free ?_ ?_ <;> cases stage : task.stage <;> simp_all [Stage.inProgress, Stage.prepares, Stage.topology]
  | request worker =>
    have known {profile : String} {found : WorkerProfile} :
        s.worker v profile = some found → (s.request v worker).worker v profile = some found := worker_request worker
    exact ⟨prepared.reconciled, fun listed => (prepared.tasks listed).keep rfl known fun _ => id,
      prepared.declared.keep rfl known fun _ => id⟩
  | begins _ _ stage =>
    refine ⟨prepared.reconciled, fun listed => ?_, prepared.declared⟩
    rcases List.mem_append.mp listed with old | fresh
    · exact (prepared.tasks old).keep rfl id fun _ => id
    · obtain rfl := List.mem_singleton.mp fresh
      rcases stage with standing | standing <;> exact equipped_of_free (by rw [standing]; rfl) (by rw [standing]; rfl)
  | shutdown | closes =>
    exact ⟨prepared.reconciled, fun listed => (prepared.tasks listed).keep rfl id fun _ => id, prepared.declared⟩
  | task _ found advances => exact prepared.advance declare labelled found advances

theorem reaches_prepared (declare : v.config.topologyMode = .declare)
    (reached : Reaches (machine v broker) Settled s) : Prepared v s := by
  have preserved : Preserves (machine v broker) Settled Labelled (Prepared v) :=
    fun labelled prepared settled stepped => prepared.steps declare labelled settled (step_steps stepped)
  refine Reaches.invariant_of (fun _ => reaches_labelled) ?_ preserved reached
  rintro s rfl
  exact ⟨nofun, nofun, nofun⟩

/-- Until shutdown takes the map, a profile never has two open sets of one generation. If no
connection is established while a task is in progress, consumers are registered after their topology
in declare mode, and calls spare the sets of later generations. -/
theorem consumer_sets_sound (v : ValidatedConfig) (broker : String) :
    (∀ s, Reachable (machine v broker) s → s.emptied = false → Unrepeated s) ∧
    (∀ s, Reaches (machine v broker) Settled s →
      (v.config.topologyMode = .declare → Declared v s) ∧ Spared s) := by
  refine ⟨fun s reached untouched => (reachable_exclusive reached).unrepeated untouched, fun s reached => ⟨?_, ?_⟩⟩
  · intro declare
    exact (reaches_prepared declare reached).declared
  · exact (reaches_labelled reached).spared

def ordersConfig : Config where
  brokers := [mainBroker]
  workers := [{ name := "orders", subscriptions := [ordersSubscription], scheduler := .weightedFair }]
  topologyMode := .declare

def orders : ValidatedConfig := ⟨ordersConfig, ordersConfig, by rfl⟩

def Event.connects : Event → Bool
  | .conn (.attempted (.completed (.ok ()))) => true
  | _ => false

def settledly (s : State) (event : Event) : Bool :=
  !event.connects || s.tasks.all (fun task => !task.stage.inProgress) && s.conn.generation + 1 < 2 ^ 64

theorem settled_of_settledly (s : State) (event : Event) (checked : settledly s event = true) : Settled s event := by
  rintro rfl
  simpa [settledly, Event.connects] using checked

def connect : List Event :=
  [.conn (.send .start), .conn .receive, .conn (.attempted (.completed (.ok ()))),
    .request { name := "orders", subscriptions := [ordersSubscription], scheduler := .weightedFair }]

def reset : TransportError := { kind := .connection, message := "connection reset" }

def reconnect : List Event :=
  [.conn (.transport (.error reset)), .conn (.closed false), .conn .slept,
    .conn (.attempted (.completed (.ok ())))]

def declareTopology (task : Nat) : List Event :=
  [.recover, .opened task true, .reconcile task, .applied task true]

def establish (task : Nat) : List Event :=
  [.lock task, .opened task true, .proceed task, .reconcile task, .consumed task true, .insert task, .insert task]

/-- After a reconnect a call closes the set of the first generation and establishes that of the second. -/
theorem secondEstablishment_sound : ∃ s, Reaches (machine orders "main") Settled s ∧
    s.sets.map (fun set => (set.generation, set.closed)) = [(1, true), (2, false)] ∧ (2, 1) ∈ s.closings ∧
    s.consumed.map (·.connection) = [1, 0] ∧ Unrepeated s ∧ Declared orders s ∧ Spared s := by
  have ran : (run (machine orders "main") settledly {}
      (connect ++ declareTopology 0 ++ [.adopted 0 true] ++ establish 0 ++ reconnect ++ [.call "orders", .check 1] ++
        declareTopology 2 ++ establish 1 ++ [.fetch 1])).any
        (fun s => decide (s.sets.map (fun set => (set.generation, set.closed)) = [(1, true), (2, false)] ∧
          (2, 1) ∈ s.closings ∧ s.consumed.map (·.connection) = [1, 0] ∧ s.emptied = false)) = true := by
    decide +kernel
  have fresh : (machine orders "main").Initial {} := rfl
  obtain ⟨s, reached, seen⟩ := exists_of_run settled_of_settledly fresh ran
  obtain ⟨sets, closings, consumed, untouched⟩ := of_decide_eq_true seen
  obtain ⟨unrepeated, sound⟩ := consumer_sets_sound orders "main"
  exact ⟨s, reached, sets, closings, consumed, unrepeated s reached.reachable untouched, (sound s reached).1 rfl,
    (sound s reached).2⟩

/-- A call that read the first generation consumes on the second connection, where nothing was
declared; and one drops its clone of the set established for the second generation. -/
theorem earlier_calls_outlive_connection : (∃ s, Reachable (machine orders "main") s ∧ ¬Declared orders s) ∧
      ∃ s, Reachable (machine orders "main") s ∧ ¬Spared s := by
  constructor
  · obtain ⟨s, reached, consumed, applied⟩ := exists_reachable (machine orders "main") rfl
      (connect ++ [.call "orders", .check 0] ++ declareTopology 1 ++ reconnect ++ establish 0)
      (fun s => s.consumed.map (·.connection) = [1] ∧ s.applied.map Prod.fst = [0]) (by decide +kernel)
    refine ⟨s, reached, fun declared => ?_⟩
    obtain ⟨consumption, listed, second⟩ := List.mem_map.mp (consumed ▸ List.mem_singleton_self 1)
    obtain ⟨plan, _, entry, _⟩ := declared consumption listed
    have first := List.mem_map_of_mem (f := Prod.fst) entry
    rw [applied, List.mem_singleton, second] at first
    cases first
  · obtain ⟨s, reached, seen⟩ := exists_reachable (machine orders "main") rfl
      (connect ++ [.call "orders"] ++ reconnect ++ declareTopology 1 ++ [.adopted 1 true] ++ establish 1 ++
        [.check 0])
      (fun s => (1, 2) ∈ s.closings) (by decide +kernel)
    exact ⟨s, reached, fun spared => absurd (spared (1, 2) seen) (by decide)⟩

end RabbitRs.Establishment
