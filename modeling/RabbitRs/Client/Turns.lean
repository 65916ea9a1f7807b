import RabbitRs.Client.Pool

/-!
What a step of the client pool can be: a move of an acquisition with its effect, an acquisition that
gives up, a step of a call of `close`, or something a coordinator does by itself.
-/

namespace RabbitRs.Client

open StepMachine

variable {plan : Plan} {s t : State} {e : Event}

namespace Stage

def committing : Stage → Option Nat
  | .commitCoordinator _ _ id => some id
  | _ => none

def refused : Stage → Option Nat
  | .refusedCoordinator _ _ id => some id
  | _ => none

def creating : Stage → Option Nat
  | .created _ set => some set
  | _ => none

/-- The broker whose initialization lock the task holds. -/
def initializes : Stage → Option String
  | .check _ broker true | .commitCoordinator _ broker _ | .refusedCoordinator _ broker _ => some broker
  | _ => none

/-- The task neither holds an initialization lock nor carries a resource to commit. -/
def plain : Stage → Bool
  | .check _ _ again => !again
  | .commitCoordinator _ _ _ | .refusedCoordinator _ _ _ | .created _ _ => false
  | _ => true

theorem holds_iff {stage : Stage} {broker : String} :
    .coordinator broker ∈ stage.holds ↔ stage.initializes = some broker := by
  have none : ∀ errand : Errand, Slot.coordinator broker ∉ errand.holds := by
    intro errand
    cases errand <;> simp [Errand.holds]
  cases stage
  case check errand other again =>
    cases again <;> simp [holds, initializes, none, eq_comm]
  case publisherCheck other again | consumerCheck profile again | judge profile composite again =>
    cases again <;> simp [holds, initializes]
  all_goals simp [holds, initializes, none, eq_comm]

end Stage

/-- The effect leaves coordinators, tasks and closers alone. -/
def Effect.mild : Effect → Bool
  | .quiet | .registerPublisher _ _ | .closePublisher _ | .registerConsumer _ _ | .closeConsumer _
  | .evict _ | .drop _ | .compose _ => true
  | _ => false

def Effect.commits : Effect → Bool
  | .register _ _ | .registerPublisher _ _ | .registerConsumer _ _ => true
  | _ => false

def Effect.registers : Effect → Bool
  | .register _ _ => true
  | _ => false

theorem Effect.registers_of_mild {effect : Effect} (mild : effect.mild = true) : effect.registers = false := by
  cases effect
  case register => cases mild
  all_goals rfl

/-- What one step of an acquisition can do: between plain stages, and each step that is not plain. -/
inductive Moves (plan : Plan) (s : State) : Stage → Stage → Effect → Prop where
  | plain {a b : Stage} {effect : Effect} : a.plain = true → b.plain = true → effect.mild = true →
      (effect.commits = true → s.lifecycle = .opened) → Moves plan s a b effect
  | unlock {errand : Errand} {broker : String} {b : Stage} {effect : Effect} : b.plain = true →
      effect.mild = true → effect.commits = false → Moves plan s (.check errand broker true) b effect
  | lock {errand : Errand} {broker : String} : s.free (.coordinator broker) = true →
      Moves plan s (.lock errand broker) (.check errand broker true) .quiet
  | spawn {errand : Errand} {broker : String} : s.registered.lookup broker = none →
      Moves plan s (.check errand broker true) (.commitCoordinator errand broker s.coordinators.length)
        (.spawn broker)
  | register {errand : Errand} {broker : String} {id : Nat} : s.lifecycle = .opened →
      Moves plan s (.commitCoordinator errand broker id) (gotCoordinator plan errand id) (.register broker id)
  | dismiss {errand : Errand} {broker : String} {id : Nat} : s.lifecycle ≠ .opened →
      Moves plan s (.commitCoordinator errand broker id) (.refusedCoordinator errand broker id) (.dismiss id)
  | ended {errand : Errand} {broker : String} {id : Nat} {coordinator : Coordinator} :
      s.coordinators[id]? = some coordinator → coordinator.phase = .closed →
      Moves plan s (.refusedCoordinator errand broker id) .done (.drop errand.sources)
  | create {quest : Quest} {generation : Nat} :
      Moves plan s (.establish quest generation) (.created quest s.sets.length)
        (.createSet quest.coordinator generation)
  | insert {quest : Quest} {set : Nat} {coordinator : Coordinator} :
      s.coordinators[quest.coordinator]? = some coordinator →
      Moves plan s (.created quest set) (.fetch quest) (.insertSet quest.coordinator quest.profile set)

theorem startCompose_plain (profile : String) : (startCompose plan profile).plain = true := by
  unfold startCompose
  split <;> rfl

theorem startPrepare_plain (profile : String) (brokers : List String) :
    (startPrepare plan profile brokers).plain = true := by
  cases brokers with
  | nil => exact startCompose_plain profile
  | cons => rfl

theorem gotCoordinator_plain (errand : Errand) (id : Nat) : (gotCoordinator plan errand id).plain = true := by
  cases errand with
  | prepare profile rest => exact startPrepare_plain profile rest
  | admin | publisher | compose => rfl

theorem gotSet_plain (quest : Quest) (set : Nat) : (gotSet quest set).plain = true := by
  unfold gotSet
  split <;> rfl

theorem Moves.mild {a b : Stage} {effect : Effect} (left : a.plain = true) (right : b.plain = true)
    (mild : effect.mild = true) (commits : effect.commits = false) : Moves plan s a b effect :=
  .plain left right mild fun commit => by
    rw [commits] at commit
    cases commit

theorem Stage.next_moves {a b : Stage} {effect : Effect} (next : a.next plan s = some (b, effect)) :
    Moves plan s a b effect := by
  cases a
  case publisherCheck broker again =>
    simp only [Stage.next] at next
    split at next
    · cases next
      exact .mild rfl rfl rfl rfl
    · split at next
      · cases next
        exact .mild rfl rfl rfl rfl
      · cases next
        cases again <;> exact .mild rfl rfl rfl rfl
  case publisherLock broker | consumerLock profile =>
    simp only [Stage.next, Option.ite_none_right_eq_some] at next
    cases next.2
    exact .mild rfl rfl rfl rfl
  case acquire broker id =>
    simp only [Stage.next] at next
    split at next
    · cases next
      exact .mild rfl rfl rfl rfl
    · obtain ⟨publisher, -, same⟩ := Option.map_eq_some_iff.mp next
      cases same
      exact .mild rfl rfl rfl rfl
  case commitPublisher broker publisher | commitConsumer profile composite =>
    simp only [Stage.next] at next
    split at next
    · case isTrue opened =>
      cases next
      exact .plain rfl rfl rfl fun _ => opened
    · cases next
      exact .mild rfl rfl rfl rfl
  case refusedPublisher broker publisher | compose profile sources | refusedConsumer profile composite | admin id =>
    cases next
    exact .mild rfl rfl rfl rfl
  case consumerCheck profile again =>
    simp only [Stage.next] at next
    split at next
    · cases next
      exact .mild rfl rfl rfl rfl
    · split at next
      · cases next
        exact .mild rfl rfl rfl rfl
      · split at next
        · cases next
          exact .mild rfl rfl rfl rfl
        · cases next
          cases again with
          | false => exact .mild rfl rfl rfl rfl
          | true => exact .mild rfl (startPrepare_plain _ _) rfl rfl
  case judge profile composite again =>
    simp only [Stage.next] at next
    split at next
    · split at next
      · cases next
        exact .mild rfl rfl rfl rfl
      · cases next
        cases again with
        | false => exact .mild rfl rfl rfl rfl
        | true => exact .mild rfl (startPrepare_plain _ _) rfl rfl
    · cases next
  case wait quest =>
    simp only [Stage.next] at next
    split at next
    · cases next
      exact .mild rfl rfl rfl rfl
    · cases next
      exact .mild rfl rfl rfl rfl
  case ask quest =>
    obtain ⟨coordinator, -, same⟩ := Option.map_eq_some_iff.mp next
    split at same
    · cases same
      exact .mild rfl rfl rfl rfl
    · cases same
      exact .mild rfl rfl rfl rfl
    · split at same
      · cases same
        exact .mild rfl (gotSet_plain _ _) rfl rfl
      · cases same
        exact .mild rfl rfl rfl rfl
  case establish quest generation =>
    obtain ⟨coordinator, -, next⟩ := Option.bind_eq_some_iff.mp next
    split at next
    · cases next
    · split at next
      · cases next
        exact .mild rfl rfl rfl rfl
      · cases next
        exact .create
  case created quest set =>
    obtain ⟨coordinator, found, same⟩ := Option.map_eq_some_iff.mp next
    cases same
    exact .insert found
  case fetch quest =>
    obtain ⟨coordinator, -, same⟩ := Option.map_eq_some_iff.mp next
    split at same
    · cases same
      exact .mild rfl (gotSet_plain _ _) rfl rfl
    · cases same
      exact .mild rfl rfl rfl rfl
  case check errand broker again =>
    have found : ∀ {b : Stage} {effect : Effect}, b.plain = true → effect.mild = true → effect.commits = false →
        Moves plan s (.check errand broker again) b effect := by
      intro b effect plain mild commits
      cases again with
      | false => exact .mild rfl plain mild commits
      | true => exact .unlock plain mild commits
    simp only [Stage.next] at next
    split at next
    · cases next
      exact found rfl rfl rfl
    · split at next
      · cases next
        exact found (gotCoordinator_plain _ _) rfl rfl
      · case h_2 vacant =>
        cases again with
        | false =>
          cases next
          exact .mild rfl rfl rfl rfl
        | true =>
          cases next
          exact .spawn vacant
  case lock errand broker =>
    simp only [Stage.next, Option.ite_none_right_eq_some] at next
    cases next.2
    exact .lock next.1
  case commitCoordinator errand broker id =>
    simp only [Stage.next] at next
    split at next
    · case isTrue opened =>
      cases next
      exact .register opened
    · case isFalse closing =>
      cases next
      exact .dismiss closing
  case refusedCoordinator errand broker id =>
    obtain ⟨coordinator, found, next⟩ := Option.bind_eq_some_iff.mp next
    obtain ⟨closed, same⟩ := Option.ite_none_right_eq_some.mp next
    cases same
    exact .ended found closed
  case done => cases next

/-- Where an acquisition can be abandoned, and what that leaves behind. -/
inductive GivesUp : Stage → Effect → Prop where
  | plain {a : Stage} {effect : Effect} : a.plain = true → effect.mild = true → effect.commits = false →
      GivesUp a effect
  | unregistered {quest : Quest} {set : Nat} :
      GivesUp (.created quest set) (.dropSet quest.coordinator (quest.sources ++ [set]))
  | unclosed {errand : Errand} {broker : String} {id : Nat} : errand.timed = true →
      GivesUp (.refusedCoordinator errand broker id) (.leave id errand.sources)

theorem Stage.abandoned_givesUp {a : Stage} {effect : Effect} (gives : a.abandoned = some effect) :
    GivesUp a effect := by
  cases a
  case created quest set =>
    cases gives
    exact .unregistered
  case refusedCoordinator errand broker id =>
    obtain ⟨timed, same⟩ := Option.ite_none_right_eq_some.mp gives
    cases same
    exact .unclosed timed
  case lock errand broker =>
    obtain ⟨-, same⟩ := Option.ite_none_right_eq_some.mp gives
    cases same
    exact .plain rfl rfl rfl
  all_goals
    cases gives
    try exact .plain rfl rfl rfl

structure Mild (s t : State) : Prop where
  lifecycle : t.lifecycle = s.lifecycle
  registered : t.registered = s.registered
  coordinators : t.coordinators = s.coordinators
  tasks : t.tasks = s.tasks
  closers : t.closers = s.closers
  abandoned : t.abandoned = s.abandoned
  sets : t.sets = s.sets
  spawned : t.spawnedPublishers = s.spawnedPublishers
  closedSets : s.closedSets ⊆ t.closedSets
  closedPublishers : s.closedPublishers ⊆ t.closedPublishers

theorem Mild.refl (s : State) : Mild s s :=
  ⟨rfl, rfl, rfl, rfl, rfl, rfl, rfl, rfl, List.Subset.refl _, List.Subset.refl _⟩

theorem mild_closeSets (sets : List Nat) : Mild s (s.closeSets sets) :=
  { Mild.refl s with closedSets := List.subset_append_left _ _ }

theorem mild_collect : Mild s s.collect := mild_closeSets _

theorem mild_closeComposite (id : Nat) : Mild s (s.closeComposite id) := by
  unfold State.closeComposite
  split
  · exact .refl s
  · exact { Mild.refl s with closedSets := List.subset_append_left _ _ }

theorem mild_apply {effect : Effect} (mild : effect.mild = true) : Mild s (s.apply effect) := by
  cases effect
  case closeConsumer id => exact mild_closeComposite id
  case drop sets => exact mild_closeSets sets
  case closePublisher publisher => exact { Mild.refl s with closedPublishers := List.subset_append_left _ _ }
  case quiet | registerPublisher | registerConsumer | evict | compose => exact { Mild.refl s with }
  all_goals cases mild

/-- Registrations only disappear. -/
structure Shrinks (s t : State) : Prop where
  registered : ∀ {broker : String} {id : Nat}, t.registered.lookup broker = some id →
    s.registered.lookup broker = some id
  publishers : ∀ {broker : String} {publisher : Nat}, t.publishers.lookup broker = some publisher →
    s.publishers.lookup broker = some publisher
  consumers : ∀ {profile : String} {composite : Nat}, t.consumers.lookup profile = some composite →
    s.consumers.lookup profile = some composite

theorem Shrinks.refl (s : State) : Shrinks s s := ⟨id, id, id⟩

theorem closeComposite_shrinks (id : Nat) : Shrinks s (s.closeComposite id) := by
  unfold State.closeComposite
  split <;> exact { Shrinks.refl s with }

theorem insertSet_shrinks (id : Nat) (profile : String) (set : Nat) : Shrinks s (s.insertSet id profile set) := by
  unfold State.insertSet
  split <;> exact { Shrinks.refl s with }

theorem apply_shrinks {effect : Effect} (commits : effect.commits = false) : Shrinks s (s.apply effect) := by
  cases effect
  case insertSet id profile set => exact insertSet_shrinks id profile set
  case closeConsumer id => exact closeComposite_shrinks id
  case evict profile => exact { Shrinks.refl s with consumers := Keyed.lookup_of_erase }
  case register | registerPublisher | registerConsumer => cases commits
  all_goals exact { Shrinks.refl s with }

structure Framed (s t : State) : Prop where
  tasks : t.tasks = s.tasks
  closers : t.closers = s.closers
  lifecycle : t.lifecycle = s.lifecycle

theorem Framed.begun (framed : Framed s t) (begun : s.lifecycle ≠ .opened) : t.lifecycle ≠ .opened :=
  framed.lifecycle ▸ begun

theorem Framed.task {i : Nat} {stage : Stage} (framed : Framed s t) (found : s.tasks[i]? = some stage) :
    t.tasks[i]? = some stage :=
  framed.tasks ▸ found

theorem insertSet_eq {id set : Nat} {profile : String} {coordinator : Coordinator}
    (found : s.coordinators[id]? = some coordinator) :
    s.insertSet id profile set = (s.change id fun coordinator => { coordinator with
      consumers := coordinator.consumers.insert profile set
      establishing := false }).closeSets (coordinator.consumers.lookup profile).toList := by
  rw [State.insertSet, found]

theorem insertSet_framed (id : Nat) (profile : String) (set : Nat) : Framed s (s.insertSet id profile set) := by
  unfold State.insertSet
  split <;> exact ⟨rfl, rfl, rfl⟩

theorem insertSet_registered (id : Nat) (profile : String) (set : Nat) :
    (s.insertSet id profile set).registered = s.registered := by
  unfold State.insertSet
  split <;> rfl

theorem apply_framed (effect : Effect) : Framed s (s.apply effect) := by
  cases effect
  case insertSet id profile set => exact insertSet_framed id profile set
  case closeConsumer id =>
    have mild := @mild_closeComposite s id
    exact ⟨mild.tasks, mild.closers, mild.lifecycle⟩
  all_goals exact ⟨rfl, rfl, rfl⟩

theorem apply_registered {effect : Effect} (other : effect.registers = false) :
    (s.apply effect).registered = s.registered := by
  cases effect
  case insertSet id profile set => exact insertSet_registered id profile set
  case closeConsumer id => exact (mild_closeComposite id).registered
  case register broker id => cases other
  all_goals rfl

namespace Closing

def pending : Closing → List Nat
  | .coordinators rest | .awaiting _ rest => rest
  | _ => []

def awaits : Closing → Option Nat
  | .awaiting id _ => some id
  | _ => none

def active : Closing → Bool
  | .begin | .done => false
  | _ => true

def swept : Closing → Bool
  | .coordinators _ | .awaiting _ _ | .takePublishers | .publishers _ | .finish => true
  | _ => false

end Closing

/-- A step of `close` that passes no coordinator on. -/
structure Closing.Glides (before after : Closing) : Prop where
  pending : after.pending = before.pending
  awaits : before.awaits = none ∧ after.awaits = none
  active : before.active = true → after.active = true
  begun : after.active = true → before.active = true
  swept : after.swept = true → before.swept = true

/-- Everything a step of the pool can do; the invariants below are proved of these cases. -/
inductive Turns (plan : Plan) (s : State) : State → Prop where
  | start {stage : Stage} : stage.plain = true → Turns plan s (s.start stage)
  | call : Turns plan s { s with closers := s.closers ++ [.begin] }
  | move {i : Nat} {a b : Stage} {effect : Effect} : s.tasks[i]? = some a → Moves plan s a b effect →
      Turns plan s ((s.apply effect).move i b)
  | giveUp {i : Nat} {a : Stage} {effect : Effect} : s.tasks[i]? = some a → GivesUp a effect →
      Turns plan s ((s.apply effect).move i .done)
  | begin {k : Nat} : s.closers[k]? = some .begin → s.lifecycle = .opened →
      Turns plan s { s with lifecycle := .closing, closers := s.closers.set k .takeConsumers }
  | glide {k : Nat} {before after : Closing} {u : State} : s.closers[k]? = some before →
      before.Glides after → Mild s u → Shrinks s u → Turns plan s { u with closers := s.closers.set k after }
  | take {k : Nat} : s.closers[k]? = some .takeCoordinators → Turns plan s { s with
        registered := ∅, closers := s.closers.set k (.coordinators (Keyed.values s.registered)) }
  | skip {k id : Nat} {rest : List Nat} {coordinator : Coordinator} :
      s.closers[k]? = some (.coordinators (id :: rest)) → s.coordinators[id]? = some coordinator →
      coordinator.phase ≠ .running → Turns plan s { s with closers := s.closers.set k (.coordinators rest) }
  | tell {k id : Nat} {rest : List Nat} {coordinator : Coordinator} :
      s.closers[k]? = some (.coordinators (id :: rest)) → s.coordinators[id]? = some coordinator →
      Turns plan s { s.apply (.dismiss id) with closers := s.closers.set k (.awaiting id rest) }
  | ended {k id : Nat} {rest : List Nat} {coordinator : Coordinator} :
      s.closers[k]? = some (.awaiting id rest) → s.coordinators[id]? = some coordinator →
      coordinator.phase = .closed → Turns plan s { s with closers := s.closers.set k (.coordinators rest) }
  | finish {k : Nat} : s.closers[k]? = some .finish →
      Turns plan s { s with lifecycle := .closed, closers := s.closers.set k .done }
  | transition {id : Nat} {ready : Option Nat} :
      Turns plan s (s.change id fun coordinator => { coordinator with ready })
  | install {id : Nat} {coordinator : Coordinator} : s.coordinators[id]? = some coordinator →
      coordinator.phase.recovers = true → coordinator.publisher = none →
      Turns plan s { s.change id fun coordinator => { coordinator with publisher := some s.spawnedPublishers } with
        spawnedPublishers := s.spawnedPublishers + 1 }
  | restore {id generation : Nat} {profile : String} {coordinator : Coordinator} :
      s.coordinators[id]? = some coordinator →
      Turns plan s ({ s with sets := s.sets ++ [generation] }.insertSet id profile s.sets.length)
  | stop {id : Nat} {coordinator : Coordinator} : s.coordinators[id]? = some coordinator →
      coordinator.phase = .closing →
      Turns plan s { s.change id fun coordinator => { coordinator with publisher := none, phase := .stopping } with
        closedPublishers := s.closedPublishers ++ coordinator.publisher.toList }
  | drain {id : Nat} {coordinator : Coordinator} : s.coordinators[id]? = some coordinator →
      coordinator.phase = .stopping →
      Turns plan s (s.change id fun coordinator => { coordinator with
        consumers := ∅
        phase := .draining (Keyed.values coordinator.consumers) })
  | closeSet {id set : Nat} {rest : List Nat} {coordinator : Coordinator} :
      s.coordinators[id]? = some coordinator → coordinator.phase = .draining (set :: rest) →
      Turns plan s ((s.change id fun coordinator => { coordinator with phase := .draining rest }).closeSets [set])
  | quit {id : Nat} {coordinator : Coordinator} : s.coordinators[id]? = some coordinator →
      coordinator.phase = .draining [] →
      Turns plan s (s.change id fun coordinator => { coordinator with ready := none, phase := .closed })
  | mild {u : State} : Mild s u → Shrinks s u → Turns plan s u

theorem closing_turns {k : Nat} {closing after : Closing} {u : State} (found : s.closers[k]? = some closing)
    (next : s.closeNext closing = some (u, after)) :
    Turns plan s { u with closers := u.closers.set k after } := by
  cases closing
  case begin =>
    simp only [State.closeNext] at next
    split at next
    · case isTrue opened =>
      cases next
      exact .begin found opened
    · cases next
      exact .glide found ⟨rfl, ⟨rfl, rfl⟩, nofun, nofun, nofun⟩ (.refl _) (.refl _)
  case takeConsumers =>
    cases next
    exact .glide found ⟨rfl, ⟨rfl, rfl⟩, fun _ => rfl, fun _ => rfl, nofun⟩ { Mild.refl s with }
      { Shrinks.refl s with consumers := nofun }
  case consumers rest =>
    cases rest with
    | nil =>
      cases next
      exact .glide found ⟨rfl, ⟨rfl, rfl⟩, fun _ => rfl, fun _ => rfl, nofun⟩ (.refl _) (.refl _)
    | cons composite rest =>
      cases next
      have mild := @mild_closeComposite s composite
      rw [mild.closers]
      exact .glide found ⟨rfl, ⟨rfl, rfl⟩, fun _ => rfl, fun _ => rfl, nofun⟩ mild
        (closeComposite_shrinks composite)
  case takeCoordinators =>
    cases next
    exact .take found
  case coordinators rest =>
    cases rest with
    | nil =>
      cases next
      exact .glide found ⟨rfl, ⟨rfl, rfl⟩, fun _ => rfl, fun _ => rfl, fun _ => rfl⟩ (.refl _) (.refl _)
    | cons id rest =>
      obtain ⟨coordinator, known, same⟩ := Option.map_eq_some_iff.mp next
      split at same
      · cases same
        exact .tell found known
      · case isFalse told =>
        cases same
        exact .skip found known told
  case awaiting id rest =>
    obtain ⟨coordinator, known, same⟩ := Option.bind_eq_some_iff.mp next
    obtain ⟨closed, same⟩ := Option.ite_none_right_eq_some.mp same
    cases same
    exact .ended found known closed
  case takePublishers =>
    cases next
    exact .glide found ⟨rfl, ⟨rfl, rfl⟩, fun _ => rfl, fun _ => rfl, fun _ => rfl⟩ { Mild.refl s with }
      { Shrinks.refl s with publishers := nofun }
  case publishers rest =>
    cases rest with
    | nil =>
      cases next
      exact .glide found ⟨rfl, ⟨rfl, rfl⟩, fun _ => rfl, fun _ => rfl, fun _ => rfl⟩ (.refl _) (.refl _)
    | cons publisher rest =>
      cases next
      exact .glide found ⟨rfl, ⟨rfl, rfl⟩, fun _ => rfl, fun _ => rfl, fun _ => rfl⟩ (mild_apply rfl)
        (apply_shrinks rfl)
  case finish =>
    cases next
    exact .finish found
  case done => cases next

/-- Every step is one of these turns. -/
theorem stepRaw_turns (stepped : s.stepRaw plan e = some t) : Turns plan s t := by
  cases e
  case coordinator | publisher | consumer =>
    cases stepped
    exact .start rfl
  case close =>
    cases stepped
    exact .call
  case go i =>
    obtain ⟨stage, found, moved⟩ := Option.bind_eq_some_iff.mp stepped
    obtain ⟨⟨next, effect⟩, moves, rfl⟩ := Option.map_eq_some_iff.mp moved
    exact .move found (Stage.next_moves moves)
  case unestablished i =>
    obtain ⟨stage, found, moved⟩ := Option.bind_eq_some_iff.mp stepped
    split at moved
    · cases moved
      exact @Turns.move plan s i _ (.wait _) .quiet found (.mild rfl rfl rfl rfl)
    · cases moved
  case abandon i =>
    obtain ⟨stage, found, moved⟩ := Option.bind_eq_some_iff.mp stepped
    obtain ⟨effect, gives, rfl⟩ := Option.map_eq_some_iff.mp moved
    exact .giveUp found (Stage.abandoned_givesUp gives)
  case closing k =>
    obtain ⟨closing, found, moved⟩ := Option.bind_eq_some_iff.mp stepped
    obtain ⟨⟨u, after⟩, next, rfl⟩ := Option.map_eq_some_iff.mp moved
    exact closing_turns found next
  case transition id ready =>
    obtain ⟨coordinator, -, changed⟩ := Option.bind_eq_some_iff.mp stepped
    obtain ⟨-, same⟩ := Option.ite_none_left_eq_some.mp changed
    cases same
    exact .transition
  case install id =>
    obtain ⟨coordinator, found, changed⟩ := Option.bind_eq_some_iff.mp stepped
    obtain ⟨⟨recovers, none⟩, same⟩ := Option.ite_none_right_eq_some.mp changed
    cases same
    exact .install found recovers none
  case restore id profile =>
    obtain ⟨coordinator, found, changed⟩ := Option.bind_eq_some_iff.mp stepped
    obtain ⟨generation, -, changed⟩ := Option.bind_eq_some_iff.mp changed
    obtain ⟨-, same⟩ := Option.ite_none_right_eq_some.mp changed
    cases same
    exact .restore found
  case shut id =>
    obtain ⟨coordinator, found, shut⟩ := Option.bind_eq_some_iff.mp stepped
    unfold State.shutNext at shut
    split at shut
    · case h_1 told =>
      cases shut
      exact .stop found told
    · case h_2 stopped =>
      cases shut
      exact .drain found stopped
    · case h_3 set rest draining =>
      cases shut
      exact .closeSet found draining
    · case h_4 drained =>
      cases shut
      exact .quit found drained
    all_goals cases shut
  case closeConsumer composite =>
    cases stepped
    exact .mild (mild_closeComposite composite) (closeComposite_shrinks composite)

end RabbitRs.Client
