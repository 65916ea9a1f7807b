import RabbitRs.Client.Closing

/-!
What is left of consumer sets and publishers when `close` and all acquisitions have returned.
-/

namespace RabbitRs.Client

open StepMachine

variable {plan : Plan} {s t : State} {e : Event}

def Phase.drains : Phase → List Nat
  | .draining sets => sets
  | _ => []

def Coordinator.held (coordinator : Coordinator) : List Nat :=
  Keyed.values coordinator.consumers ++ coordinator.phase.drains

def Kept (s : State) (set : Nat) : Prop :=
  set ∈ s.closedSets ∨ (∃ stage ∈ s.tasks, stage.creating = some set) ∨
    ∃ coordinator ∈ s.coordinators, set ∈ coordinator.held

namespace Kept

variable {set : Nat} (kept : Kept s set)

include kept

theorem mild (mild : Mild s t) : Kept t set := by
  rcases kept with closed | creating | held
  · exact .inl (mild.closedSets closed)
  · exact .inr (.inl (mild.tasks ▸ creating))
  · exact .inr (.inr (mild.coordinators ▸ held))

theorem same (closed : t.closedSets = s.closedSets) (tasks : t.tasks = s.tasks)
    (coordinators : t.coordinators = s.coordinators) : Kept t set := by
  unfold Kept
  rw [closed, tasks, coordinators]
  exact kept

theorem move {i : Nat} {a : Stage} (b : Stage) (found : s.tasks[i]? = some a) :
    a.creating = some set ∨ Kept (s.move i b) set := by
  rcases kept with closed | creating | held
  · exact .inr (.inl closed)
  · rcases Tally.exists_set_or b found creating with mine | other
    · exact .inl mine
    · exact .inr (.inr (.inl other))
  · exact .inr (.inr (.inr held))

theorem moveIdle {i : Nat} {a b : Stage} (found : s.tasks[i]? = some a) (idle : a.creating = none) :
    Kept (s.move i b) set := by
  rcases kept.move b found with mine | kept
  · rw [idle] at mine
    cases mine
  · exact kept

theorem change (id : Nat) (f : Coordinator → Coordinator) :
    (∃ coordinator, s.coordinators[id]? = some coordinator ∧ set ∈ coordinator.held ∧ set ∉ (f coordinator).held) ∨
      Kept (s.change id f) set := by
  rcases kept with closed | creating | ⟨coordinator, member, held⟩
  · exact .inr (.inl closed)
  · exact .inr (.inr (.inl creating))
  · obtain ⟨j, found⟩ := List.mem_iff_getElem?.mp member
    by_cases here : j = id
    · subst here
      by_cases still : set ∈ (f coordinator).held
      · exact .inr (.inr (.inr ⟨_, List.mem_of_getElem? (Slots.modify_self found), still⟩))
      · exact .inl ⟨coordinator, found, held, still⟩
    · have there : (s.coordinators.modify id f)[j]? = some coordinator :=
        (List.getElem?_modify_ne f _ (Ne.symm here)).trans found
      exact .inr (.inr (.inr ⟨coordinator, List.mem_of_getElem? there, held⟩))

theorem keep {id : Nat} {f : Coordinator → Coordinator}
    (held : ∀ coordinator, s.coordinators[id]? = some coordinator → coordinator.held ⊆ (f coordinator).held) :
    Kept (s.change id f) set := by
  rcases kept.change id f with ⟨coordinator, found, mine, lost⟩ | kept
  · exact absurd (held coordinator found mine) lost
  · exact kept

theorem insertSet (id : Nat) (profile : String) (new : Nat) : Kept (s.insertSet id profile new) set := by
  cases known : s.coordinators[id]? with
  | none =>
    rw [State.insertSet, known]
    exact kept
  | some coordinator =>
    rw [insertSet_eq known]
    rcases kept.change id fun coordinator => { coordinator with
        consumers := coordinator.consumers.insert profile new
        establishing := false } with ⟨other, found, held, lost⟩ | kept
    · cases known.symm.trans found
      have displaced : coordinator.consumers.lookup profile = some set := by
        rcases List.mem_append.mp held with stored | draining
        · rcases @Keyed.mem_insert_or _ _ _ _ profile new _ stored with displaced | still
          · exact displaced
          · exact absurd (List.mem_append_left _ still) lost
        · exact absurd (List.mem_append_right _ draining) lost
      refine .inl (List.mem_append_right _ ?_)
      rw [displaced]
      exact List.mem_singleton_self set
    · exact kept.mild (mild_closeSets _)

end Kept

theorem insertSet_sets (id : Nat) (profile : String) (set : Nat) : (s.insertSet id profile set).sets = s.sets := by
  unfold State.insertSet
  split <;> rfl

theorem held_insertSet {id set : Nat} {profile : String} {coordinator : Coordinator}
    (found : s.coordinators[id]? = some coordinator) :
    ∃ coordinator ∈ (s.insertSet id profile set).coordinators, set ∈ coordinator.held := by
  rw [insertSet_eq found]
  refine ⟨_, List.mem_of_getElem? (Slots.modify_self found), ?_⟩
  exact List.mem_append_left _ (Keyed.mem_insert_self _ profile set)

theorem Stage.plain_creating {stage : Stage} (plain : stage.plain = true) : stage.creating = none := by
  cases stage
  case created => cases plain
  all_goals rfl

theorem Phase.told_drains (phase : Phase) : phase.told.drains = phase.drains := by
  cases phase <;> rfl

theorem Kept.dismiss {set : Nat} (kept : Kept s set) (id : Nat) : Kept (s.apply (.dismiss id)) set :=
  kept.keep fun coordinator _ => by
    unfold Coordinator.held
    rw [Phase.told_drains]
    exact List.Subset.refl _

theorem Kept.moves {i set : Nat} {a b : Stage} {effect : Effect} (kept : Kept s set)
    (found : s.tasks[i]? = some a) (moves : Moves plan s a b effect) : Kept ((s.apply effect).move i b) set := by
  have found := (apply_framed effect).task found
  cases moves with
  | plain before _ mild _ => exact (kept.mild (mild_apply mild)).moveIdle found (Stage.plain_creating before)
  | unlock _ mild _ => exact (kept.mild (mild_apply mild)).moveIdle found rfl
  | lock _ => exact kept.moveIdle found rfl
  | @spawn errand broker _ =>
    have spawned : Kept (s.apply (.spawn broker)) set := by
      rcases kept with closed | creating | ⟨coordinator, member, held⟩
      · exact .inl closed
      · exact .inr (.inl creating)
      · exact .inr (.inr ⟨coordinator, List.mem_append_left _ member, held⟩)
    exact spawned.moveIdle found rfl
  | @register errand broker id _ =>
    have entered : Kept (s.apply (.register broker id)) set := kept.same rfl rfl rfl
    exact entered.moveIdle found rfl
  | dismiss _ => exact (kept.dismiss _).moveIdle found rfl
  | ended _ _ => exact (kept.mild (mild_closeSets _)).moveIdle found rfl
  | @create quest generation =>
    have locked := @Kept.keep _ _ kept quest.coordinator
      (fun coordinator => { coordinator with establishing := true }) fun _ _ => List.Subset.refl _
    have created : Kept (s.apply (.createSet quest.coordinator generation)) set := locked.same rfl rfl rfl
    exact created.moveIdle found rfl
  | @insert quest new coordinator known =>
    rcases (kept.insertSet quest.coordinator quest.profile new).move (.fetch quest) found with mine | kept
    · cases mine
      exact .inr (.inr (held_insertSet known))
    · exact kept

theorem Kept.givesUp {i set : Nat} {a : Stage} {effect : Effect} (kept : Kept s set)
    (found : s.tasks[i]? = some a) (gives : GivesUp a effect) : Kept ((s.apply effect).move i .done) set := by
  have found := (apply_framed effect).task found
  cases gives with
  | plain before mild _ => exact (kept.mild (mild_apply mild)).moveIdle found (Stage.plain_creating before)
  | @unregistered quest new =>
    have unlocked := @Kept.keep _ _ kept quest.coordinator
      (fun coordinator => { coordinator with establishing := false }) fun _ _ => List.Subset.refl _
    rcases (unlocked.mild (mild_closeSets (quest.sources ++ [new]))).move .done found with mine | kept
    · cases mine
      exact .inl (List.mem_append_right _ (List.mem_append_right _ (List.mem_singleton_self _)))
    · exact kept
  | @unclosed errand broker id _ =>
    have left : Kept { s with abandoned := s.abandoned ++ [id] } set := kept.same rfl rfl rfl
    exact (left.mild (mild_closeSets errand.sources)).moveIdle found rfl

theorem Kept.turns {set : Nat} (kept : Kept s set) (turns : Turns plan s t) : Kept t set := by
  cases turns
  case start stage plain =>
    rcases kept with closed | ⟨stage, member, creating⟩ | held
    · exact .inl closed
    · exact .inr (.inl ⟨stage, List.mem_append_left _ member, creating⟩)
    · exact .inr (.inr held)
  case move i a b effect found moves => exact kept.moves found moves
  case giveUp i a effect found gives => exact kept.givesUp found gives
  case glide k before after u found glides mild shrinks => exact (kept.mild mild).same rfl rfl rfl
  case tell k id rest coordinator found known => exact (kept.dismiss id).same rfl rfl rfl
  case transition id ready => exact kept.keep fun _ _ => List.Subset.refl _
  case install id coordinator found recovers none =>
    have installed := @Kept.keep _ _ kept id
      (fun coordinator => { coordinator with publisher := some s.spawnedPublishers }) fun _ _ => List.Subset.refl _
    exact installed.same rfl rfl rfl
  case restore id generation profile coordinator found =>
    have created : Kept { s with sets := s.sets ++ [generation] } set := kept.same rfl rfl rfl
    exact created.insertSet id profile _
  case stop id coordinator found told =>
    have stopped := @Kept.keep _ _ kept id
      (fun coordinator => { coordinator with publisher := none, phase := .stopping }) ?_
    · exact stopped.same rfl rfl rfl
    · intro other known
      cases found.symm.trans known
      unfold Coordinator.held
      rw [told]
      exact List.Subset.refl _
  case drain id coordinator found stopped =>
    -- what was in the map is now in the list
    refine kept.keep fun other known => ?_
    cases found.symm.trans known
    unfold Coordinator.held
    rw [stopped]
    exact List.append_subset.mpr ⟨List.subset_append_right _ _, List.nil_subset _⟩
  case closeSet id head rest coordinator found draining =>
    rcases kept.change id fun coordinator => { coordinator with phase := .draining rest } with
      ⟨other, known, held, lost⟩ | kept
    · cases found.symm.trans known
      refine .inl (List.mem_append_right _ (List.mem_singleton.mpr ?_))
      unfold Coordinator.held at held lost
      rw [draining] at held
      rcases List.mem_append.mp held with stored | drains
      · exact absurd (List.mem_append_left _ stored) lost
      · rcases List.mem_cons.mp drains with same | later
        · exact same
        · exact absurd (List.mem_append_right _ later) lost
    · exact kept.mild (mild_closeSets _)
  case quit id coordinator found drained =>
    refine kept.keep fun other known => ?_
    cases found.symm.trans known
    unfold Coordinator.held
    rw [drained]
    exact List.Subset.refl _
  case mild mild _ => exact kept.mild mild
  all_goals exact kept.same rfl rfl rfl

theorem kept_new {set : Nat} (turns : Turns plan s t) (new : set < t.sets.length) (unknown : ¬ set < s.sets.length) :
    Kept t set := by
  have same : t.sets = s.sets → Kept t set := fun same => absurd (same ▸ new) unknown
  have last : ∀ {generation : Nat}, set < (s.sets ++ [generation]).length → set = s.sets.length := by
    intro generation inside
    rw [List.length_append, List.length_singleton] at inside
    omega
  cases turns
  case move i a b effect found moves =>
    cases moves with
    | plain _ _ mild _ | unlock _ mild _ => exact same (mild_apply mild).sets
    | lock _ | spawn _ | register _ | dismiss _ | ended _ _ => exact same rfl
    | @create quest generation =>
      rw [last new]
      exact .inr (.inl ⟨_, Tally.mem_set_self _ found, rfl⟩)
    | insert known => exact same (insertSet_sets _ _ _)
  case giveUp i a effect found gives =>
    cases gives with
    | plain _ mild _ => exact same (mild_apply mild).sets
    | unregistered | unclosed _ => exact same rfl
  case glide k before after u found glides mild shrinks => exact same mild.sets
  case restore id generation profile coordinator found =>
    rw [insertSet_sets] at new
    rw [last new]
    exact .inr (.inr (held_insertSet found))
  case mild mild _ => exact same mild.sets
  all_goals exact same rfl

structure Placed (s : State) : Prop where
  slot : ∀ publisher < s.spawnedPublishers, publisher ∈ s.closedPublishers ∨
    ∃ coordinator ∈ s.coordinators, coordinator.publisher = some publisher
  stopped : ∀ coordinator ∈ s.coordinators, coordinator.phase.recovers = false → coordinator.publisher = none

namespace Placed

variable (placed : Placed s)

include placed

theorem same (spawned : t.spawnedPublishers = s.spawnedPublishers) (closed : s.closedPublishers ⊆ t.closedPublishers)
    (coordinators : t.coordinators = s.coordinators) : Placed t := by
  refine ⟨fun publisher known => ?_, coordinators ▸ placed.stopped⟩
  rcases placed.slot publisher (spawned ▸ known) with gone | held
  · exact .inl (closed gone)
  · exact .inr (coordinators ▸ held)

theorem mild (mild : Mild s t) : Placed t := placed.same mild.spawned mild.closedPublishers mild.coordinators

theorem change {id : Nat} {f : Coordinator → Coordinator}
    (slot : ∀ coordinator, (f coordinator).publisher = coordinator.publisher)
    (recovers : ∀ coordinator, s.coordinators[id]? = some coordinator →
      (f coordinator).phase.recovers = coordinator.phase.recovers) : Placed (s.change id f) := by
  refine ⟨fun publisher known => ?_, fun coordinator member => ?_⟩
  · rcases placed.slot publisher known with gone | ⟨coordinator, member, held⟩
    · exact .inl gone
    obtain ⟨j, found⟩ := List.mem_iff_getElem?.mp member
    by_cases here : j = id
    · subst here
      exact .inr ⟨_, List.mem_of_getElem? (Slots.modify_self found), (slot coordinator).trans held⟩
    · have there : (s.coordinators.modify id f)[j]? = some coordinator :=
        (List.getElem?_modify_ne f _ (Ne.symm here)).trans found
      exact .inr ⟨coordinator, List.mem_of_getElem? there, held⟩
  · obtain ⟨j, found⟩ := List.mem_iff_getElem?.mp member
    rcases Slots.modify_cases found with ⟨rfl, old, before, rfl⟩ | ⟨-, before⟩
    · rw [slot, recovers old before]
      exact placed.stopped old (List.mem_of_getElem? before)
    · exact placed.stopped coordinator (List.mem_of_getElem? before)

theorem insertSet (id : Nat) (profile : String) (set : Nat) : Placed (s.insertSet id profile set) := by
  unfold State.insertSet
  split
  · exact placed
  · refine Placed.mild ?_ (mild_closeSets _)
    exact placed.change (fun _ => rfl) fun _ _ => rfl

theorem dismiss (id : Nat) : Placed (s.apply (.dismiss id)) :=
  placed.change (fun _ => rfl) fun coordinator _ => by cases coordinator.phase <;> rfl

theorem apply (effect : Effect) : Placed (s.apply effect) := by
  cases effect
  case spawn broker =>
    refine ⟨fun publisher known => ?_, fun coordinator member => ?_⟩
    · rcases placed.slot publisher known with gone | ⟨coordinator, member, held⟩
      · exact .inl gone
      · exact .inr ⟨coordinator, List.mem_append_left _ member, held⟩
    · rcases List.mem_append.mp member with old | new
      · exact placed.stopped coordinator old
      · rw [List.mem_singleton.mp new]
        exact fun _ => rfl
  case dismiss id => exact placed.dismiss id
  case createSet id generation =>
    have locked : Placed (s.change id fun coordinator => { coordinator with establishing := true }) :=
      placed.change (fun _ => rfl) fun _ _ => rfl
    exact locked.same rfl (List.Subset.refl _) rfl
  case insertSet id profile set => exact placed.insertSet id profile set
  case dropSet id sets =>
    refine Placed.mild ?_ (mild_closeSets sets)
    exact placed.change (fun _ => rfl) fun _ _ => rfl
  case register | leave => exact placed.same rfl (List.Subset.refl _) rfl
  all_goals exact placed.mild (mild_apply rfl)

theorem install {id : Nat} {coordinator : Coordinator} (found : s.coordinators[id]? = some coordinator)
    (recovers : coordinator.phase.recovers = true) (empty : coordinator.publisher = none) :
    Placed { s.change id fun coordinator => { coordinator with publisher := some s.spawnedPublishers } with
      spawnedPublishers := s.spawnedPublishers + 1 } := by
  refine ⟨fun publisher known => ?_, fun other member => ?_⟩
  · rcases Nat.lt_succ_iff_lt_or_eq.mp known with old | rfl
    · rcases placed.slot publisher old with gone | ⟨holder, member, held⟩
      · exact .inl gone
      obtain ⟨j, there⟩ := List.mem_iff_getElem?.mp member
      have apart : id ≠ j := by
        rintro rfl
        cases found.symm.trans there
        rw [empty] at held
        cases held
      refine .inr ⟨holder, List.mem_of_getElem? (i := j) ?_, held⟩
      exact (List.getElem?_modify_ne _ _ apart).trans there
    · exact .inr ⟨_, List.mem_of_getElem? (Slots.modify_self found), rfl⟩
  · obtain ⟨j, there⟩ := List.mem_iff_getElem?.mp member
    rcases Slots.modify_cases there with ⟨rfl, old, before, rfl⟩ | ⟨-, before⟩
    · cases found.symm.trans before
      intro stopped
      exact absurd stopped (by rw [recovers]; nofun)
    · exact placed.stopped other (List.mem_of_getElem? before)

theorem stop {id : Nat} {coordinator : Coordinator} (found : s.coordinators[id]? = some coordinator) :
    Placed { s.change id fun coordinator => { coordinator with publisher := none, phase := .stopping } with
      closedPublishers := s.closedPublishers ++ coordinator.publisher.toList } := by
  refine ⟨fun publisher known => ?_, fun other member => ?_⟩
  · rcases placed.slot publisher known with gone | ⟨holder, member, held⟩
    · exact .inl (List.mem_append_left _ gone)
    obtain ⟨j, there⟩ := List.mem_iff_getElem?.mp member
    by_cases here : id = j
    · subst here
      cases found.symm.trans there
      exact .inl (List.mem_append_right _ (Option.mem_toList.mpr held))
    · refine .inr ⟨holder, List.mem_of_getElem? (i := j) ?_, held⟩
      exact (List.getElem?_modify_ne _ _ here).trans there
  · obtain ⟨j, there⟩ := List.mem_iff_getElem?.mp member
    rcases Slots.modify_cases there with ⟨rfl, old, before, rfl⟩ | ⟨-, before⟩
    · exact fun _ => rfl
    · exact placed.stopped other (List.mem_of_getElem? before)

theorem turns (turns : Turns plan s t) : Placed t := by
  have subset := List.Subset.refl s.closedPublishers
  -- a coordinator that drains its sets keeps an empty slot
  have drains : ∀ {id : Nat} {coordinator : Coordinator} {f : Coordinator → Coordinator},
      s.coordinators[id]? = some coordinator → coordinator.phase.recovers = false →
      (∀ coordinator, (f coordinator).publisher = coordinator.publisher) →
      (∀ coordinator, (f coordinator).phase.recovers = false) → Placed (s.change id f) := by
    intro id coordinator f found stopped slot still
    refine placed.change slot fun other known => ?_
    cases found.symm.trans known
    rw [still, stopped]
  cases turns
  case move i a b effect found moves | giveUp i a effect found gives =>
    exact (placed.apply effect).same rfl (List.Subset.refl _) rfl
  case glide k before after u found glides mild shrinks =>
    exact (placed.mild mild).same rfl (List.Subset.refl _) rfl
  case tell k id rest coordinator found known => exact (placed.dismiss id).same rfl subset rfl
  case transition id ready => exact placed.change (fun _ => rfl) fun _ _ => rfl
  case install id coordinator found recovers none => exact placed.install found recovers none
  case restore id generation profile coordinator found =>
    have created : Placed { s with sets := s.sets ++ [generation] } := placed.same rfl subset rfl
    exact created.insertSet id profile _
  case stop id coordinator found told => exact placed.stop found
  case drain id coordinator found stopped =>
    exact drains found (by rw [stopped]; rfl) (fun _ => rfl) fun _ => rfl
  case closeSet id head rest coordinator found draining =>
    refine Placed.mild ?_ (mild_closeSets _)
    exact drains found (by rw [draining]; rfl) (fun _ => rfl) fun _ => rfl
  case quit id coordinator found drained =>
    exact drains found (by rw [drained]; rfl) (fun _ => rfl) fun _ => rfl
  case mild mild _ => exact placed.mild mild
  all_goals exact placed.same rfl subset rfl

end Placed

structure Tidy (s : State) : Prop where
  exclusive : Exclusive s
  swept : Swept s
  watched : Watched s
  kept : ∀ set < s.sets.length, Kept s set
  placed : Placed s
  -- the last handle of a coordinator that has ended takes its sets along
  orphaned : ∀ (id : Nat) (coordinator : Coordinator), s.coordinators[id]? = some coordinator →
    coordinator.phase = .closed → s.refers id = false → Keyed.values coordinator.consumers ⊆ s.closedSets

theorem collect_orphaned {id : Nat} {coordinator : Coordinator} (found : s.coordinators[id]? = some coordinator)
    (closed : coordinator.phase = .closed) (unreferred : s.refers id = false) :
    Keyed.values coordinator.consumers ⊆ s.collect.closedSets := by
  intro set member
  refine List.mem_append_right _ (List.mem_flatMap.mpr ⟨(coordinator, id), ?_, member⟩)
  refine List.mem_filter.mpr ⟨List.mem_zipIdx_iff_getElem?.mpr found, ?_⟩
  simp [closed, unreferred]

theorem Tidy.step (tidy : Tidy s) (stepped : step plan s e = some t) : Tidy t := by
  obtain ⟨u, raw, rfl⟩ := Option.map_eq_some_iff.mp stepped
  have turns := stepRaw_turns raw
  have collected := @mild_collect u
  have exclusive := tidy.exclusive.turns turns
  have swept := tidy.swept.turns turns
  refine ⟨exclusive.same collected.tasks fun _ none => collected.registered ▸ none,
    swept.same collected.lifecycle collected.closers collected.registered,
    (tidy.watched.turns tidy.exclusive turns).mild collected, fun set known => ?_,
    (tidy.placed.turns turns).mild collected, fun id coordinator => @collect_orphaned u id coordinator⟩
  refine Kept.mild ?_ collected
  by_cases old : set < s.sets.length
  · exact (tidy.kept set old).turns turns
  · exact kept_new turns known old

theorem tidy_initial : Tidy {} := by
  refine ⟨⟨?_, ?_⟩, ⟨nofun, nofun, ?_, ?_⟩, ⟨?_, ?_⟩, nofun, ⟨nofun, ?_⟩, ?_⟩ <;> simp

theorem tidy_of_reachable (reached : Reachable (machine plan) s) : Tidy s := by
  refine reached.invariant ?_ ?_
  · rintro _ rfl
    exact tidy_initial
  · intro s t e _ tidy _ stepped
    exact tidy.step stepped

def State.returned (s : State) : Bool := s.tasks.all (· == .done) && s.closers.all (· == .done)

theorem State.returned_iff : s.returned = true ↔
    (∀ stage ∈ s.tasks, stage = .done) ∧ ∀ closing ∈ s.closers, closing = .done := by
  simp [State.returned]

namespace Tidy

variable (tidy : Tidy s) (begun : s.lifecycle ≠ .opened) (returned : s.returned = true)

include tidy begun returned

theorem registered_empty : s.registered = ∅ := by
  obtain ⟨-, closers⟩ := State.returned_iff.mp returned
  cases lifecycle : s.lifecycle with
  | opened => exact absurd lifecycle begun
  | closing =>
    obtain ⟨closing, member, active⟩ := tidy.swept.closing lifecycle
    rw [closers closing member] at active
    cases active
  | closed => exact tidy.swept.closed lifecycle

theorem not_owned (id : Nat) : ¬ Owned s id := by
  obtain ⟨tasks, closers⟩ := State.returned_iff.mp returned
  rintro (registered | ⟨closing, member, pending⟩ | ⟨stage, member, committing⟩)
  · rw [tidy.registered_empty begun returned] at registered
    cases registered
  · rw [closers closing member] at pending
    cases pending
  · rw [tasks stage member] at committing
    cases committing

omit tidy begun in
theorem abandoned_of_shutting {id : Nat} (shutting : Shutting s id) : id ∈ s.abandoned := by
  obtain ⟨tasks, closers⟩ := State.returned_iff.mp returned
  rcases shutting with ⟨closing, member, awaits⟩ | ⟨stage, member, refused⟩ | abandoned
  · rw [closers closing member] at awaits
    cases awaits
  · rw [tasks stage member] at refused
    cases refused
  · exact abandoned

theorem not_refers (id : Nat) : s.refers id = false := by
  obtain ⟨tasks, closers⟩ := State.returned_iff.mp returned
  simp only [State.refers, tidy.registered_empty begun returned, Keyed.values_empty, List.contains_nil,
    Bool.false_or, Bool.or_eq_false_iff, List.any_eq_false]
  refine ⟨fun closing member => ?_, fun stage member => ?_⟩
  · rw [closers closing member]
    exact Bool.false_ne_true
  · rw [tasks stage member]
    exact Bool.false_ne_true

theorem coordinator {id : Nat} {coordinator : Coordinator} (found : s.coordinators[id]? = some coordinator) :
    coordinator.phase = .closed ∨ coordinator.phase ≠ .running ∧ id ∈ s.abandoned := by
  have told : coordinator.phase ≠ .running := fun running =>
    tidy.not_owned begun returned id (tidy.watched.owned found running)
  by_cases closed : coordinator.phase = .closed
  · exact .inl closed
  · exact .inr ⟨told, abandoned_of_shutting returned (tidy.watched.shutting found told closed)⟩

theorem set {set : Nat} (known : set < s.sets.length) : set ∈ s.closedSets ∨
    ∃ id ∈ s.abandoned, ∃ coordinator, s.coordinators[id]? = some coordinator ∧ coordinator.phase ≠ .closed ∧
      set ∈ coordinator.held := by
  rcases tidy.kept set known with closed | ⟨stage, member, creating⟩ | ⟨coordinator, member, held⟩
  · exact .inl closed
  · rw [(State.returned_iff.mp returned).1 stage member] at creating
    cases creating
  obtain ⟨id, found⟩ := List.mem_iff_getElem?.mp member
  by_cases closed : coordinator.phase = .closed
  · have stored : set ∈ Keyed.values coordinator.consumers := by
      simpa [Coordinator.held, closed, Phase.drains] using held
    exact .inl (tidy.orphaned id coordinator found closed (tidy.not_refers begun returned id) stored)
  · obtain ⟨-, abandoned⟩ := (tidy.coordinator begun returned found).resolve_left closed
    exact .inr ⟨id, abandoned, coordinator, found, closed, held⟩

theorem publisher {publisher : Nat} (known : publisher < s.spawnedPublishers) : publisher ∈ s.closedPublishers ∨
    ∃ id ∈ s.abandoned, ∃ coordinator, s.coordinators[id]? = some coordinator ∧ coordinator.phase = .closing ∧
      coordinator.publisher = some publisher := by
  rcases tidy.placed.slot publisher known with closed | ⟨coordinator, member, held⟩
  · exact .inl closed
  obtain ⟨id, found⟩ := List.mem_iff_getElem?.mp member
  have recovers : coordinator.phase.recovers ≠ false := by
    intro stopped
    rw [tidy.placed.stopped coordinator member stopped] at held
    cases held
  rcases tidy.coordinator begun returned found with closed | ⟨told, abandoned⟩
  · rw [closed] at recovers
    exact absurd rfl recovers
  · refine .inr ⟨id, abandoned, coordinator, found, ?_, held⟩
    cases phase : coordinator.phase with
    | closing => rfl
    | running => exact absurd phase told
    | stopping | draining | closed =>
      rw [phase] at recovers
      exact absurd rfl recovers

end Tidy

/-- Once `close` has begun nothing is committed, and when it and all acquisitions have returned every
coordinator, set and publisher is closed. The exception is a refused coordinator that a consumer
acquisition waited for only until its timeout: it has its close command, and what it holds goes with
it. -/
theorem close_leaves_nothing_open (reached : Reachable (machine plan) s) (begun : s.lifecycle ≠ .opened) :
    (∀ e t, step plan s e = some t → t.lifecycle ≠ .opened ∧ Shrinks s t) ∧ (s.returned = true →
        (∀ id coordinator, s.coordinators[id]? = some coordinator →
          coordinator.phase = .closed ∨ coordinator.phase ≠ .running ∧ id ∈ s.abandoned) ∧
        (∀ set < s.sets.length, set ∈ s.closedSets ∨
          ∃ id ∈ s.abandoned, ∃ coordinator, s.coordinators[id]? = some coordinator ∧
            coordinator.phase ≠ .closed ∧ set ∈ coordinator.held) ∧
        ∀ publisher < s.spawnedPublishers, publisher ∈ s.closedPublishers ∨
          ∃ id ∈ s.abandoned, ∃ coordinator, s.coordinators[id]? = some coordinator ∧
            coordinator.phase = .closing ∧ coordinator.publisher = some publisher) := by
  have tidy := tidy_of_reachable reached
  refine ⟨fun e t stepped => ?_, fun returned => ⟨fun id coordinator => ?_, fun set => ?_, fun publisher => ?_⟩⟩
  · obtain ⟨u, raw, rfl⟩ := Option.map_eq_some_iff.mp stepped
    obtain ⟨still, shrinks⟩ := (stepRaw_turns raw).shrinks begun
    exact ⟨still, { shrinks with }⟩
  · exact tidy.coordinator begun returned
  · exact tidy.set begun returned
  · exact tidy.publisher begun returned

def mailPlan : Plan where
  brokers := ["main"]
  profile := fun profile => if profile = "mail" then some ["main"] else none

def acquireMail : List Event :=
  .consumer "mail" :: List.replicate 8 (.go 0) ++ [.transition 0 (some 1), .install 0] ++ List.replicate 7 (.go 0)

def closeMail : List Event :=
  .close :: List.replicate 6 (.closing 0) ++ List.replicate 4 (.shut 0) ++ List.replicate 5 (.closing 0)

theorem acquired_mail_is_closed : ∃ s, Reachable (machine mailPlan) s ∧ s.lifecycle = .closed ∧
    s.coordinators.length = 1 ∧ s.sets.length = 1 ∧ s.spawnedPublishers = 1 ∧ 0 ∈ s.closedSets ∧
    0 ∈ s.closedPublishers ∧ ∀ coordinator ∈ s.coordinators, coordinator.phase = .closed := by
  obtain ⟨s, reached, closed, returned, none, coordinators, sets, publishers⟩ :=
    exists_reachable (machine mailPlan) rfl (acquireMail ++ closeMail)
      (fun s => s.lifecycle = .closed ∧ s.returned = true ∧ s.abandoned = [] ∧ s.coordinators.length = 1 ∧
        s.sets.length = 1 ∧ s.spawnedPublishers = 1) (by decide +kernel)
  have begun : s.lifecycle ≠ .opened := by rw [closed]; nofun
  obtain ⟨-, left⟩ := close_leaves_nothing_open reached begun
  obtain ⟨ended, drained, emptied⟩ := left returned
  rw [none] at ended drained emptied
  refine ⟨s, reached, closed, coordinators, sets, publishers, ?_, ?_, fun coordinator member => ?_⟩
  · exact (drained 0 (by omega)).resolve_right (by simp)
  · exact (emptied 0 (by omega)).resolve_right (by simp)
  · obtain ⟨id, found⟩ := List.mem_iff_getElem?.mp member
    exact (ended id coordinator found).resolve_right (by simp)

/-- The pool begins to close while an acquisition starts a coordinator; the acquisition is refused, and
its timeout elapses while it waits for the coordinator to shut down. -/
theorem refused_coordinator_outlives_close : ∃ s, Reachable (machine mailPlan) s ∧ s.lifecycle = .closed ∧
    s.returned = true ∧ ∃ coordinator, s.coordinators[0]? = some coordinator ∧ coordinator.phase = .closing := by
  exact exists_reachable (machine mailPlan) rfl
    (.consumer "mail" :: List.replicate 6 (.go 0) ++ [.close, .closing 0, .go 0, .abandon 0] ++
      List.replicate 7 (.closing 0)) _ (by decide +kernel)

end RabbitRs.Client
