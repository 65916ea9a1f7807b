import RabbitRs.Consumer.Fairness
import RabbitRs.Consumer.Parking

/-!
What a dispatch leaves behind. As long as a subscription is marked ready exactly while it has
buffered deliveries, the loop ends only at a full hand-off queue or with nothing left to hand over.
-/

namespace RabbitRs.Consumer

open StepMachine

variable {sha256 : Bytes → Bytes} {settings : Settings} {sub : Subscription} {s t : State} {e : Event}

/-! ### Readiness -/

namespace Scheduler

def Ready (scheduler : Scheduler) (id : String) : Prop :=
  ∃ entry ∈ scheduler.entries, entry.id = id ∧ entry.ready = true

def ids (scheduler : Scheduler) : List String := scheduler.entries.map (·.id)

variable {scheduler after : Scheduler} {id : String}

theorem ready_iff : scheduler.Ready id ↔
    ∃ i, idAt scheduler.entries i = some id ∧ i ∈ (round scheduler.entries).ready := by
  constructor
  · rintro ⟨entry, member, rfl, ready⟩
    obtain ⟨i, found⟩ := List.mem_iff_getElem?.mp member
    exact ⟨i, idAt_eq found, mem_ready.mpr ⟨entry, found, ready⟩⟩
  · rintro ⟨i, named, member⟩
    obtain ⟨entry, found, ready⟩ := mem_ready.mp member
    rw [idAt_eq found] at named
    exact ⟨entry, List.mem_of_getElem? found, Option.some.inj named, ready⟩

theorem change_eq_map {entries : List SchedulerEntry} (distinct : (entries.map (·.id)).Nodup)
    (id : String) (f : SchedulerEntry → SchedulerEntry) :
    change entries id f = entries.map fun entry => if entry.id = id then f entry else entry := by
  induction entries with
  | nil => rfl
  | cons first rest ih =>
    rw [List.map_cons, List.nodup_cons] at distinct
    unfold change
    by_cases here : first.id = id
    · have others : rest.map (fun entry => if entry.id = id then f entry else entry) = rest := by
        refine (List.map_congr_left fun entry member => ?_).trans (List.map_id rest)
        refine if_neg fun same => distinct.1 (List.mem_map.mpr ⟨entry, member, ?_⟩)
        rw [same, here]
      rw [if_pos here, List.map_cons, if_pos here, others]
    · rw [if_neg here, List.map_cons, if_neg here, ih distinct.2]

theorem ids_markReady (id : String) : (scheduler.markReady id).ids = scheduler.ids :=
  (apply_moves scheduler (.markReady id)).1.ids

theorem ids_markEmpty (id : String) : (scheduler.markEmpty id).ids = scheduler.ids :=
  (apply_moves scheduler (.markEmpty id)).1.ids

theorem ready_markReady (distinct : scheduler.ids.Nodup) (listed : id ∈ scheduler.ids) (name : String) :
    (scheduler.markReady id).Ready name ↔ scheduler.Ready name ∨ name = id := by
  have entries : (scheduler.markReady id).entries = _ := change_eq_map distinct id _
  unfold Ready
  rw [entries]
  constructor
  · rintro ⟨entry, member, rfl, ready⟩
    obtain ⟨before, there, rfl⟩ := List.mem_map.mp member
    split at ready
    · case isTrue here =>
      rw [if_pos here]
      right
      split <;> exact here
    · case isFalse other =>
      rw [if_neg other]
      exact .inl ⟨before, there, rfl, ready⟩
  · rintro (⟨entry, member, rfl, ready⟩ | rfl)
    · refine ⟨_, List.mem_map_of_mem member, ?_⟩
      simp [ready]
    · obtain ⟨entry, member, rfl⟩ := List.mem_map.mp listed
      refine ⟨_, List.mem_map_of_mem member, ?_⟩
      cases ready : entry.ready <;> simp [ready]

theorem ready_markEmpty (distinct : scheduler.ids.Nodup) (name : String) :
    (scheduler.markEmpty id).Ready name ↔ scheduler.Ready name ∧ name ≠ id := by
  have entries : (scheduler.markEmpty id).entries = _ := change_eq_map distinct id _
  unfold Ready
  rw [entries]
  constructor
  · rintro ⟨entry, member, rfl, ready⟩
    obtain ⟨before, there, rfl⟩ := List.mem_map.mp member
    split at ready
    · cases ready
    · case isFalse other =>
      rw [if_neg other]
      exact ⟨⟨before, there, rfl, ready⟩, other⟩
  · rintro ⟨⟨entry, member, rfl, ready⟩, other⟩
    refine ⟨_, List.mem_map_of_mem member, ?_⟩
    simp [other, ready]

theorem ready_pick (picked : scheduler.pick = some (id, after)) :
    scheduler.Ready id ∧ after.ids = scheduler.ids ∧ ∀ name, after.Ready name ↔ scheduler.Ready name := by
  obtain ⟨same, i, named, leads, paid⟩ := pickBy_leads scheduler.rotation_perm picked
  refine ⟨ready_iff.mpr ⟨i, named, leads.ready⟩, same.ids, fun name => ?_⟩
  rw [ready_iff, ready_iff, same.idAt, paid]
  rfl

theorem not_ready_of_pick (idle : scheduler.pick = none) (id : String) : ¬ scheduler.Ready id := by
  rintro ⟨entry, member, -, ready⟩
  obtain ⟨_, _, picked⟩ := pickBy_isSome scheduler.rotation_perm ⟨entry, member, ready⟩
  rw [← pick_eq, idle] at picked
  cases picked

theorem ids_register (new : id ∉ scheduler.ids) (weight : UInt16) :
    (scheduler.register id weight).ids = scheduler.ids ++ [id] := by
  unfold register
  have absent : scheduler.entries.any (·.id == id) = false := by
    refine List.any_eq_false.mpr fun entry member => ?_
    simp only [beq_iff_eq]
    exact fun same => new (List.mem_map.mpr ⟨entry, member, same⟩)
  rw [absent]
  exact List.map_append

end Scheduler

theorem Settings.initialScheduler_ids (settings : Settings) :
    settings.initialScheduler.ids = settings.subscriptions.map (·.id) := by
  have grows : ∀ (subs : List Subscription) (scheduler : Scheduler),
      (scheduler.ids ++ subs.map (·.id)).Nodup →
      (subs.foldl (fun scheduler sub => scheduler.register sub.id sub.weight) scheduler).ids =
        scheduler.ids ++ subs.map (·.id) := by
    intro subs
    induction subs with
    | nil => exact fun scheduler _ => (List.append_nil _).symm
    | cons sub rest ih =>
      intro scheduler distinct
      have new : sub.id ∉ scheduler.ids := fun member =>
        List.disjoint_of_nodup_append distinct member List.mem_cons_self
      have step := Scheduler.ids_register new sub.weight
      rw [List.foldl_cons, ih, step, List.append_assoc]
      · rfl
      · rw [step, List.append_assoc]
        exact distinct
  exact grows settings.subscriptions {} settings.named

theorem Settings.initialScheduler_idle (settings : Settings) (id : String) :
    ¬ settings.initialScheduler.Ready id := by
  have asleep : ∀ (subs : List Subscription) (scheduler : Scheduler),
      (∀ entry ∈ scheduler.entries, entry.ready = false) →
      ∀ entry ∈ (subs.foldl (fun scheduler sub => scheduler.register sub.id sub.weight) scheduler).entries,
        entry.ready = false := by
    intro subs
    induction subs with
    | nil => exact fun _ asleep => asleep
    | cons sub rest ih =>
      intro scheduler asleep
      refine ih _ fun entry member => ?_
      rcases Scheduler.register_cases member with old | ⟨-, ⟨old, there, ready, -⟩ | plain⟩
      · exact asleep entry old
      · exact ready.trans (asleep old there)
      · exact plain.1
  rintro ⟨entry, member, -, ready⟩
  have idle := asleep settings.subscriptions {} nofun entry member
  rw [idle] at ready
  cases ready

theorem Settings.runtime_of_listed {id : String} (listed : id ∈ settings.subscriptions.map (·.id)) :
    ∃ sub, settings.runtime id = some sub := by
  obtain ⟨sub, member, named⟩ := List.mem_map.mp listed
  refine Option.isSome_iff_exists.mp (List.find?_isSome.mpr ⟨sub, member, ?_⟩)
  simp [named]

theorem Settings.Knows.listed (known : settings.Knows sub) :
    sub ∈ settings.subscriptions ∧ sub.id ∈ settings.subscriptions.map (·.id) :=
  ⟨List.mem_of_find?_eq_some known, List.mem_map_of_mem (List.mem_of_find?_eq_some known)⟩

/-! ### The shelf -/

structure Stocked (settings : Settings) (shelf : Shelf) : Prop where
  listed : shelf.scheduler.ids = settings.subscriptions.map (·.id)
  ready : ∀ sub, settings.Knows sub → (shelf.scheduler.Ready sub.id ↔ shelf.buffer sub.id ≠ [])
  sound : ∀ sub, settings.Knows sub → sub.earlyAck = false → ∀ d ∈ shelf.buffer sub.id, sub.poisons d = false
  parked : ∀ p ∈ shelf.parked, ∃ sub, settings.runtime p.1 = some sub ∧ sub.earlyAck = false ∧
    sub.poisons p.2 = false

namespace Stocked

variable {shelf : Shelf} {d : Delivery} {rest : List Delivery}

theorem distinct (stocked : Stocked settings shelf) : shelf.scheduler.ids.Nodup :=
  stocked.listed ▸ settings.named

theorem picks (stocked : Stocked settings shelf) {id : String} {scheduler : Scheduler}
    (picked : shelf.scheduler.pick = some (id, scheduler)) :
    Stocked settings { shelf with scheduler } ∧ ∃ sub, settings.runtime id = some sub ∧
      shelf.buffer sub.id ≠ [] := by
  obtain ⟨⟨entry, member, rfl, ready⟩, ids, marks⟩ := Scheduler.ready_pick picked
  refine ⟨⟨ids.trans stocked.listed, fun sub known => (marks sub.id).trans (stocked.ready sub known),
    stocked.sound, stocked.parked⟩, ?_⟩
  have listed : entry.id ∈ settings.subscriptions.map (·.id) :=
    stocked.listed ▸ List.mem_map_of_mem member
  obtain ⟨sub, found⟩ := Settings.runtime_of_listed listed
  refine ⟨sub, found, (stocked.ready sub (Settings.runtime_knows found)).mp ?_⟩
  exact ⟨entry, member, (Settings.runtime_id found).symm, ready⟩

theorem put (stocked : Stocked settings shelf) (known : settings.Knows sub)
    (sound : sub.earlyAck = false → sub.poisons d = false) :
    Stocked settings { shelf with
      scheduler := shelf.scheduler.markReady sub.id
      buffer := Function.update shelf.buffer sub.id (shelf.buffer sub.id ++ [d]) } where
  listed := (Scheduler.ids_markReady _).trans stocked.listed
  ready other here := by
    refine (Scheduler.ready_markReady stocked.distinct (stocked.listed ▸ known.listed.2) _).trans ?_
    dsimp only
    by_cases same : other.id = sub.id
    · rw [same]
      simp
    · rw [Function.update_of_ne same]
      simp only [same, or_false]
      exact stocked.ready other here
  sound other here late a member := by
    dsimp only at member
    by_cases same : other.id = sub.id
    · obtain rfl := known.unique here same
      rw [Function.update_self] at member
      rcases List.mem_append.mp member with old | new
      · exact stocked.sound other here late a old
      · obtain rfl := List.mem_singleton.mp new
        exact sound late
    · rw [Function.update_of_ne same] at member
      exact stocked.sound other here late a member
  parked := stocked.parked

theorem take (stocked : Stocked settings shelf) (front : shelf.buffer sub.id = d :: rest) :
    Stocked settings { shelf with
      scheduler := if rest.isEmpty then shelf.scheduler.markEmpty sub.id else shelf.scheduler
      buffer := Function.update shelf.buffer sub.id rest } where
  listed := by
    dsimp only
    split
    · exact (Scheduler.ids_markEmpty _).trans stocked.listed
    · exact stocked.listed
  ready other here := by
    have before := stocked.ready other here
    dsimp only
    cases rest with
    | nil =>
      rw [List.isEmpty_nil, if_pos rfl, Scheduler.ready_markEmpty stocked.distinct, before]
      by_cases same : other.id = sub.id
      · rw [same]
        simp
      · rw [Function.update_of_ne same]
        simp [same]
    | cons next rest =>
      rw [List.isEmpty_cons, if_neg (by simp), before]
      by_cases same : other.id = sub.id
      · rw [same, front]
        simp
      · rw [Function.update_of_ne same]
  sound other here late a member := by
    dsimp only at member
    by_cases same : other.id = sub.id
    · rw [same, Function.update_self] at member
      refine stocked.sound other here late a ?_
      rw [same, front]
      exact List.mem_cons_of_mem _ member
    · rw [Function.update_of_ne same] at member
      exact stocked.sound other here late a member
  parked := stocked.parked

theorem mark (stocked : Stocked settings shelf) (known : settings.Knows sub)
    (front : shelf.buffer sub.id ≠ []) :
    Stocked settings { shelf with scheduler := shelf.scheduler.markReady sub.id } := by
  refine ⟨(Scheduler.ids_markReady _).trans stocked.listed, fun other here => ?_, stocked.sound,
    stocked.parked⟩
  refine (Scheduler.ready_markReady stocked.distinct (stocked.listed ▸ known.listed.2) _).trans ?_
  rw [stocked.ready other here, or_iff_left_iff_imp]
  intro same
  rw [same]
  exact front

theorem unpark (stocked : Stocked settings shelf) {p : String × Delivery}
    {rest : List (String × Delivery)} (head : shelf.parked = p :: rest) :
    Stocked settings { shelf with parked := rest } :=
  { stocked with parked := fun q member => stocked.parked q (head ▸ List.mem_cons_of_mem _ member) }

theorem park (stocked : Stocked settings shelf) (known : settings.Knows sub)
    (late : sub.earlyAck = false) (sound : sub.poisons d = false) :
    Stocked settings { shelf with parked := shelf.parked ++ [(sub.id, d)] } := by
  refine { stocked with parked := fun p member => ?_ }
  rcases List.mem_append.mp member with old | new
  · exact stocked.parked p old
  · obtain rfl := List.mem_singleton.mp new
    exact ⟨sub, known, late, sound⟩

end Stocked

/-! ### The loop -/

structure Passed (settings : Settings) (s t : State) : Prop where
  stocked : Stocked settings t.shelf
  parked : t.parked = s.parked
  bytes : ∀ sub, settings.Knows sub → sub.earlyAck = false →
    (t.lanes sub.id).bufferedBytes = (s.lanes sub.id).bufferedBytes

theorem Passed.trans {u : State} (first : Passed settings s t) (second : Passed settings t u) :
    Passed settings s u :=
  ⟨second.stocked, second.parked.trans first.parked,
    fun sub known late => (second.bytes sub known late).trans (first.bytes sub known late)⟩

/-- The hand-off queue is full, or the loop has nothing left to hand over. -/
def HandedOver (settings : Settings) (s : State) : Prop :=
  s.handoffFull settings = true ∨
    (∀ sub ∈ settings.subscriptions, (s.lanes sub.id).buffer = []) ∧ s.sourceErrors = []

structure Turns (settings : Settings) (s : State) (turn : State × Bool) : Prop where
  passed : Passed settings s turn.1
  shrinks : turn.2 = true → turn.1.dispatchBound settings < s.dispatchBound settings
  ends : turn.2 = false → HandedOver settings turn.1

namespace State

variable {d : Delivery} {rest : List Delivery}

theorem dispatchBound_take (known : settings.Knows sub) (front : (s.lanes sub.id).buffer = d :: rest)
    (errors : t.sourceErrors = s.sourceErrors)
    (buffers : t.shelf.buffer = Function.update s.shelf.buffer sub.id rest) :
    t.dispatchBound settings < s.dispatchBound settings := by
  have lengths : ∀ name, (t.lanes name).buffer =
      Function.update (fun name => (s.lanes name).buffer) sub.id rest name := congrFun buffers
  have fewer : (settings.subscriptions.map fun sub => (t.lanes sub.id).buffer.length).sum <
      (settings.subscriptions.map fun sub => (s.lanes sub.id).buffer.length).sum := by
    refine List.sum_lt_sum _ _ (fun other _ => ?_) ⟨sub, known.listed.1, ?_⟩
    · rw [lengths]
      by_cases same : other.id = sub.id
      · rw [same, Function.update_self, front]
        exact Nat.le_succ _
      · rw [Function.update_of_ne same]
    · rw [lengths, Function.update_self, front]
      exact Nat.lt_succ_self _
  unfold dispatchBound
  rw [errors]
  omega

theorem turns_take (stocked : Stocked settings s.shelf) (known : settings.Knows sub)
    (front : (s.lanes sub.id).buffer = d :: rest) (errors : t.sourceErrors = s.sourceErrors)
    (shelf : t.shelf = { s.shelf with
      scheduler := if rest.isEmpty then s.scheduler.markEmpty sub.id else s.scheduler
      buffer := Function.update s.shelf.buffer sub.id rest })
    (bytes : ∀ other, settings.Knows other → other.earlyAck = false →
      (t.lanes other.id).bufferedBytes = (s.lanes other.id).bufferedBytes) :
    Turns settings s (t, true) := by
  refine ⟨⟨?_, congrArg Shelf.parked shelf, bytes⟩, fun _ => ?_, nofun⟩
  · change Stocked settings t.shelf
    rw [shelf]
    exact stocked.take front
  · exact dispatchBound_take known front errors (congrArg Shelf.buffer shelf)

theorem turns_stuck (stocked : Stocked settings s.shelf) (known : settings.Knows sub)
    (front : (s.lanes sub.id).buffer = d :: rest) (full : t.handoffFull settings = true)
    (shelf : t.shelf = s.shelf)
    (bytes : ∀ name, (t.lanes name).bufferedBytes = (s.lanes name).bufferedBytes) :
    Turns settings s (t.stuck sub, false) := by
  have nonempty : s.shelf.buffer sub.id ≠ [] := by
    change (s.lanes sub.id).buffer ≠ []
    rw [front]
    exact List.cons_ne_nil _ _
  refine ⟨⟨?_, congrArg Shelf.parked shelf, fun sub _ _ => bytes sub.id⟩, nofun, fun _ => .inl full⟩
  change Stocked settings { t.shelf with scheduler := t.shelf.scheduler.markReady sub.id }
  rw [shelf]
  exact stocked.mark known nonempty

theorem shelf_handOver {u : State} (item : Item) (change : Lane → Lane) (shelf : u.shelf = s.shelf)
    (buffer : (change (u.lanes sub.id)).buffer = rest) :
    ((u.handedOff sub item rest).modify sub.id change).shelf = { s.shelf with
      scheduler := if rest.isEmpty then s.scheduler.markEmpty sub.id else s.scheduler
      buffer := Function.update s.shelf.buffer sub.id rest } := by
  have handed : (u.handedOff sub item rest).shelf = { s.shelf with
      scheduler := if rest.isEmpty then s.shelf.scheduler.markEmpty sub.id else s.shelf.scheduler } := by
    rw [← shelf]
    rfl
  rw [shelf_modify_eq, lanes_handedOff, buffer, handed]
  rfl

theorem dispatchToken_turns (stocked : Stocked settings s.shelf) (known : settings.Knows sub)
    (front : (s.lanes sub.id).buffer = d :: rest) (attempts : Nat) :
    Turns settings s (s.dispatchToken settings sub d rest attempts) := by
  have shelf : (s.modify sub.id fun lane => lane.tokenize (sub.item d attempts)).shelf = s.shelf :=
    shelf_modify rfl
  have bytes : ∀ name, ((s.modify sub.id fun lane => lane.tokenize (sub.item d attempts)).lanes
      name).bufferedBytes = (s.lanes name).bufferedBytes := bytes_modify rfl
  unfold dispatchToken
  dsimp only
  split
  · case isTrue full => exact turns_stuck stocked known front full shelf bytes
  · have handed := @shelf_handOver sub s rest _ (sub.item d attempts)
      (fun lane => { lane with buffer := rest }) shelf rfl
    have kept := @bytes_modify ((s.modify sub.id fun lane => lane.tokenize (sub.item d
      attempts)).handedOff sub (sub.item d attempts) rest) sub.id
      (fun lane => { lane with buffer := rest }) rfl
    exact turns_take stocked known front rfl handed fun other _ _ =>
      (kept other.id).trans (bytes other.id)

theorem dispatchEarly_turns (stocked : Stocked settings s.shelf) (known : settings.Knows sub)
    (early : sub.earlyAck = true) (front : (s.lanes sub.id).buffer = d :: rest) (attempts : Nat) :
    Turns settings s (s.dispatchEarly settings sub d rest attempts) := by
  have acked : (s.earlyAcked settings sub d).shelf = s.shelf ∧
      (s.earlyAcked settings sub d).sourceErrors = s.sourceErrors ∧
      ∀ name, ((s.earlyAcked settings sub d).lanes name).bufferedBytes = (s.lanes name).bufferedBytes := by
    unfold earlyAcked
    split
    · exact ⟨rfl, rfl, fun _ => rfl⟩
    · exact ⟨shelf_modify rfl, rfl, bytes_modify rfl⟩
  obtain ⟨shelf, errors, bytes⟩ := acked
  rw [dispatchEarly_eq]
  split
  · case isTrue full => exact turns_stuck stocked known front full shelf bytes
  · have handed := @shelf_handOver sub s rest _ (sub.item d attempts)
      (fun lane => lane.handEarly (sub.item d attempts) d.size rest) shelf rfl
    refine turns_take stocked known front errors handed fun other here late => ?_
    have differ : sub.id ≠ other.id := by
      intro same
      obtain rfl := here.unique known same
      rw [early] at late
      cases late
    have same := @lanes_modify_other ((s.earlyAcked settings sub d).handedOff sub
      (sub.item d attempts) rest) other.id sub.id differ
      fun lane => lane.handEarly (sub.item d attempts) d.size rest
    exact (congrArg Lane.bufferedBytes same).trans (bytes other.id)

theorem dispatchDelivery_turns (stocked : Stocked settings s.shelf) (known : settings.Knows sub)
    (front : (s.lanes sub.id).buffer = d :: rest) :
    Turns settings s (s.dispatchDelivery settings sub d rest) := by
  unfold dispatchDelivery
  split
  · split
    · case isTrue early => exact dispatchEarly_turns stocked known early front _
    · exact dispatchToken_turns stocked known front _
  · case h_2 error resolved =>
    split
    · case isTrue early =>
      have turned := @dispatchEarly_turns settings sub (s.recordSettlementError {
        tag := d.tag
        subscription := sub.id
        kind := .maxAttempts
        message := error.message }) d rest stocked known early front error.attempts
      exact ⟨⟨turned.passed.stocked, turned.passed.parked, turned.passed.bytes⟩, turned.shrinks,
        turned.ends⟩
    · case isFalse late =>
      -- a poison delivery would leave the mark behind
      have sound := stocked.sound sub known (Bool.eq_false_iff.mpr late) d (by
        change d ∈ (s.lanes sub.id).buffer
        rw [front]
        exact List.mem_cons_self)
      rw [(resolveAttempts_error resolved).1] at sound
      cases sound

theorem dispatchOnce_turns (stocked : Stocked settings s.shelf) :
    Turns settings s (s.dispatchOnce settings) := by
  unfold dispatchOnce
  split
  · case h_1 error rest errors =>
    split
    · case isTrue full => exact ⟨⟨stocked, rfl, fun _ _ _ => rfl⟩, nofun, fun _ => .inl full⟩
    · refine ⟨⟨stocked, rfl, fun _ _ _ => rfl⟩, fun _ => ?_, nofun⟩
      unfold dispatchBound
      rw [errors, List.length_cons]
      dsimp only
      omega
  · case h_2 errors =>
    split
    · case h_1 idle =>
      refine ⟨⟨stocked, rfl, fun _ _ _ => rfl⟩, nofun, fun _ => .inr ⟨fun sub member => ?_, errors⟩⟩
      obtain ⟨found, there⟩ := Settings.runtime_of_listed (List.mem_map_of_mem member)
      have empty := mt (stocked.ready found (Settings.runtime_knows there)).mpr
        (Scheduler.not_ready_of_pick idle found.id)
      rw [Settings.runtime_id there] at empty
      exact not_ne_iff.mp empty
    · case h_2 id scheduler picked =>
      obtain ⟨marked, sub, found, waiting⟩ := stocked.picks picked
      have same := Settings.runtime_id found
      dsimp only
      split
      · case h_1 empty =>
        rw [same] at waiting
        exact absurd empty waiting
      · case h_2 missing =>
        rw [missing] at found
        cases found
      · case h_3 delivery rest other front there =>
        obtain rfl := Option.some.inj (found.symm.trans there)
        have turned := @dispatchDelivery_turns settings sub { s with scheduler } delivery rest marked
          (Settings.runtime_knows found) (same ▸ front)
        exact ⟨⟨turned.passed.stocked, turned.passed.parked, turned.passed.bytes⟩, turned.shrinks,
          turned.ends⟩

theorem dispatchLoop_ends (passes : Nat) (stocked : Stocked settings s.shelf)
    (enough : s.dispatchBound settings ≤ passes) :
    Passed settings s (s.dispatchLoop settings passes) ∧
      HandedOver settings (s.dispatchLoop settings passes) := by
  induction passes generalizing s with
  | zero =>
    unfold dispatchBound at enough
    omega
  | succ passes ih =>
    have turned := dispatchOnce_turns stocked
    unfold dispatchLoop
    split
    · case h_1 next went =>
      rw [went] at turned
      have less := turned.shrinks rfl
      obtain ⟨passed, done⟩ := ih turned.passed.stocked (by omega)
      exact ⟨turned.passed.trans passed, done⟩
    · case h_2 next ended =>
      rw [ended] at turned
      exact ⟨turned.passed, turned.ends rfl⟩

theorem shelf_settlePoison (d : Delivery) (name detail : String) :
    (s.settlePoison sub d name detail).shelf = s.shelf := by
  have poisoned := @shelf_modify (s.recordPoison sub.hasDeadLetter) sub.id (fun lane =>
    lane.settlePoison (sub.settlePoison (some sub.identity) d.tag) d.tag d.size) (by
      unfold Lane.settlePoison
      cases sub.settlePoison (some sub.identity) d.tag with
      | none => rfl
      | some frame => exact congrArg Lane.Face.buffer (Lane.spawn_face frame))
  exact poisoned.trans (congrArg Front.shelf (front_recordPoison _))

theorem shelf_settleOversized (d : Delivery) : (s.settleOversized sub d).shelf = s.shelf :=
  (shelf_settlePoison _ _ _).trans (shelf_modify rfl)

theorem enroll_stocked (stocked : Stocked settings s.shelf) (known : settings.Knows sub)
    (sound : sub.earlyAck = false → sub.poisons d = false) : Stocked settings (s.enroll sub d).shelf := by
  have put := stocked.put known sound
  have shelf : (s.enroll sub d).shelf = { s.shelf with
      scheduler := s.shelf.scheduler.markReady sub.id
      buffer := Function.update s.shelf.buffer sub.id (s.shelf.buffer sub.id ++ [d]) } := by
    have lane := shelf_modify_eq (s := s) sub.id fun lane => lane.enroll d
    exact congrArg (fun shelf : Shelf => { shelf with
      scheduler := s.scheduler.markReady sub.id }) lane
  rw [shelf]
  exact put

def Blocked (settings : Settings) (s : State) : Prop :=
  ∀ p rest sub, s.parked = p :: rest → settings.runtime p.1 = some sub →
    sub.overBudget (s.lanes sub.id) p.2.size = true

theorem drainParked_stocked {parked : List (String × Delivery)} (stocked : Stocked settings s.shelf)
    (here : s.parked = parked) : Stocked settings (s.drainParked settings parked).shelf ∧
      Blocked settings (s.drainParked settings parked) := by
  induction parked generalizing s with
  | nil =>
    refine ⟨{ stocked with parked := nofun }, ?_⟩
    rintro p rest sub ⟨⟩
  | cons first rest ih =>
    obtain ⟨sub, found, late, sound⟩ := stocked.parked first (by
      change first ∈ s.parked
      rw [here]
      exact List.mem_cons_self)
    have known := Settings.runtime_knows found
    have fewer : Stocked settings ({ s with parked := rest } : State).shelf := stocked.unpark here
    obtain ⟨id, d⟩ := first
    unfold drainParked
    simp only [found]
    split
    · case isTrue crowded =>
      split
      · refine ih ?_ (parked_settleOversized d)
        rw [shelf_settleOversized]
        exact fewer
      · refine ⟨?_, ?_⟩
        · exact { stocked with parked := here ▸ stocked.parked }
        · intro p left other head there
          obtain ⟨rfl, -⟩ := List.cons.inj head
          obtain rfl := Option.some.inj (found.symm.trans there)
          exact crowded
    · exact ih (enroll_stocked fewer known fun _ => sound) rfl

end State

/-- Nothing that could be dispatched is left. -/
def Dispatched (settings : Settings) (s : State) : Prop :=
  s.handoffFull settings = true ∨
    (∀ sub ∈ settings.subscriptions, (s.lanes sub.id).buffer = []) ∧ s.sourceErrors = [] ∧
      ∀ p rest sub, s.parked = p :: rest → settings.runtime p.1 = some sub →
        sub.overBudget (s.lanes sub.id) p.2.size = true

theorem dispatch_stocked (stocked : Stocked settings s.shelf) :
    Stocked settings (s.dispatch settings).shelf ∧ Dispatched settings (s.dispatch settings) := by
  obtain ⟨drained, blocked⟩ := State.drainParked_stocked stocked rfl
  obtain ⟨passed, done⟩ := State.dispatchLoop_ends _ drained (Nat.le_refl _)
  refine ⟨passed.stocked, done.imp_right fun ⟨empty, errors⟩ => ⟨empty, errors, ?_⟩⟩
  intro p rest sub head found
  have before : (s.drainPending settings).parked = p :: rest := passed.parked.symm.trans head
  obtain ⟨other, there, late, -⟩ := drained.parked p (by
    change p ∈ (s.drainPending settings).parked
    rw [before]
    exact List.mem_cons_self)
  obtain rfl := Option.some.inj (found.symm.trans there)
  have crowded := blocked p rest sub before found
  unfold Subscription.overBudget at crowded ⊢
  rw [← passed.bytes sub (Settings.runtime_knows found) late] at crowded
  exact crowded

/-- A delivery is taken from the pumps only if it will not be settled as poison by a dispatch, and,
for a subscription that is acknowledged at the hand-off, only if it need not be parked. -/
def Event.sound (settings : Settings) (s : State) : Event → Bool
  | .incoming =>
    match s.incoming with
    | (id, .ok d) :: _ => (settings.runtime id).all fun sub =>
        if sub.earlyAck then
          s.parked.isEmpty && !sub.overBudget (s.lanes sub.id) d.size || sub.oversized d.size
        else !sub.poisons d
    | _ => true
  | _ => true

def Event.dispatches (settings : Settings) (s : State) : Event → Bool
  | .notified => true
  | .incoming =>
    match s.incoming with
    | (id, .ok d) :: _ =>
      (settings.runtime id).any fun sub => !sub.overBudget (s.lanes sub.id) d.size
    | (_, .error _) :: _ => true
    | [] => false
  | .settled id index =>
    s.stage = .select && (s.lanes id).pendingSettlements[index]?.any fun future =>
      match future.progress with
      | .finished result => State.isTerminal result
      | _ => false
  | .throughSettled id index =>
    s.stage = .select && (s.lanes id).pendingSettleThroughs[index]?.any fun future =>
      future.result.any State.throughTerminal
  | _ => false

theorem Dispatched.of_front {u : State} (same : t.front = u.front) (dispatched : Dispatched settings u) :
    Dispatched settings t := by
  have queue : t.queue = u.queue := congrArg Front.queue same
  have errors : t.sourceErrors = u.sourceErrors := congrArg Front.sourceErrors same
  have parked : t.parked = u.parked := congrArg (fun front => front.shelf.parked) same
  have buffers : ∀ id, (t.lanes id).buffer = (u.lanes id).buffer :=
    congrFun (congrArg (fun front => front.shelf.buffer) same)
  have bytes : ∀ id, (t.lanes id).bufferedBytes = (u.lanes id).bufferedBytes :=
    congrFun (congrArg Front.bytes same)
  unfold Dispatched State.handoffFull Subscription.overBudget at dispatched ⊢
  simp only [queue, errors, parked, buffers, bytes]
  exact dispatched

structure Served (settings : Settings) (dispatches : Bool) (t : State) : Prop where
  stocked : Stocked settings t.shelf
  dispatched : dispatches = true → Dispatched settings t

theorem Served.of_shelf {shelf : Shelf} (stocked : Stocked settings shelf) (same : t.shelf = shelf)
    {dispatches : Bool} (quiet : dispatches = false) : Served settings dispatches t := by
  refine ⟨same ▸ stocked, fun dispatched => ?_⟩
  rw [quiet] at dispatched
  cases dispatched

theorem Served.of_front {u : State} (stocked : Stocked settings u.shelf)
    (same : t.front = (u.dispatch settings).front) {dispatches : Bool} : Served settings dispatches t := by
  obtain ⟨kept, dispatched⟩ := dispatch_stocked stocked
  have shelf : t.shelf = (u.dispatch settings).shelf := congrArg Front.shelf same
  exact ⟨shelf ▸ kept, fun _ => dispatched.of_front same⟩

namespace State

variable {d : Delivery}

theorem drainPending_stocked (stocked : Stocked settings s.shelf) :
    Stocked settings (s.drainPending settings).shelf :=
  (drainParked_stocked stocked rfl).1

theorem handleDelivery_served (stocked : Stocked settings s.shelf) (known : settings.Knows sub)
    (sound : (if sub.earlyAck then
      s.parked.isEmpty && !sub.overBudget (s.lanes sub.id) d.size || sub.oversized d.size
      else !sub.poisons d) = true) :
    Served settings (!sub.overBudget (s.lanes sub.id) d.size) (s.handleDelivery settings sub d) := by
  have shelf : (s.modify sub.id fun lane => lane.receive d).shelf = s.shelf := shelf_modify rfl
  have budget : sub.overBudget ((s.modify sub.id fun lane => lane.receive d).lanes sub.id) d.size =
      sub.overBudget (s.lanes sub.id) d.size := by
    unfold Subscription.overBudget
    rw [bytes_modify rfl]
  have healthy : sub.earlyAck = false → sub.poisons d = false := by
    intro late
    simpa [late] using sound
  unfold handleDelivery
  dsimp only
  rw [budget]
  split
  · case isTrue crowded =>
    split
    · exact .of_shelf stocked ((shelf_settleOversized d).trans shelf) (by simp [crowded])
    · case isFalse fits =>
      have late : sub.earlyAck = false := by
        by_contra early
        rw [Bool.not_eq_false] at early
        simp [early, crowded, fits] at sound
      have parked : ({ s.modify sub.id fun lane => lane.receive d with
          parked := s.parked ++ [(sub.id, d)] } : State).recordBackpressure.shelf =
          { s.shelf with parked := s.shelf.parked ++ [(sub.id, d)] } :=
        congrArg (fun shelf : Shelf => { shelf with parked := s.parked ++ [(sub.id, d)] }) shelf
      exact .of_shelf (stocked.park known late (healthy late)) parked (by simp [crowded])
  · case isFalse roomy =>
    split
    · have enrolled := enroll_stocked (d := d) (shelf ▸ stocked) known healthy
      exact .of_front enrolled rfl
    · case isFalse waiting =>
      have late : sub.earlyAck = false := by
        by_contra early
        rw [Bool.not_eq_false] at early
        have small : sub.oversized d.size = false := by
          unfold Subscription.overBudget at roomy
          unfold Subscription.oversized
          simp only [decide_eq_true_eq] at roomy
          simp only [decide_eq_false_iff_not]
          omega
        have empty : s.parked.isEmpty = true := by
          simpa [early, small, roomy] using sound
        exact waiting empty
      have joined : Stocked settings ({ s.modify sub.id fun lane => lane.receive d with
          parked := s.parked ++ [(sub.id, d)] } : State).shelf := by
        have parked := congrArg (fun shelf : Shelf =>
          { shelf with parked := s.parked ++ [(sub.id, d)] }) shelf
        exact parked.symm.subst (motive := Stocked settings) (stocked.park known late (healthy late))
      exact .of_front (drainPending_stocked joined) rfl

theorem completeSettlement_served (stocked : Stocked settings s.shelf) (index tag : Nat)
    (result : Outcome) :
    Served settings (isTerminal result) (s.completeSettlement settings sub index tag result) := by
  have rest : ∀ u : State, (((u.modify sub.id fun lane => lane.setSettling tag false).concludeSettlement
      sub tag result).modify sub.id fun lane => lane.drainSettlementQueue).front = u.front := fun u =>
    (front_modify Lane.drainSettlementQueue_face).trans
      ((front_concludeSettlement tag result).trans (front_modify rfl))
  unfold completeSettlement
  dsimp only
  split
  · case isTrue terminal =>
    refine .of_front (drainPending_stocked ?_) ((rest _).trans (front_modify rfl))
    have kept : (((s.modify sub.id fun lane => lane.retireSettlement index).recordOutcome result).modify
        sub.id fun lane => lane.releaseBytes (lane.sizeOf tag)).shelf = s.shelf :=
      (shelf_modify rfl).trans ((congrArg Front.shelf (front_recordOutcome result)).trans (shelf_modify rfl))
    exact kept ▸ stocked
  · case isFalse open_ =>
    have kept : (s.modify sub.id fun lane => lane.retireSettlement index).shelf = s.shelf := shelf_modify rfl
    exact .of_shelf stocked ((congrArg Front.shelf (rest _)).trans kept) (Bool.not_eq_true _ ▸ open_)

theorem completeSettleThrough_served (stocked : Stocked settings s.shelf) (index : Nat) (through : Through)
    (result : Outcome) :
    Served settings (throughTerminal result) (s.completeSettleThrough settings sub index through result) := by
  have rest : ∀ u : State, (((u.modify sub.id fun lane => lane.markAffected through.affected
      (throughState result)).refuseThrough sub.id through result).modify sub.id fun lane =>
        lane.drainSettlementQueue).front = u.front := fun u =>
    (front_modify Lane.drainSettlementQueue_face).trans
      ((front_refuseThrough sub.id through result).trans (front_modify (Lane.markAffected_face _ _)))
  unfold completeSettleThrough
  dsimp only
  split
  · case isTrue terminal =>
    refine .of_front (drainPending_stocked ?_) ((rest _).trans (front_modify rfl))
    have kept : ((s.modify sub.id fun lane => lane.retireSettleThrough index).modify sub.id fun lane =>
        lane.releaseAffected through.affected).shelf = s.shelf :=
      (shelf_modify (Lane.releaseAffected_buffer _)).trans (shelf_modify rfl)
    split
    · exact kept ▸ stocked
    · exact kept ▸ stocked
  · case isFalse open_ =>
    have kept : (s.modify sub.id fun lane => lane.retireSettleThrough index).shelf = s.shelf := shelf_modify rfl
    exact .of_shelf stocked ((congrArg Front.shelf (rest _)).trans kept) (Bool.not_eq_true _ ▸ open_)

end State

theorem Served.afterArm {dispatches : Bool} (served : Served settings dispatches t) :
    Served settings dispatches t.afterArm :=
  ⟨State.shelf_afterArm.symm ▸ served.stocked, fun dispatched =>
    (served.dispatched dispatched).of_front State.front_afterArm⟩

theorem step_served (sound : e.sound settings s = true) (stocked : Stocked settings s.shelf)
    (stepped : step sha256 settings s e = some t) : Served settings (e.dispatches settings s) t := by
  cases e
  case incoming =>
    have handled : ∀ name result rest, s.incoming = (name, result) :: rest →
        Served settings (Event.dispatches settings s .incoming)
          ({ s with incoming := rest }.handleIncoming settings name result) := by
      intro name result rest first
      unfold Event.sound at sound
      unfold Event.dispatches State.handleIncoming
      rw [first] at sound ⊢
      have kept : Stocked settings ({ s with incoming := rest } : State).shelf := stocked
      cases result with
      | error failed =>
        refine Served.of_front (u := ({ s with incoming := rest } : State).recordSourceError
          { kind := .transport, message := failed.message }) kept rfl
      | ok d =>
        cases found : settings.runtime name with
        | none => exact .of_shelf kept rfl (by simp [found])
        | some sub =>
          simp only [found, Option.all_some] at sound
          simp only [found, Option.any_some]
          exact State.handleDelivery_served kept (Settings.runtime_knows found) sound
    simp only [step] at stepped
    split at stepped
    · case h_1 first =>
      obtain ⟨-, stepped⟩ := Option.ite_none_right_eq_some.mp stepped
      cases stepped
      exact (handled _ _ _ first).afterArm
    · case h_2 first =>
      obtain ⟨-, stepped⟩ := Option.ite_none_right_eq_some.mp stepped
      cases stepped
      exact (handled _ _ _ first).afterArm
    · cases stepped
  case notified =>
    simp only [step, Option.ite_none_right_eq_some, Option.some.injEq] at stepped
    obtain ⟨-, rfl⟩ := stepped
    have kept : Stocked settings ({ s with notified := false } : State).shelf := stocked
    exact Served.afterArm (.of_front kept rfl)
  case settled name index =>
    simp only [step, Option.bind_eq_some_iff] at stepped
    obtain ⟨found, -, future, here, stepped⟩ := stepped
    split at stepped
    · case h_1 finished selecting =>
      cases stepped
      have dispatches := @State.completeSettlement_served settings found s stocked index future.tag ‹_›
      unfold Event.dispatches
      simpa [here, finished, selecting] using dispatches.afterArm
    · case h_2 finished draining =>
      cases stepped
      exact .of_shelf stocked (State.shelf_closeSettlement _ _ _) (by simp [Event.dispatches, draining])
    · cases stepped
  case throughSettled name index =>
    simp only [step, Option.bind_eq_some_iff] at stepped
    obtain ⟨found, -, future, here, stepped⟩ := stepped
    split at stepped
    · case h_1 finished selecting =>
      cases stepped
      have dispatches := @State.completeSettleThrough_served settings found s stocked index future.through ‹_›
      unfold Event.dispatches
      simpa [here, finished, selecting] using dispatches.afterArm
    · case h_2 finished draining =>
      cases stepped
      exact .of_shelf stocked (State.shelf_closeSettleThrough _ _ _) (by simp [Event.dispatches, draining])
    · cases stepped
  all_goals exact .of_shelf stocked (quiet_shelf stepped rfl) rfl

theorem stocked_initial : Stocked settings ({ scheduler := settings.initialScheduler } : State).shelf where
  listed := settings.initialScheduler_ids
  ready := fun sub _ => iff_of_false (settings.initialScheduler_idle sub.id) (not_not_intro rfl)
  sound := fun _ _ _ _ member => nomatch member
  parked := fun _ member => nomatch member

theorem stocked_of_reaches
    (reached : Reaches (machine sha256 settings) (fun s e => e.sound settings s = true) s) :
    Stocked settings s.shelf := by
  induction reached with
  | start first =>
    obtain rfl := first
    exact stocked_initial
  | next _ sound stepped ih => exact (step_served sound ih stepped).stocked

/-- In a run of sound steps a dispatch ends at a full hand-off queue, or with empty buffers, no
retained source error and a parked delivery, if any, that does not fit: wherever one is called, and
after every step that called one. -/
theorem nothing_left_undispatched
    (reached : Reaches (machine sha256 settings) (fun s e => e.sound settings s = true) s) :
    Dispatched settings (s.dispatch settings) ∧
      ∀ e t, e.sound settings s = true → e.dispatches settings s = true →
        step sha256 settings s e = some t → Dispatched settings t := by
  have stocked := stocked_of_reaches reached
  refine ⟨(dispatch_stocked stocked).2, fun e t sound dispatches stepped => ?_⟩
  exact (step_served sound stocked stepped).dispatched dispatches

/-- With one delivery of `mail` handed over, the next one does not fit and stays parked. -/
theorem second_mail_stays_parked : ∃ s,
    Reaches (machine id mailAndLogs) (fun s e => e.sound mailAndLogs s = true) s ∧
    s.parked = [("mail", { tag := 2, payload := [0, 0, 0, 0, 0, 0, 0, 0] })] ∧
    Dispatched mailAndLogs (s.dispatch mailAndLogs) := by
  obtain ⟨s, reached, parked⟩ := exists_reached (machine id mailAndLogs) (fun s e => e.sound mailAndLogs s = true) rfl
    [.deliver "mail" { tag := 1, payload := [0, 0, 0, 0, 0, 0, 0, 0] },
      .deliver "mail" { tag := 2, payload := [0, 0, 0, 0, 0, 0, 0, 0] }, .controlDry, .incoming, .incoming]
    (fun s => s.parked = [("mail", { tag := 2, payload := [0, 0, 0, 0, 0, 0, 0, 0] })]) (by decide +kernel)
  exact ⟨s, reached, parked, (nothing_left_undispatched reached).1⟩

/-- The acknowledgement of the first `mail` makes room for the second, which is poison, and for the
`logs` parked behind it. The scheduler picks `mail` again after its buffer was emptied by the poison
settlement, and the dispatch ends there: `logs` stays in its buffer beside an open hand-off queue. -/
theorem logs_left_behind_poison : ∃ s t, Reachable (machine id mailAndLogs) s ∧
    step id mailAndLogs s (.throughSettled "mail" 0) = some t ∧
    Event.dispatches mailAndLogs s (.throughSettled "mail" 0) = true ∧
    t.handoffFull mailAndLogs = false ∧ (t.lanes "logs").buffer = [{ tag := 1, payload := [7] }] ∧
    ¬ Dispatched mailAndLogs t := by
  obtain ⟨s, reached, t, stepped, dispatches, open_, left⟩ := exists_reachable (machine id mailAndLogs) rfl
    ([.deliver "mail" { tag := 1, payload := [0, 0, 0, 0, 0, 0, 0, 0] },
      .deliver "mail" { tag := 2, redelivered := true, payload := [0, 0, 0, 0, 0, 0, 0, 0] },
      .deliver "logs" { tag := 1, payload := [7] }, .controlDry, .incoming, .incoming, .incoming, .incomingDry,
      .pop, .claim "mail" 1 .ack, .send 0] ++ handling 1 ++ [.performThrough "mail" 0 (.ok ())])
    (fun s => ∃ t, step id mailAndLogs s (.throughSettled "mail" 0) = some t ∧
      Event.dispatches mailAndLogs s (.throughSettled "mail" 0) = true ∧ t.handoffFull mailAndLogs = false ∧
      (t.lanes "logs").buffer = [{ tag := 1, payload := [7] }])
    (by decide +kernel)
  refine ⟨s, t, reached, stepped, dispatches, open_, left, ?_⟩
  rintro (full | ⟨empty, -, -⟩)
  · rw [open_] at full
    cases full
  · have none : (t.lanes "logs").buffer = [] :=
      empty { jobs with id := "logs" } (List.mem_cons_of_mem _ (List.mem_singleton_self _))
    rw [left] at none
    cases none

end RabbitRs.Consumer
