import Mathlib.Data.Nat.ModEq
import RabbitRs.Consumer.Scheduler
import RabbitRs.Lib.RoundRobin

/-!
The scheduler is smooth weighted round robin, in whatever order ties are looked at: exact shares
while the ready subscriptions stay the same, bounded credits and waiting when they come and go.
-/

namespace RabbitRs.Consumer

namespace Scheduler

def pickBy (order : List Nat) (scheduler : Scheduler) : Option (String × Scheduler) :=
  let entries := credited scheduler.entries
  (choose entries none order).map fun (index, entry) =>
    (entry.id,
      { entries := entries.set index { entry with credit := entry.credit - totalWeight scheduler.entries }
        cursor := (index + 1) % scheduler.entries.length })

theorem pick_eq (scheduler : Scheduler) : scheduler.pick = pickBy scheduler.rotation scheduler := rfl

def weightAt (entries : List SchedulerEntry) (i : Nat) : ℤ :=
  entries[i]?.elim 0 fun entry => entry.weight.toNat

def idAt (entries : List SchedulerEntry) (i : Nat) : Option String := entries[i]?.map (·.id)

def round (entries : List SchedulerEntry) : RoundRobin.Round Nat where
  ready := (Finset.range entries.length).filter fun i => entries[i]?.any (·.ready) = true
  credit i := entries[i]?.elim 0 (·.credit)

variable {entries : List SchedulerEntry} {i : Nat} {entry : SchedulerEntry}

theorem mem_ready : i ∈ (round entries).ready ↔ ∃ entry, entries[i]? = some entry ∧ entry.ready := by
  simp only [round, Finset.mem_filter, Finset.mem_range, Option.any_eq_true]
  constructor
  · exact fun found => found.2
  · rintro ⟨entry, found, ready⟩
    exact ⟨(List.getElem?_eq_some_iff.mp found).1, entry, found, ready⟩

theorem credit_eq (found : entries[i]? = some entry) : (round entries).credit i = entry.credit := by
  simp [round, found]

theorem weightAt_eq (found : entries[i]? = some entry) : weightAt entries i = entry.weight.toNat := by
  simp [weightAt, found]

theorem idAt_eq (found : entries[i]? = some entry) : idAt entries i = some entry.id := by
  simp [idAt, found]

theorem ready_card_le : (round entries).ready.card ≤ entries.length := by
  refine (Finset.card_filter_le _ _).trans ?_
  rw [Finset.card_range]

def SchedulerEntry.share (entry : SchedulerEntry) : ℤ := if entry.ready then entry.weight.toNat else 0

theorem totalWeight_eq (entries : List SchedulerEntry) :
    totalWeight entries = (round entries).total (weightAt entries) := by
  have shares : (round entries).total (weightAt entries) =
      ∑ i ∈ Finset.range entries.length, entries[i]?.elim 0 SchedulerEntry.share := by
    rw [RoundRobin.Round.total, round, Finset.sum_filter]
    refine Finset.sum_congr rfl fun i _ => ?_
    cases found : entries[i]? with
    | none => simp
    | some entry => simp [weightAt, found, SchedulerEntry.share]
  rw [shares]
  clear shares
  induction entries with
  | nil => rfl
  | cons entry rest ih =>
    rw [List.length_cons, Finset.sum_range_succ']
    simp only [List.getElem?_cons_succ, List.getElem?_cons_zero, Option.elim_some]
    rw [← ih, totalWeight, totalWeight, SchedulerEntry.share]
    cases ready : entry.ready <;> simp [ready, add_comm]

theorem totalWeight_nonneg (entries : List SchedulerEntry) : 0 ≤ totalWeight entries := by
  refine List.sum_nonneg fun x member => ?_
  obtain ⟨entry, -, rfl⟩ := List.mem_map.mp member
  exact Int.natCast_nonneg _

def Same (before after : List SchedulerEntry) : Prop :=
  after.map (fun entry => (entry.id, entry.weight)) = before.map fun entry => (entry.id, entry.weight)

theorem Same.refl (entries : List SchedulerEntry) : Same entries entries := rfl

theorem Same.trans {first second third : List SchedulerEntry} (early : Same first second)
    (late : Same second third) : Same first third :=
  Eq.trans late early

theorem Same.length {before after : List SchedulerEntry} (same : Same before after) :
    after.length = before.length := by
  simpa using congrArg List.length same

theorem Same.getElem? {before after : List SchedulerEntry} (same : Same before after) (i : Nat) :
    after[i]?.map (fun entry => (entry.id, entry.weight)) =
      before[i]?.map fun entry => (entry.id, entry.weight) := by
  rw [← List.getElem?_map, ← List.getElem?_map, same]

theorem Same.weightAt {before after : List SchedulerEntry} (same : Same before after) :
    weightAt after = weightAt before := by
  funext i
  have pairs := congrArg (Option.elim · (0 : ℤ) fun pair => (pair.2.toNat : ℤ)) (same.getElem? i)
  simpa [Scheduler.weightAt, Function.comp_def] using pairs

theorem Same.idAt {before after : List SchedulerEntry} (same : Same before after) :
    idAt after = idAt before := by
  funext i
  simpa [Scheduler.idAt, Function.comp_def] using congrArg (Option.map Prod.fst) (same.getElem? i)

theorem Same.ids {before after : List SchedulerEntry} (same : Same before after) :
    after.map (·.id) = before.map (·.id) := by
  simpa [Function.comp_def] using congrArg (List.map Prod.fst) same

theorem same_set {changed : SchedulerEntry} (found : entries[i]? = some entry)
    (id : changed.id = entry.id) (weight : changed.weight = entry.weight) :
    Same entries (entries.set i changed) := by
  obtain ⟨inside, at_⟩ := List.getElem?_eq_some_iff.mp found
  refine List.ext_getElem (by simp) fun j _ _ => ?_
  simp only [List.getElem_map, List.getElem_set]
  split
  · case isTrue same =>
    subst same
    rw [id, weight, at_]
  · rfl

theorem change_cases (entries : List SchedulerEntry) (id : String)
    (f : SchedulerEntry → SchedulerEntry) :
    change entries id f = entries ∨ ∃ i entry, entries[i]? = some entry ∧ entry.id = id ∧
      change entries id f = entries.set i (f entry) := by
  induction entries with
  | nil => exact .inl rfl
  | cons first rest ih =>
    unfold change
    split
    · case isTrue same => exact .inr ⟨0, first, rfl, same, rfl⟩
    · rcases ih with same | ⟨i, entry, found, named, changed⟩
      · exact .inl (by rw [same])
      · exact .inr ⟨i + 1, entry, found, named, by rw [changed, List.set_cons_succ]⟩

theorem round_set {changed : SchedulerEntry} (inside : i < entries.length) (j : Nat) :
    (j ∈ (round (entries.set i changed)).ready ↔
      if j = i then changed.ready = true else j ∈ (round entries).ready) ∧
    (round (entries.set i changed)).credit j = if j = i then changed.credit else (round entries).credit j := by
  simp only [round, List.getElem?_set]
  by_cases same : i = j
  · subst same
    simp [inside]
  · simp [same, Ne.symm same]

theorem round_wake {changed : SchedulerEntry} (inside : i < entries.length)
    (ready : changed.ready = true) (credit : changed.credit = 0) :
    round (entries.set i changed) = (round entries).wake i := by
  ext j
  · rw [(round_set inside j).1]
    simp only [RoundRobin.Round.wake, Finset.mem_insert, ready]
    by_cases same : j = i <;> simp [same]
  · rw [(round_set inside j).2]
    simp only [RoundRobin.Round.wake, Function.update_apply, credit]

theorem round_rest {changed : SchedulerEntry} (inside : i < entries.length)
    (ready : changed.ready = false) (credit : changed.credit = 0) :
    round (entries.set i changed) = (round entries).rest i := by
  ext j
  · rw [(round_set inside j).1]
    simp only [RoundRobin.Round.rest, Finset.mem_erase, ready]
    by_cases same : j = i <;> simp [same]
  · rw [(round_set inside j).2]
    simp only [RoundRobin.Round.rest, Function.update_apply, credit]

/-! ### The leader -/

def Led (entries : List SchedulerEntry) (seen : List Nat) (best : Option (Nat × SchedulerEntry)) : Prop :=
  match best with
  | none => ∀ j ∈ seen, ∀ other, entries[j]? = some other → other.ready = false
  | some (i, leader) => entries[i]? = some leader ∧ leader.ready = true ∧
      ∀ j ∈ seen, ∀ other, entries[j]? = some other → other.ready = true → other.credit ≤ leader.credit

theorem choose_led {seen : List Nat} {best : Option (Nat × SchedulerEntry)} (order : List Nat)
    (led : Led entries seen best) : Led entries (seen ++ order) (choose entries best order) := by
  induction order generalizing seen best with
  | nil => simpa [choose] using led
  | cons index rest ih =>
    have split : seen ++ index :: rest = (seen ++ [index]) ++ rest := by simp
    -- what is known of the positions seen is extended by the one looked at now
    have extend : ∀ {property : SchedulerEntry → Prop},
        (∀ j ∈ seen, ∀ other, entries[j]? = some other → property other) →
        (∀ other, entries[index]? = some other → property other) →
        ∀ j ∈ seen ++ [index], ∀ other, entries[j]? = some other → property other := by
      intro property before now j member other found
      rcases List.mem_append.mp member with old | new
      · exact before j old other found
      · obtain rfl := List.mem_singleton.mp new
        exact now other found
    rw [split]
    unfold choose
    split
    · case h_1 entry found =>
      have this : ∀ other, entries[index]? = some other → other = entry :=
        fun other again => Option.some.inj (again.symm.trans found)
      split
      · case isTrue ready =>
        split
        · case h_1 leader =>
          obtain ⟨at_, leads, highest⟩ := led
          refine ih ?_
          split
          · case isTrue higher =>
            refine ⟨found, ready, extend (fun j member other there ready => ?_) fun other there _ => ?_⟩
            · exact (highest j member other there ready).trans higher
            · rw [this other there]
          · case isFalse lower =>
            refine ⟨at_, leads, extend highest fun other there _ => ?_⟩
            rw [this other there]
            exact (not_le.mp lower).le
        · refine ih ⟨found, ready, extend (fun j member other there ready => ?_) fun other there _ => ?_⟩
          · rw [led j member other there] at ready
            cases ready
          · rw [this other there]
      · case isFalse asleep =>
        refine ih ?_
        cases best with
        | none =>
          refine extend led fun other there => ?_
          rw [this other there]
          simpa using asleep
        | some best =>
          refine ⟨led.1, led.2.1, extend led.2.2 fun other there ready => ?_⟩
          rw [this other there] at ready
          exact absurd ready asleep
    · case h_2 missing =>
      refine ih ?_
      cases best with
      | none => exact extend led fun other there => by simp [missing] at there
      | some best =>
        exact ⟨led.1, led.2.1, extend led.2.2 fun other there => by simp [missing] at there⟩

theorem getElem?_credited (i : Nat) : (credited entries)[i]? = entries[i]?.map fun entry =>
    if entry.ready then { entry with credit := entry.credit + entry.weight.toNat } else entry := by
  rw [credited, List.getElem?_map]

theorem of_credited (found : (credited entries)[i]? = some entry) :
    ∃ before, entries[i]? = some before ∧ entry.id = before.id ∧ entry.weight = before.weight ∧
      entry.ready = before.ready ∧
      entry.credit = (round entries).earned (weightAt entries) i := by
  rw [getElem?_credited, Option.map_eq_some_iff] at found
  obtain ⟨before, there, rfl⟩ := found
  refine ⟨before, there, ?_⟩
  have member : i ∈ (round entries).ready ↔ before.ready = true := by
    rw [mem_ready]
    simp [there]
  rw [RoundRobin.Round.earned, credit_eq there, weightAt_eq there]
  by_cases ready : before.ready = true
  · rw [if_pos (member.mpr ready), if_pos ready]
    exact ⟨rfl, rfl, rfl, rfl⟩
  · rw [if_neg (fun ready' => ready (member.mp ready')), if_neg ready]
    exact ⟨rfl, rfl, rfl, rfl⟩

theorem to_credited (found : entries[i]? = some entry) : ∃ after, (credited entries)[i]? = some after ∧
    after.ready = entry.ready := by
  refine ⟨_, by rw [getElem?_credited, found, Option.map_some], ?_⟩
  split <;> rfl

theorem round_credited (entries : List SchedulerEntry) : round (credited entries) =
    { ready := (round entries).ready, credit := (round entries).earned (weightAt entries) } := by
  ext j
  · rw [mem_ready, mem_ready]
    constructor
    · rintro ⟨entry, at_, awake⟩
      obtain ⟨before, there, -, -, same, -⟩ := of_credited at_
      exact ⟨before, there, same ▸ awake⟩
    · rintro ⟨entry, at_, awake⟩
      obtain ⟨after, there, same⟩ := to_credited at_
      exact ⟨after, there, same ▸ awake⟩
  · cases at_ : (credited entries)[j]? with
    | none =>
      have missing : entries[j]? = none := by simpa [getElem?_credited] using at_
      simp [RoundRobin.Round.earned, round, at_, missing]
    | some entry =>
      obtain ⟨-, -, -, -, -, earned⟩ := of_credited at_
      rw [credit_eq at_, earned]

theorem credited_same (entries : List SchedulerEntry) : Same entries (credited entries) := by
  unfold Same credited
  rw [List.map_map]
  refine List.map_congr_left fun entry _ => ?_
  simp only [Function.comp_apply]
  split <;> rfl

theorem pickBy_leads {scheduler after : Scheduler} {order : List Nat} {id : String}
    (whole : order.Perm (List.range scheduler.entries.length))
    (picked : pickBy order scheduler = some (id, after)) :
    Same scheduler.entries after.entries ∧ ∃ i, idAt scheduler.entries i = some id ∧
      (round scheduler.entries).Leads (weightAt scheduler.entries) i ∧
      round after.entries = (round scheduler.entries).pay (weightAt scheduler.entries) i := by
  obtain ⟨⟨i, leader⟩, chosen, same⟩ := Option.map_eq_some_iff.mp picked
  obtain ⟨rfl, rfl⟩ := Prod.mk.inj same
  have nothing : Led (credited scheduler.entries) [] none := nofun
  have led := choose_led order nothing
  rw [chosen, List.nil_append] at led
  obtain ⟨found, ready, highest⟩ := led
  obtain ⟨before, there, named, weighted, readiness, credit⟩ := of_credited found
  have inside : i < (credited scheduler.entries).length := (List.getElem?_eq_some_iff.mp found).1
  refine ⟨(credited_same _).trans (same_set found rfl rfl), i, ?_, ?_, ?_⟩
  · rw [idAt_eq there, named]
  · have member : i ∈ (round scheduler.entries).ready :=
      mem_ready.mpr ⟨before, there, readiness ▸ ready⟩
    refine ⟨member, fun j other => ?_⟩
    obtain ⟨entry, at_, awake⟩ := mem_ready.mp other
    obtain ⟨after, later, same⟩ := to_credited at_
    have looked : j ∈ order := whole.mem_iff.mpr
      (List.mem_range.mpr (List.getElem?_eq_some_iff.mp at_).1)
    have below := highest j looked after later (same.trans awake)
    obtain ⟨-, -, -, -, -, earned⟩ := of_credited later
    rw [earned, credit, RoundRobin.earned_ready other, RoundRobin.earned_ready member] at below
    exact below
  · ext j
    · rw [(round_set inside j).1, round_credited]
      by_cases same : j = i
      · subst same
        simp only [if_true, ready, true_iff]
        exact mem_ready.mpr ⟨before, there, readiness ▸ ready⟩
      · simp only [same, if_false]
        rfl
    · rw [(round_set inside j).2, round_credited]
      change _ = if j = i then _ else _
      by_cases same : j = i
      · subst same
        simp only [if_true]
        rw [credit, totalWeight_eq]
      · simp only [same, if_false]

theorem pickBy_isSome {scheduler : Scheduler} {order : List Nat}
    (whole : order.Perm (List.range scheduler.entries.length))
    (awake : ∃ entry ∈ scheduler.entries, entry.ready = true) :
    ∃ id after, pickBy order scheduler = some (id, after) := by
  cases chosen : choose (credited scheduler.entries) none order with
  | some best => exact ⟨_, _, by rw [pickBy, chosen]; rfl⟩
  | none =>
    have nothing : Led (credited scheduler.entries) [] none := nofun
    have led := choose_led order nothing
    rw [chosen, List.nil_append] at led
    obtain ⟨entry, member, ready⟩ := awake
    obtain ⟨i, found⟩ := List.mem_iff_getElem?.mp member
    obtain ⟨after, there, same⟩ := to_credited found
    have looked : i ∈ order := whole.mem_iff.mpr
      (List.mem_range.mpr (List.getElem?_eq_some_iff.mp found).1)
    have asleep := led i looked after there
    rw [same, ready] at asleep
    cases asleep

theorem rotation_perm (scheduler : Scheduler) :
    scheduler.rotation.Perm (List.range scheduler.entries.length) := by
  unfold rotation
  generalize scheduler.entries.length = n
  rcases Nat.eq_zero_or_pos n with rfl | positive
  · exact List.Perm.refl _
  · have inside : ∀ j ∈ (List.range n).map fun offset => (scheduler.cursor + offset) % n, j < n := by
      intro j member
      obtain ⟨offset, -, rfl⟩ := List.mem_map.mp member
      exact Nat.mod_lt _ positive
    have distinct : ((List.range n).map fun offset => (scheduler.cursor + offset) % n).Nodup := by
      refine (List.nodup_map_iff_inj_on List.nodup_range).mpr fun a left b right same => ?_
      have close : Nat.ModEq n a b := Nat.ModEq.add_left_cancel' scheduler.cursor same
      rwa [Nat.ModEq, Nat.mod_eq_of_lt (List.mem_range.mp left),
        Nat.mod_eq_of_lt (List.mem_range.mp right)] at close
    refine (List.subperm_of_subset distinct fun j member => ?_).perm_of_length_le (by simp)
    exact List.mem_range.mpr (inside j member)

/-! ### Shares -/

inductive PicksBy : Scheduler → List String → Scheduler → Prop where
  | nil {s : Scheduler} : PicksBy s [] s
  | cons {s t u : Scheduler} {order : List Nat} {id : String} {later : List String} :
      order.Perm (List.range s.entries.length) → pickBy order s = some (id, t) → PicksBy t later u →
      PicksBy s (id :: later) u

def picks : Nat → Scheduler → Option (List String × Scheduler)
  | 0, s => some ([], s)
  | n + 1, s => s.pick.bind fun (id, t) => (picks n t).map fun (later, u) => (id :: later, u)

theorem idAt_inj {j : Nat} {id : String} (distinct : (entries.map (·.id)).Nodup)
    (left : idAt entries i = some id) (right : idAt entries j = some id) : i = j := by
  have same : (entries.map (·.id))[i]? = (entries.map (·.id))[j]? := by
    rw [List.getElem?_map, List.getElem?_map]
    exact left.trans right.symm
  have inside : i < (entries.map (·.id)).length := by
    obtain ⟨entry, found, -⟩ := Option.map_eq_some_iff.mp left
    simpa using (List.getElem?_eq_some_iff.mp found).1
  exact (List.getElem?_inj inside distinct).mp same

theorem PicksBy.positions {s t : Scheduler} {ids : List String} (picks : PicksBy s ids t) :
    Same s.entries t.entries ∧ ∃ positions, positions.map (idAt s.entries) = ids.map some ∧
      RoundRobin.Picks (weightAt s.entries) (round s.entries) positions (round t.entries) := by
  induction picks with
  | nil => exact ⟨.refl _, [], rfl, .nil⟩
  | cons whole picked _ ih =>
    obtain ⟨later, positions, named, run⟩ := ih
    obtain ⟨same, i, here, leads, paid⟩ := pickBy_leads whole picked
    rw [same.idAt] at named
    rw [same.weightAt, paid] at run
    exact ⟨same.trans later, i :: positions, by simp [here, named], .cons leads run⟩

theorem count_position {ids : List String} {positions : List Nat} {id : String}
    (distinct : (entries.map (·.id)).Nodup) (named : positions.map (idAt entries) = ids.map some)
    (here : idAt entries i = some id) : ids.count id = positions.count i := by
  have lifted : ids.count id = (ids.map some).count (some id) :=
    (List.count_map_of_injective ids some (Option.some_injective String) id).symm
  rw [lifted, ← named, List.count_eq_countP, List.countP_map, List.count_eq_countP]
  refine List.countP_congr fun j _ => ?_
  simp only [Function.comp_apply, beq_iff_eq]
  constructor
  · exact fun there => idAt_inj distinct there here
  · rintro rfl
    exact here

theorem entries_eq {before after : List SchedulerEntry} (same : Same before after)
    (rounds : round after = round before) : after = before := by
  refine List.ext_getElem? fun i => ?_
  have pair := same.getElem? i
  cases left : after[i]? with
  | none =>
    rw [left] at pair
    exact (Option.map_eq_none_iff.mp pair.symm).symm
  | some entry =>
    rw [left, Option.map_some] at pair
    obtain ⟨other, right, equal⟩ := Option.map_eq_some_iff.mp pair.symm
    have credit : entry.credit = other.credit := by
      rw [← credit_eq left, ← credit_eq right, rounds]
    have ready : entry.ready = true ↔ other.ready = true := by
      have member : i ∈ (round after).ready ↔ i ∈ (round before).ready := by rw [rounds]
      simpa [mem_ready, left, right] using member
    rw [right]
    obtain ⟨name, weight, ready₁, credit₁⟩ := entry
    obtain ⟨name', weight', ready₂, credit₂⟩ := other
    obtain ⟨rfl, rfl⟩ := Prod.mk.inj equal
    obtain rfl : credit₁ = credit₂ := credit
    obtain rfl : ready₁ = ready₂ := Bool.eq_iff_iff.mpr ready
    rfl

theorem PicksBy.block {s t : Scheduler} {ids : List String}
    (distinct : (s.entries.map (·.id)).Nodup)
    (positive : ∀ entry ∈ s.entries, entry.ready = true → 0 < entry.weight)
    (clear : ∀ entry ∈ s.entries, entry.credit = 0) (picks : PicksBy s ids t)
    (long : (ids.length : ℤ) = totalWeight s.entries) :
    t.entries = s.entries ∧ ∀ entry ∈ s.entries,
      ids.count entry.id = if entry.ready then entry.weight.toNat else 0 := by
  obtain ⟨same, positions, named, run⟩ := picks.positions
  have weights : ∀ i ∈ (round s.entries).ready, 0 < weightAt s.entries i := by
    intro i member
    obtain ⟨entry, found, ready⟩ := mem_ready.mp member
    rw [weightAt_eq found]
    exact_mod_cast positive entry (List.mem_of_getElem? found) ready
  have zero : ∀ i, (round s.entries).credit i = 0 := by
    intro i
    cases found : s.entries[i]? with
    | none => simp [round, found]
    | some entry => rw [credit_eq found, clear entry (List.mem_of_getElem? found)]
  have length : (positions.length : ℤ) = (round s.entries).total (weightAt s.entries) := by
    have sizes := congrArg List.length named
    rw [List.length_map, List.length_map] at sizes
    rw [sizes, long, totalWeight_eq]
  have shares := fun i (member : i ∈ (round s.entries).ready) =>
    run.shares weights (fun i _ => zero i) length member
  refine ⟨entries_eq same ?_, fun entry member => ?_⟩
  · ext i
    · rw [run.ready]
    · by_cases member : i ∈ (round s.entries).ready
      · rw [(shares i member).2, zero i]
      · exact (run.asleep member).2
  · obtain ⟨i, found⟩ := List.mem_iff_getElem?.mp member
    rw [count_position distinct named (idAt_eq found)]
    split
    · case isTrue ready =>
      have share := (shares i (mem_ready.mpr ⟨entry, found, ready⟩)).1
      rw [weightAt_eq found] at share
      exact_mod_cast share
    · case isFalse asleep =>
      refine List.count_eq_zero.mpr (run.asleep fun ready => ?_).1
      obtain ⟨other, there, awake⟩ := mem_ready.mp ready
      obtain rfl := Option.some.inj (found.symm.trans there)
      exact asleep awake

theorem PicksBy.split {s u : Scheduler} {ids : List String} (picks : PicksBy s ids u) (n : Nat) :
    ∃ t, PicksBy s (ids.take n) t ∧ PicksBy t (ids.drop n) u := by
  induction picks generalizing n with
  | nil =>
    rw [List.take_nil, List.drop_nil]
    exact ⟨_, .nil, .nil⟩
  | cons whole picked later ih =>
    cases n with
    | zero => exact ⟨_, .nil, .cons whole picked later⟩
    | succ n =>
      obtain ⟨t, first, rest⟩ := ih n
      exact ⟨t, .cons whole picked first, rest⟩

theorem PicksBy.blocks {s t : Scheduler} {ids : List String}
    (distinct : (s.entries.map (·.id)).Nodup)
    (positive : ∀ entry ∈ s.entries, entry.ready = true → 0 < entry.weight)
    (clear : ∀ entry ∈ s.entries, entry.credit = 0) (picks : PicksBy s ids t) {k : Nat}
    (long : (ids.length : ℤ) = k * totalWeight s.entries) : t.entries = s.entries := by
  induction k generalizing s ids with
  | zero =>
    have empty : ids = [] := by simpa using long
    subst empty
    cases picks
    rfl
  | succ k ih =>
    have weight := totalWeight_nonneg s.entries
    obtain ⟨middle, first, rest⟩ := picks.split (totalWeight s.entries).toNat
    have enough : (totalWeight s.entries).toNat ≤ ids.length := by
      have : totalWeight s.entries ≤ ids.length := by
        rw [long]
        push_cast
        nlinarith
      omega
    have whole := first.block distinct positive clear (by
      rw [List.length_take, Nat.min_eq_left enough]
      omega)
    rw [← whole.1]
    refine ih (whole.1.symm ▸ distinct) (whole.1.symm ▸ positive) (whole.1.symm ▸ clear) rest ?_
    rw [whole.1, List.length_drop, Nat.cast_sub enough, long]
    push_cast
    rw [Int.toNat_of_nonneg weight]
    ring

theorem picks_picksBy {s : Scheduler} (awake : ∃ entry ∈ s.entries, entry.ready = true) (n : Nat) :
    ∃ ids t, picks n s = some (ids, t) ∧ ids.length = n ∧ PicksBy s ids t := by
  induction n generalizing s with
  | zero => exact ⟨[], s, rfl, rfl, .nil⟩
  | succ n ih =>
    obtain ⟨id, t, picked⟩ := pickBy_isSome s.rotation_perm awake
    obtain ⟨same, i, -, leads, paid⟩ := pickBy_leads s.rotation_perm picked
    have still : ∃ entry ∈ t.entries, entry.ready = true := by
      have member : i ∈ (round t.entries).ready := by
        rw [paid]
        exact leads.ready
      obtain ⟨entry, found, ready⟩ := mem_ready.mp member
      exact ⟨entry, List.mem_of_getElem? found, ready⟩
    obtain ⟨later, u, ran, length, run⟩ := ih still
    refine ⟨id :: later, u, ?_, congrArg Nat.succ length, .cons s.rotation_perm picked run⟩
    rw [picks, pick_eq, picked, Option.bind_some]
    simp [ran]

/-- From credits that are all zero and with the ready subscriptions unchanged, every block of as
many picks as their total weight `W` (the first `W` picks, the next `W`, and so on) chooses each
ready subscription as many times as its weight and clears all credits again, whatever the order in
which ties are looked at; and `pick` makes such picks. -/
theorem picks_in_proportion {s : Scheduler} (distinct : (s.entries.map (·.id)).Nodup)
    (positive : ∀ entry ∈ s.entries, entry.ready = true → 0 < entry.weight)
    (clear : ∀ entry ∈ s.entries, entry.credit = 0) :
    (∀ {k : Nat} {before block : List String} {t u : Scheduler}, PicksBy s before t →
      PicksBy t block u → (before.length : ℤ) = k * totalWeight s.entries →
      (block.length : ℤ) = totalWeight s.entries →
      (∀ entry ∈ s.entries, block.count entry.id = if entry.ready then entry.weight.toNat else 0) ∧
        ∀ entry ∈ u.entries, entry.credit = 0) ∧
    ∀ n, (∃ entry ∈ s.entries, entry.ready = true) →
      ∃ ids t, picks n s = some (ids, t) ∧ ids.length = n ∧ PicksBy s ids t := by
  refine ⟨?_, fun n awake => picks_picksBy awake n⟩
  intro k before block t u early late whole long
  have same := early.blocks distinct positive clear whole
  obtain ⟨again, shares⟩ := late.block (same.symm ▸ distinct) (same.symm ▸ positive)
    (same.symm ▸ clear) (same.symm ▸ long)
  rw [same] at again shares
  exact ⟨shares, again.symm ▸ clear⟩

def mailAndLogs : Scheduler where
  entries := [{ id := "mail", weight := 3, ready := true }, { id := "logs", weight := 1, ready := true }]

theorem four_picks_in_proportion : ∃ ids t, mailAndLogs.picks 4 = some (ids, t) ∧
    ids.count "mail" = 3 ∧ ids.count "logs" = 1 ∧ ∀ entry ∈ t.entries, entry.credit = 0 := by
  obtain ⟨blocks, picking⟩ := picks_in_proportion (s := mailAndLogs) (by decide) (by decide) (by decide)
  obtain ⟨ids, t, ran, length, run⟩ := picking 4 ⟨_, List.mem_cons_self, rfl⟩
  obtain ⟨shares, clear⟩ := blocks (k := 0) .nil run (by simp) (by rw [length]; decide)
  exact ⟨ids, t, ran, shares _ List.mem_cons_self,
    shares _ (List.mem_cons_of_mem _ List.mem_cons_self), clear⟩

def twoAlike : Scheduler where
  entries := [{ id := "a", weight := 1, ready := true }, { id := "b", weight := 1, ready := true }]

/-- Between two blocks that start from all-zero credits, two picks in a row choose the same
subscription of two that weigh the same. -/
theorem second_and_third_pick_alike : (∀ entry ∈ twoAlike.entries, entry.credit = 0) ∧
    totalWeight twoAlike.entries = 2 ∧
    ∃ t u, twoAlike.picks 1 = some (["b"], t) ∧ t.picks 2 = some (["a", "a"], u) :=
  ⟨by decide, by decide, _, _, rfl, rfl⟩

/-! ### Subscriptions that come and go -/

inductive Op where
  | markReady (id : String)
  | markEmpty (id : String)
  | pick
  deriving DecidableEq

def apply (s : Scheduler) : Op → Scheduler
  | .markReady id => s.markReady id
  | .markEmpty id => s.markEmpty id
  | .pick => (s.pick.map Prod.snd).getD s

def applyAll (s : Scheduler) (ops : List Op) : Scheduler := ops.foldl apply s

def served (s : Scheduler) : List Op → List String
  | [] => []
  | op :: rest =>
    match op with
    | .pick => (s.pick.map Prod.fst).toList ++ served (s.apply .pick) rest
    | _ => served (s.apply op) rest

def registered (subs : List (String × UInt16)) : Scheduler :=
  subs.foldl (fun s sub => s.register sub.1 sub.2) {}

/-- What an operation does in terms of the round. -/
inductive Moves (s t : Scheduler) : Op → Prop where
  | kept {op : Op} : (op = .pick → s.pick = none) → t.entries = s.entries → Moves s t op
  | wake {id : String} {i : Nat} : i ∉ (round s.entries).ready →
      round t.entries = (round s.entries).wake i → Moves s t (.markReady id)
  | rest {id : String} {i : Nat} : idAt s.entries i = some id →
      round t.entries = (round s.entries).rest i → Moves s t (.markEmpty id)
  | pick {id : String} {i : Nat} : s.pick = some (id, t) → idAt s.entries i = some id →
      (round s.entries).Leads (weightAt s.entries) i →
      round t.entries = (round s.entries).pay (weightAt s.entries) i → Moves s t .pick

theorem apply_moves (s : Scheduler) (op : Op) :
    Same s.entries (s.apply op).entries ∧ Moves s (s.apply op) op := by
  cases op with
  | markReady id =>
    rcases change_cases s.entries id (fun entry =>
      if entry.ready then entry else { entry with ready := true, credit := 0 }) with
      same | ⟨i, entry, found, named, changed⟩
    · exact ⟨congrArg (List.map _) same, .kept nofun same⟩
    · by_cases ready : entry.ready = true
      · have same : (s.markReady id).entries = s.entries := by
          refine changed.trans ?_
          rw [if_pos ready]
          obtain ⟨inside, rfl⟩ := List.getElem?_eq_some_iff.mp found
          exact List.set_getElem_self inside
        exact ⟨congrArg (List.map _) same, .kept nofun same⟩
      · rw [if_neg ready] at changed
        have woken : (s.markReady id).entries =
          s.entries.set i { entry with ready := true, credit := 0 } := changed
        have inside := (List.getElem?_eq_some_iff.mp found).1
        refine ⟨?_, .wake (i := i) ?_ ?_⟩
        · change Same s.entries (s.markReady id).entries
          rw [woken]
          exact same_set found rfl rfl
        · rw [mem_ready]
          rintro ⟨other, there, awake⟩
          obtain rfl := Option.some.inj (found.symm.trans there)
          exact ready awake
        · change round (s.markReady id).entries = _
          rw [woken]
          exact round_wake inside rfl rfl
  | markEmpty id =>
    rcases change_cases s.entries id (fun entry => { entry with ready := false, credit := 0 }) with
      same | ⟨i, entry, found, named, changed⟩
    · exact ⟨congrArg (List.map _) same, .kept nofun same⟩
    · have rested : (s.markEmpty id).entries =
        s.entries.set i { entry with ready := false, credit := 0 } := changed
      have inside := (List.getElem?_eq_some_iff.mp found).1
      refine ⟨?_, .rest (i := i) (named ▸ idAt_eq found) ?_⟩
      · change Same s.entries (s.markEmpty id).entries
        rw [rested]
        exact same_set found rfl rfl
      · change round (s.markEmpty id).entries = _
        rw [rested]
        exact round_rest inside rfl rfl
  | pick =>
    cases picked : s.pick with
    | none =>
      have same : s.apply .pick = s := by simp [apply, picked]
      rw [same]
      exact ⟨.refl _, .kept (fun _ => picked) rfl⟩
    | some result =>
      obtain ⟨id, t⟩ := result
      have after : s.apply .pick = t := by simp [apply, picked]
      obtain ⟨same, i, named, leads, paid⟩ := pickBy_leads s.rotation_perm picked
      rw [after]
      exact ⟨same, .pick picked named leads paid⟩

theorem Moves.step {s t : Scheduler} {op : Op} (moves : Moves s t op) : round t.entries = round s.entries ∨
      ∃ act, RoundRobin.Step (weightAt s.entries) (round s.entries) act (round t.entries) := by
  cases moves with
  | kept _ same => exact .inl (congrArg round same)
  | wake asleep woken =>
    rw [woken]
    exact .inr ⟨_, .wake asleep⟩
  | rest _ rested =>
    rw [rested]
    exact .inr ⟨_, .rest⟩
  | pick _ _ leads paid =>
    rw [paid]
    exact .inr ⟨_, .pick leads⟩

structure Held (w : Nat) (entries : List SchedulerEntry) : Prop where
  weights : ∀ entry ∈ entries, 0 < entry.weight.toNat ∧ entry.weight.toNat ≤ w
  bounded : RoundRobin.Bounded (entries.length * w) entries.length (round entries)
  idle : ∀ i ∉ (round entries).ready, (round entries).credit i = 0

theorem weightAt_bounds {w : Nat}
    (weights : ∀ entry ∈ entries, 0 < entry.weight.toNat ∧ entry.weight.toNat ≤ w)
    (ready : i ∈ (round entries).ready) : 0 < weightAt entries i ∧ weightAt entries i ≤ w := by
  obtain ⟨entry, found, -⟩ := mem_ready.mp ready
  rw [weightAt_eq found]
  exact_mod_cast weights entry (List.mem_of_getElem? found)

theorem total_le {w : Nat}
    (weights : ∀ entry ∈ entries, 0 < entry.weight.toNat ∧ entry.weight.toNat ≤ w) :
    (round entries).total (weightAt entries) ≤ entries.length * w := by
  have each : ∑ i ∈ (round entries).ready, weightAt entries i ≤ (round entries).ready.card • (w : ℤ) :=
    Finset.sum_le_card_nsmul _ _ _ fun i ready => (weightAt_bounds weights ready).2
  have few : ((round entries).ready.card : ℤ) ≤ entries.length := by exact_mod_cast ready_card_le
  rw [nsmul_eq_mul] at each
  exact each.trans (mul_le_mul_of_nonneg_right few (Int.natCast_nonneg w))

theorem Same.weights {before after : List SchedulerEntry} (same : Same before after)
    (property : UInt16 → Prop) (holds : ∀ entry ∈ before, property entry.weight) :
    ∀ entry ∈ after, property entry.weight := by
  intro entry member
  have pair : (entry.id, entry.weight) ∈ after.map fun entry => (entry.id, entry.weight) :=
    List.mem_map_of_mem member
  rw [same] at pair
  obtain ⟨other, there, equal⟩ := List.mem_map.mp pair
  rw [← (Prod.mk.inj equal).2]
  exact holds other there

theorem Held.apply {s : Scheduler} {w : Nat} (held : Held w s.entries) (op : Op) :
    Held w (s.apply op).entries := by
  obtain ⟨same, moves⟩ := apply_moves s op
  have length := same.length
  refine ⟨same.weights (fun weight => 0 < weight.toNat ∧ weight.toNat ≤ w) held.weights, ?_, ?_⟩
  · rw [length]
    rcases moves.step with kept | ⟨act, step⟩
    · rw [kept]
      exact held.bounded
    · refine step.bounded held.bounded (fun i ready => ?_) ?_ (total_le held.weights) ?_
      · exact (weightAt_bounds held.weights ready).1.le
      · positivity
      · rw [← length]
        exact ready_card_le
  · rcases moves.step with kept | ⟨act, step⟩
    · rw [kept]
      exact held.idle
    · exact step.idle held.idle

theorem Held.applyAll {s : Scheduler} {w : Nat} (held : Held w s.entries) (ops : List Op) :
    Held w (s.applyAll ops).entries := by
  induction ops generalizing s with
  | nil => exact held
  | cons op rest ih => exact ih (held.apply op)

theorem applyAll_length (s : Scheduler) (ops : List Op) :
    (s.applyAll ops).entries.length = s.entries.length := by
  induction ops generalizing s with
  | nil => rfl
  | cons op rest ih => exact (ih (s.apply op)).trans (apply_moves s op).1.length

theorem Moves.earns {s t : Scheduler} {op : Op} {id : String} {v : Nat} (moves : Moves s t op)
    (here : idAt s.entries v = some id) (ready : v ∈ (round s.entries).ready)
    (kept : op ≠ .markEmpty id)
    (unserved : op = .pick → ∀ u, s.pick ≠ some (id, u)) :
    v ∈ (round t.entries).ready ∧ (round t.entries).credit v =
      (round s.entries).credit v + if op = .pick then weightAt s.entries v else 0 := by
  cases moves with
  | kept idle same =>
    have other : op ≠ .pick := by
      intro pick
      obtain ⟨entry, found, awake⟩ := mem_ready.mp ready
      obtain ⟨_, _, picked⟩ := pickBy_isSome s.rotation_perm
        ⟨entry, List.mem_of_getElem? found, awake⟩
      rw [← pick_eq, idle pick] at picked
      cases picked
    rw [same, if_neg other]
    exact ⟨ready, (add_zero _).symm⟩
  | @wake _ i asleep woken =>
    have step : RoundRobin.Step (weightAt s.entries) (round s.entries) (.wake i)
      ((round s.entries).wake i) := .wake asleep
    rw [woken]
    exact step.earns ready nofun nofun
  | @rest emptied i named rested =>
    have step : RoundRobin.Step (weightAt s.entries) (round s.entries) (.rest i)
      ((round s.entries).rest i) := .rest
    rw [rested]
    refine step.earns ready nofun fun same => ?_
    obtain rfl := RoundRobin.Act.rest.inj same
    exact kept (congrArg Op.markEmpty (Option.some.inj (named.symm.trans here)))
  | @pick chosen i picked named leads paid =>
    rw [paid]
    refine (RoundRobin.Step.pick leads).earns ready (fun same => ?_) nofun
    obtain rfl := RoundRobin.Act.pick.inj same
    obtain rfl := Option.some.inj (named.symm.trans here)
    exact unserved rfl t picked

theorem waiting_earns {s : Scheduler} {id : String} {v : Nat} (ops : List Op)
    (here : idAt s.entries v = some id) (ready : v ∈ (round s.entries).ready)
    (kept : Op.markEmpty id ∉ ops) (unserved : id ∉ s.served ops) :
    v ∈ (round (s.applyAll ops).entries).ready ∧ (round (s.applyAll ops).entries).credit v =
      (round s.entries).credit v + ops.count .pick * weightAt s.entries v := by
  induction ops generalizing s with
  | nil => exact ⟨ready, by simp [applyAll]⟩
  | cons op rest ih =>
    obtain ⟨same, moves⟩ := apply_moves s op
    have now : op = .pick → ∀ u, s.pick ≠ some (id, u) := by
      rintro rfl u picked
      refine unserved (List.mem_append_left _ ?_)
      simp [picked]
    have later : id ∉ (s.apply op).served rest := by
      cases op with
      | pick => exact fun member => unserved (List.mem_append_right _ member)
      | markReady _ | markEmpty _ => exact unserved
    obtain ⟨still, credit⟩ := moves.earns here ready
      (fun same => kept (same ▸ List.mem_cons_self)) now
    obtain ⟨ends, earned⟩ := ih (same.idAt ▸ here) still
      (fun member => kept (List.mem_cons_of_mem _ member)) later
    refine ⟨ends, earned.trans ?_⟩
    rw [credit, same.weightAt, List.count_cons]
    by_cases pick : op = .pick
    · simp only [pick, if_true, beq_self_eq_true]
      push_cast
      ring
    · have other : (op == Op.pick) = false := by simpa using pick
      simp only [pick, if_false, other, Bool.false_eq_true]
      push_cast
      ring

/-! ### Registration -/

def Fresh (w : Nat) (entry : SchedulerEntry) : Prop :=
  (0 < entry.weight.toNat ∧ entry.weight.toNat ≤ w) ∧ entry.ready = false ∧ entry.credit = 0

theorem register_cases {s : Scheduler} {id : String} {weight : UInt16}
    (member : entry ∈ (s.register id weight).entries) : entry ∈ s.entries ∨ entry.weight = weight ∧
      ((∃ old ∈ s.entries, entry.ready = old.ready ∧ entry.credit = old.credit) ∨
        entry.ready = false ∧ entry.credit = 0) := by
  unfold register at member
  split at member
  · rcases change_cases s.entries id (fun entry => { entry with weight }) with
      same | ⟨i, changed, found, -, set⟩
    · simp only [same] at member
      exact .inl member
    · simp only [set] at member
      rcases List.mem_or_eq_of_mem_set member with old | rfl
      · exact .inl old
      · exact .inr ⟨rfl, .inl ⟨changed, List.mem_of_getElem? found, rfl, rfl⟩⟩
  · rcases List.mem_append.mp member with old | new
    · exact .inl old
    · obtain rfl := List.mem_singleton.mp new
      exact .inr ⟨rfl, .inr ⟨rfl, rfl⟩⟩

theorem register_fresh {s : Scheduler} {w : Nat} {id : String} {weight : UInt16}
    (fresh : ∀ entry ∈ s.entries, Fresh w entry) (weighs : 0 < weight.toNat ∧ weight.toNat ≤ w) :
    ∀ entry ∈ (s.register id weight).entries, Fresh w entry := by
  intro entry member
  rcases register_cases member with old | ⟨rfl, ⟨old, there, ready, credit⟩ | plain⟩
  · exact fresh entry old
  · exact ⟨weighs, ready.trans (fresh old there).2.1, credit.trans (fresh old there).2.2⟩
  · exact ⟨weighs, plain⟩

theorem registered_fresh {subs : List (String × UInt16)} {w : Nat}
    (weights : ∀ sub ∈ subs, 0 < sub.2.toNat ∧ sub.2.toNat ≤ w) :
    ∀ entry ∈ (registered subs).entries, Fresh w entry := by
  have grows : ∀ s : Scheduler, (∀ entry ∈ s.entries, Fresh w entry) →
      ∀ entry ∈ (subs.foldl (fun s sub => s.register sub.1 sub.2) s).entries, Fresh w entry := by
    induction subs with
    | nil => exact fun _ fresh => fresh
    | cons sub rest ih =>
      obtain ⟨weighs, others⟩ := List.forall_mem_cons.mp weights
      exact fun s fresh => ih others _ (register_fresh fresh weighs)
  exact grows {} nofun

theorem registered_held {subs : List (String × UInt16)} {w : Nat}
    (weights : ∀ sub ∈ subs, 0 < sub.2.toNat ∧ sub.2.toNat ≤ w) : Held w (registered subs).entries := by
  have plain := registered_fresh weights
  have none : (round (registered subs).entries).ready = ∅ := by
    refine Finset.eq_empty_of_forall_notMem fun i member => ?_
    obtain ⟨entry, found, ready⟩ := mem_ready.mp member
    rw [(plain entry (List.mem_of_getElem? found)).2.1] at ready
    cases ready
  refine ⟨fun entry member => (plain entry member).1, ⟨?_, ?_⟩, fun i _ => ?_⟩
  · intro group inside
    rw [none, Finset.subset_empty] at inside
    simp [inside, RoundRobin.slack_zero]
  · intro group inside
    rw [none, Finset.subset_empty] at inside
    simp [inside, RoundRobin.slack_zero]
  · cases found : (registered subs).entries[i]? with
    | none => simp [round, found]
    | some entry => rw [credit_eq found, (plain entry (List.mem_of_getElem? found)).2.2]

/-- The most a credit can be away from zero with `n` subscriptions of weight at most `w`. -/
def creditBound (n w : Nat) : ℤ := n * w * (2 * n - 1)

def waitBound (n w : Nat) : ℤ := 2 * creditBound n w + 1

theorem Held.credit_le {w : Nat} (held : Held w entries) (entry : SchedulerEntry)
    (member : entry ∈ entries) : |entry.credit| ≤ creditBound entries.length w := by
  obtain ⟨i, found⟩ := List.mem_iff_getElem?.mp member
  rw [← credit_eq found]
  have bound : RoundRobin.slack (entries.length * w) entries.length 1 = creditBound entries.length w := by
    simp [RoundRobin.slack, creditBound]
  by_cases ready : i ∈ (round entries).ready
  · rw [← bound]
    exact held.bounded.credit_le ready
  · have some : (1 : ℤ) ≤ entries.length := by
      exact_mod_cast Nat.one_le_of_lt (List.getElem?_eq_some_iff.mp found).1
    rw [held.idle i ready, abs_zero, creditBound]
    exact mul_nonneg (by positivity) (by linarith)

/-- For every sequence of `mark_ready`, `mark_empty` and `pick` on `n` registered subscriptions of
weight at most `w`: all credits, those computed during a pick included, stay within bounds in `n`
and `w`; and from any point on, a ready subscription that is not marked empty is served within
`waitBound n w` picks, whatever happens to the others. -/
theorem credits_bounded_and_served {subs : List (String × UInt16)} {w : Nat}
    (weights : ∀ sub ∈ subs, 0 < sub.2.toNat ∧ sub.2.toNat ≤ w) (ops : List Op) :
    (∀ entry ∈ ((registered subs).applyAll ops).entries,
      |entry.credit| ≤ creditBound (registered subs).entries.length w) ∧
    (∀ entry ∈ credited ((registered subs).applyAll ops).entries,
      |entry.credit| ≤ creditBound (registered subs).entries.length w + w) ∧
    totalWeight ((registered subs).applyAll ops).entries ≤ (registered subs).entries.length * w ∧
    ∀ {id : String} {later : List Op},
      (∃ entry ∈ ((registered subs).applyAll ops).entries, entry.id = id ∧ entry.ready = true) →
      .markEmpty id ∉ later →
      waitBound (registered subs).entries.length w ≤ later.count .pick →
      id ∈ ((registered subs).applyAll ops).served later := by
  have held := (registered_held weights).applyAll ops
  have length := applyAll_length (registered subs) ops
  refine ⟨length ▸ held.credit_le, fun entry member => ?_, ?_, ?_⟩
  · obtain ⟨before, there, rfl⟩ := List.mem_map.mp member
    have bound := abs_le.mp (held.credit_le before there)
    have weight := held.weights before there
    rw [length] at bound
    refine abs_le.mpr ?_
    split
    · constructor <;> dsimp only <;> omega
    · constructor <;> omega
  · rw [totalWeight_eq, ← length]
    exact total_le held.weights
  · rintro id later ⟨entry, member, rfl, ready⟩ kept long
    by_contra unserved
    obtain ⟨v, found⟩ := List.mem_iff_getElem?.mp member
    have awake : v ∈ (round ((registered subs).applyAll ops).entries).ready :=
      mem_ready.mpr ⟨entry, found, ready⟩
    obtain ⟨still, earned⟩ := waiting_earns later (idAt_eq found) awake kept unserved
    obtain ⟨after, there, -⟩ := mem_ready.mp still
    have start := abs_le.mp (held.credit_le entry member)
    have end_ := abs_le.mp ((held.applyAll later).credit_le after (List.mem_of_getElem? there))
    rw [applyAll_length] at end_
    rw [credit_eq there, credit_eq found] at earned
    have positive := (weightAt_bounds held.weights awake).1
    have picks : (later.count Op.pick : ℤ) ≤ later.count Op.pick *
        weightAt ((registered subs).applyAll ops).entries v :=
      le_mul_of_one_le_right (Int.natCast_nonneg _) positive
    rw [← length, waitBound] at long
    linarith [start.1, end_.2]

def restlessMail : List Op :=
  (List.replicate 37 [Op.pick, .markEmpty "mail", .markReady "mail"]).flatten

theorem logs_served_beside_restless_mail : "logs" ∈ ((registered [("mail", 3), ("logs", 1)]).applyAll
      [.markReady "mail", .markReady "logs"]).served restlessMail :=
  (credits_bounded_and_served (w := 3) (by decide) [.markReady "mail", .markReady "logs"]).2.2.2
    (by decide) (by decide) (by decide)

end Scheduler

end RabbitRs.Consumer
