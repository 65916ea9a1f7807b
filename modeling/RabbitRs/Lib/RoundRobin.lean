import Mathlib.Algebra.BigOperators.Ring.Finset
import Mathlib.Algebra.Order.BigOperators.Group.Finset
import Mathlib.Tactic.Linarith
import Mathlib.Tactic.Ring

/-!
Smooth weighted round robin: every ready item earns its weight, and the one with the highest credit
pays the total. Ties are broken in any way; items may fall asleep and wake up, which clears their
credit.
-/

namespace RoundRobin

open Finset

universe u

variable {Item : Type u} [DecidableEq Item]

@[ext]
structure Round (Item : Type u) where
  ready : Finset Item
  credit : Item → ℤ

inductive Act (Item : Type u) where
  | pick (item : Item)
  | wake (item : Item)
  | rest (item : Item)

section

variable (weight : Item → ℤ) (s : Round Item)

def Round.total : ℤ := ∑ i ∈ s.ready, weight i

def Round.earned (i : Item) : ℤ := if i ∈ s.ready then s.credit i + weight i else s.credit i

structure Round.Leads (i : Item) : Prop where
  ready : i ∈ s.ready
  highest : ∀ j ∈ s.ready, s.credit j + weight j ≤ s.credit i + weight i

def Round.pay (i : Item) : Round Item where
  ready := s.ready
  credit j := if j = i then s.earned weight j - s.total weight else s.earned weight j

def Round.wake (i : Item) : Round Item where
  ready := insert i s.ready
  credit := Function.update s.credit i 0

def Round.rest (i : Item) : Round Item where
  ready := s.ready.erase i
  credit := Function.update s.credit i 0

end

def Act.isPick : Act Item → Bool
  | .pick _ => true
  | .wake _ | .rest _ => false

inductive Step (weight : Item → ℤ) : Round Item → Act Item → Round Item → Prop where
  | pick {s : Round Item} {i : Item} : s.Leads weight i → Step weight s (.pick i) (s.pay weight i)
  | wake {s : Round Item} {i : Item} : i ∉ s.ready → Step weight s (.wake i) (s.wake i)
  | rest {s : Round Item} {i : Item} : Step weight s (.rest i) (s.rest i)

inductive Picks (weight : Item → ℤ) : Round Item → List Item → Round Item → Prop where
  | nil {s : Round Item} : Picks weight s [] s
  | cons {s t : Round Item} {i : Item} {later : List Item} :
      s.Leads weight i → Picks weight (s.pay weight i) later t → Picks weight s (i :: later) t

variable {weight : Item → ℤ} {s t : Round Item}

theorem earned_ready {i : Item} (ready : i ∈ s.ready) : s.earned weight i = s.credit i + weight i :=
  if_pos ready

theorem sum_earned {group : Finset Item} (inside : group ⊆ s.ready) :
    ∑ i ∈ group, s.earned weight i = ∑ i ∈ group, s.credit i + ∑ i ∈ group, weight i := by
  rw [← sum_add_distrib]
  exact sum_congr rfl fun i member => earned_ready (inside member)

theorem sum_pay (i : Item) {group : Finset Item} (inside : group ⊆ s.ready) :
    ∑ j ∈ group, (s.pay weight i).credit j =
      ∑ j ∈ group, s.credit j + ∑ j ∈ group, weight j - if i ∈ group then s.total weight else 0 := by
  have split : ∀ j ∈ group, (s.pay weight i).credit j =
      s.earned weight j - if j = i then s.total weight else 0 := by
    intro j _
    unfold Round.pay
    by_cases same : j = i <;> simp [same]
  rw [sum_congr rfl split, sum_sub_distrib, sum_earned inside, sum_ite_eq' group i]

/-- The credits of the ready items balance, and none has fallen by a whole total. -/
structure Balanced (weight : Item → ℤ) (s : Round Item) : Prop where
  zero : ∑ i ∈ s.ready, s.credit i = 0
  above : ∀ i ∈ s.ready, -s.total weight < s.credit i

omit [DecidableEq Item] in
theorem Balanced.leader_pos {i : Item} (balanced : Balanced weight s)
    (positive : ∀ j ∈ s.ready, 0 < weight j) (leads : s.Leads weight i) :
    0 < s.credit i + weight i := by
  by_contra low
  have falls : ∑ j ∈ s.ready, (s.credit j + weight j) ≤ 0 :=
    sum_nonpos fun j ready => (leads.highest j ready).trans (not_lt.mp low)
  have rises : 0 < ∑ j ∈ s.ready, weight j := sum_pos positive ⟨i, leads.ready⟩
  rw [sum_add_distrib, balanced.zero] at falls
  linarith

theorem Balanced.pay {i : Item} (balanced : Balanced weight s)
    (positive : ∀ j ∈ s.ready, 0 < weight j) (leads : s.Leads weight i) :
    Balanced weight (s.pay weight i) where
  zero := by
    change ∑ j ∈ s.ready, (s.pay weight i).credit j = 0
    rw [sum_pay i (Subset.refl s.ready), balanced.zero, if_pos leads.ready]
    simp [Round.total]
  above j ready := by
    have member : j ∈ s.ready := ready
    have earned : s.earned weight j = s.credit j + weight j := earned_ready member
    change -s.total weight <
      if j = i then s.earned weight j - s.total weight else s.earned weight j
    split
    · case isTrue same =>
      have leader := balanced.leader_pos positive leads
      rw [← same] at leader
      linarith
    · linarith [balanced.above j member, positive j member]

theorem Picks.ready {picked : List Item} (picks : Picks weight s picked t) : t.ready = s.ready := by
  induction picks with
  | nil => rfl
  | cons _ _ ih => exact ih

theorem Picks.credits {picked : List Item} (picks : Picks weight s picked t)
    (positive : ∀ j ∈ s.ready, 0 < weight j) (balanced : Balanced weight s) :
    Balanced weight t ∧ ∀ i ∈ s.ready,
      t.credit i = s.credit i + picked.length * weight i - s.total weight * picked.count i := by
  induction picks with
  | nil => exact ⟨balanced, by simp⟩
  | @cons s t first rest leads _ ih =>
    obtain ⟨later, credits⟩ := ih positive (balanced.pay positive leads)
    refine ⟨later, fun i member => ?_⟩
    rw [credits i member]
    have earned : s.earned weight i = s.credit i + weight i := earned_ready member
    change (if i = first then s.earned weight i - s.total weight else s.earned weight i) +
      rest.length * weight i - s.total weight * rest.count i = _
    rw [earned, List.count_cons, List.length_cons]
    by_cases same : i = first
    · subst same
      simp only [if_true, beq_self_eq_true]
      push_cast
      ring
    · have other : (first == i) = false := by simpa using Ne.symm same
      simp only [same, if_false, other, Bool.false_eq_true]
      push_cast
      ring

theorem Picks.asleep {picked : List Item} {i : Item} (picks : Picks weight s picked t)
    (asleep : i ∉ s.ready) : i ∉ picked ∧ t.credit i = s.credit i := by
  induction picks with
  | nil => exact ⟨List.not_mem_nil, rfl⟩
  | @cons s t first rest leads _ ih =>
    have other : i ≠ first := fun same => asleep (same ▸ leads.ready)
    obtain ⟨absent, credit⟩ := ih asleep
    refine ⟨List.not_mem_cons_of_ne_of_not_mem other absent, credit.trans ?_⟩
    change (if i = first then _ else s.earned weight i) = s.credit i
    rw [if_neg other]
    exact if_neg asleep

/-- From credits that are all zero, as many picks as the total weight give every ready item its
weight and clear all credits again. -/
theorem Picks.shares {picked : List Item} (picks : Picks weight s picked t)
    (positive : ∀ j ∈ s.ready, 0 < weight j) (clear : ∀ i ∈ s.ready, s.credit i = 0)
    (long : (picked.length : ℤ) = s.total weight) {i : Item} (ready : i ∈ s.ready) :
    (picked.count i : ℤ) = weight i ∧ t.credit i = 0 := by
  have total_pos : 0 < s.total weight := sum_pos positive ⟨i, ready⟩
  have balanced : Balanced weight s := by
    refine ⟨sum_eq_zero clear, fun j member => ?_⟩
    rw [clear j member]
    linarith
  obtain ⟨⟨zero, above⟩, credits⟩ := picks.credits positive balanced
  have same := picks.ready
  have total : t.total weight = s.total weight := by rw [Round.total, same, Round.total]
  rw [same] at zero above
  -- every credit is a multiple of the total, above minus the total
  have multiple : ∀ j ∈ s.ready, t.credit j = s.total weight * (weight j - picked.count j) := by
    intro j member
    rw [credits j member, clear j member, long]
    ring
  have nonneg : ∀ j ∈ s.ready, 0 ≤ t.credit j := by
    intro j member
    have low := above j member
    rw [total, multiple j member] at low
    have share : -1 < weight j - picked.count j := by
      by_contra beyond
      have : s.total weight * (weight j - picked.count j) ≤ s.total weight * (-1) :=
        mul_le_mul_of_nonneg_left (not_lt.mp beyond) total_pos.le
      linarith
    rw [multiple j member]
    exact mul_nonneg total_pos.le (by linarith [Int.add_one_le_of_lt share])
  have cleared : t.credit i = 0 := (sum_eq_zero_iff_of_nonneg nonneg).mp zero i ready
  refine ⟨?_, cleared⟩
  have product := multiple i ready
  rw [cleared] at product
  rcases mul_eq_zero.mp product.symm with none | share
  · exact absurd none total_pos.ne'
  · linarith

/-- The most a group of so many items can be ahead or behind, where `most` bounds the total weight
and `n` the number of items ready at a time. -/
def slack (most : ℤ) (n k : ℕ) : ℤ := most * (k * (2 * n - k))

theorem slack_zero (most : ℤ) (n : ℕ) : slack most n 0 = 0 := by simp [slack]

theorem slack_concave (most : ℤ) (n k : ℕ) :
    2 * slack most n (k + 1) = slack most n k + slack most n (k + 2) + 2 * most := by
  unfold slack
  push_cast
  ring

theorem slack_le_succ {most : ℤ} (nonneg : 0 ≤ most) {n k : ℕ} (inside : k < n) :
    slack most n k ≤ slack most n (k + 1) := by
  have room : (k : ℤ) + 1 ≤ n := by exact_mod_cast inside
  have grows : slack most n (k + 1) = slack most n k + most * (2 * (n - k) - 1) := by
    unfold slack
    push_cast
    ring
  rw [grows]
  linarith [mul_nonneg nonneg (show (0 : ℤ) ≤ 2 * (n - k) - 1 by linarith)]

theorem two_mul_sum_le (value : Item → ℤ) {group : Finset Item} {i j : Item} (inside : i ∈ group)
    (outside : j ∉ group) (higher : value i ≤ value j) :
    2 * ∑ k ∈ group, value k ≤ ∑ k ∈ group.erase i, value k + ∑ k ∈ insert j group, value k := by
  have without := add_sum_erase group value inside
  rw [sum_insert outside]
  linarith

/-- No group of ready items is ahead or behind by more than the slack of its size. -/
structure Bounded (most : ℤ) (n : ℕ) (s : Round Item) : Prop where
  ahead : ∀ group ⊆ s.ready, ∑ i ∈ group, s.credit i ≤ slack most n group.card
  behind : ∀ group ⊆ s.ready, -slack most n group.card ≤ ∑ i ∈ group, s.credit i

section

variable {most : ℤ} {n : ℕ}

omit [DecidableEq Item] in
theorem Bounded.credit_le {i : Item} (bounded : Bounded most n s) (ready : i ∈ s.ready) :
    |s.credit i| ≤ slack most n 1 := by
  have above := bounded.ahead {i} (singleton_subset_iff.mpr ready)
  have below := bounded.behind {i} (singleton_subset_iff.mpr ready)
  rw [sum_singleton, card_singleton] at above below
  exact abs_le.mpr ⟨below, above⟩

omit [DecidableEq Item] in
theorem group_weight_le {group : Finset Item} (nonneg : ∀ i ∈ s.ready, 0 ≤ weight i)
    (inside : group ⊆ s.ready) : ∑ i ∈ group, weight i ≤ s.total weight :=
  sum_le_sum_of_subset_of_nonneg inside fun i ready _ => nonneg i ready

omit [DecidableEq Item] in
theorem group_weight_nonneg {group : Finset Item} (nonneg : ∀ i ∈ s.ready, 0 ≤ weight i)
    (inside : group ⊆ s.ready) : 0 ≤ ∑ i ∈ group, weight i :=
  sum_nonneg fun i member => nonneg i (inside member)

/-- A group without the leader: one of its members is below the leader, so the group is between
the two groups that exchange them. -/
theorem Bounded.ahead_pay {i : Item} (bounded : Bounded most n s)
    (nonneg : ∀ j ∈ s.ready, 0 ≤ weight j) (total : s.total weight ≤ most)
    (leads : s.Leads weight i) {group : Finset Item} (inside : group ⊆ s.ready) :
    ∑ j ∈ group, (s.pay weight i).credit j ≤ slack most n group.card := by
  have held := bounded.ahead group inside
  have share := group_weight_le nonneg inside
  rw [sum_pay i inside]
  by_cases member : i ∈ group
  · rw [if_pos member]
    linarith
  · rw [if_neg member]
    rcases group.eq_empty_or_nonempty with rfl | ⟨j, chosen⟩
    · simp [slack_zero]
    · have fewer : group.erase j ⊆ s.ready := (erase_subset j group).trans inside
      have more : insert i group ⊆ s.ready := insert_subset leads.ready inside
      have exchange := two_mul_sum_le (fun k => s.credit k + weight k) chosen member
        (leads.highest j (inside chosen))
      simp only [sum_add_distrib] at exchange
      obtain ⟨k, size⟩ : ∃ k, group.card = k + 1 :=
        Nat.exists_eq_succ_of_ne_zero (card_pos.mpr ⟨j, chosen⟩).ne'
      have low := bounded.ahead _ fewer
      have high := bounded.ahead _ more
      rw [card_erase_of_mem chosen, size, Nat.add_sub_cancel] at low
      rw [card_insert_of_notMem member, size] at high
      have concave := slack_concave most n k
      have lowWeight := group_weight_le nonneg fewer
      have highWeight := group_weight_le nonneg more
      rw [size]
      linarith

/-- A group with the leader, but without all of the ready items: an outsider is further behind. -/
theorem Bounded.behind_pay {i : Item} (bounded : Bounded most n s)
    (nonneg : ∀ j ∈ s.ready, 0 ≤ weight j) (total : s.total weight ≤ most)
    (leads : s.Leads weight i) {group : Finset Item} (inside : group ⊆ s.ready) :
    -slack most n group.card ≤ ∑ j ∈ group, (s.pay weight i).credit j := by
  have held := bounded.behind group inside
  have share := group_weight_nonneg nonneg inside
  rw [sum_pay i inside]
  by_cases member : i ∈ group
  · rw [if_pos member]
    by_cases all : s.ready ⊆ group
    · obtain rfl := Subset.antisymm inside all
      have whole : ∑ j ∈ s.ready, weight j = s.total weight := rfl
      linarith
    · obtain ⟨j, ready, outside⟩ := not_subset.mp all
      have fewer : group.erase i ⊆ s.ready := (erase_subset i group).trans inside
      have more : insert j group ⊆ s.ready := insert_subset ready inside
      have exchange := two_mul_sum_le (fun k => -(s.credit k + weight k)) member outside
        (neg_le_neg (leads.highest j ready))
      simp only [sum_neg_distrib, sum_add_distrib] at exchange
      obtain ⟨k, size⟩ : ∃ k, group.card = k + 1 :=
        Nat.exists_eq_succ_of_ne_zero (card_pos.mpr ⟨i, member⟩).ne'
      have low := bounded.behind _ fewer
      have high := bounded.behind _ more
      rw [card_erase_of_mem member, size, Nat.add_sub_cancel] at low
      rw [card_insert_of_notMem outside, size] at high
      have concave := slack_concave most n k
      have lowWeight := group_weight_nonneg nonneg fewer
      have highWeight := group_weight_nonneg nonneg more
      rw [size]
      linarith
  · rw [if_neg member]
    linarith

theorem sum_clear (i : Item) (group : Finset Item) :
    ∑ j ∈ group, Function.update s.credit i 0 j = ∑ j ∈ group.erase i, s.credit j := by
  by_cases member : i ∈ group
  · rw [← add_sum_erase group _ member, Function.update_self, zero_add]
    exact sum_congr rfl fun j other => Function.update_of_ne (ne_of_mem_erase other) _ _
  · rw [erase_eq_of_notMem member]
    refine sum_congr rfl fun j inside => Function.update_of_ne ?_ _ _
    rintro rfl
    exact member inside

theorem slack_erase_le (nonneg : 0 ≤ most) {group : Finset Item} (few : group.card ≤ n) (i : Item) :
    slack most n (group.erase i).card ≤ slack most n group.card := by
  by_cases member : i ∈ group
  · have size := card_erase_add_one member
    rw [← size]
    exact slack_le_succ nonneg (by omega)
  · rw [erase_eq_of_notMem member]

theorem Bounded.clear {i : Item} {ready : Finset Item} (bounded : Bounded most n s)
    (nonneg : 0 ≤ most) (few : ready.card ≤ n) (others : ready.erase i ⊆ s.ready) :
    Bounded most n ⟨ready, Function.update s.credit i 0⟩ := by
  have inner : ∀ group ⊆ ready, group.erase i ⊆ s.ready ∧
      slack most n (group.erase i).card ≤ slack most n group.card := fun group inside =>
    ⟨(erase_subset_erase i inside).trans others,
      slack_erase_le nonneg ((card_le_card inside).trans few) i⟩
  refine ⟨fun group inside => ?_, fun group inside => ?_⟩
  · change ∑ j ∈ group, Function.update s.credit i 0 j ≤ _
    rw [sum_clear]
    exact (bounded.ahead _ (inner group inside).1).trans (inner group inside).2
  · change _ ≤ ∑ j ∈ group, Function.update s.credit i 0 j
    rw [sum_clear]
    exact (neg_le_neg (inner group inside).2).trans (bounded.behind _ (inner group inside).1)

theorem Step.bounded {act : Act Item} (step : Step weight s act t) (bounded : Bounded most n s)
    (weights : ∀ i ∈ s.ready, 0 ≤ weight i) (nonneg : 0 ≤ most) (total : s.total weight ≤ most)
    (few : t.ready.card ≤ n) : Bounded most n t := by
  cases step with
  | pick leads =>
    exact ⟨fun _ inside => bounded.ahead_pay weights total leads inside,
      fun _ inside => bounded.behind_pay weights total leads inside⟩
  | wake _ => exact bounded.clear nonneg few (erase_insert_subset _ s.ready)
  | rest => exact bounded.clear nonneg few ((erase_subset _ _).trans (erase_subset _ _))

theorem Step.idle {act : Act Item} (step : Step weight s act t)
    (idle : ∀ i ∉ s.ready, s.credit i = 0) : ∀ i ∉ t.ready, t.credit i = 0 := by
  intro i asleep
  cases step with
  | @pick j leads =>
    have other : i ≠ j := fun same => asleep (same ▸ leads.ready)
    change (if i = j then _ else s.earned weight i) = 0
    rw [if_neg other]
    exact (if_neg asleep).trans (idle i asleep)
  | @wake j _ =>
    obtain ⟨other, out⟩ := not_or.mp fun either => asleep (mem_insert.mpr either)
    change Function.update s.credit j 0 i = 0
    rw [Function.update_of_ne other, idle i out]
  | @rest j =>
    change Function.update s.credit j 0 i = 0
    by_cases same : i = j
    · rw [same, Function.update_self]
    · rw [Function.update_of_ne same]
      exact idle i fun ready => asleep (mem_erase_of_ne_of_mem same ready)

theorem Step.earns {act : Act Item} {i : Item} (step : Step weight s act t) (ready : i ∈ s.ready)
    (unpicked : act ≠ .pick i) (kept : act ≠ .rest i) :
    i ∈ t.ready ∧ t.credit i = s.credit i + if act.isPick then weight i else 0 := by
  cases step with
  | @pick j leads =>
    have other : i ≠ j := fun same => unpicked (same ▸ rfl)
    refine ⟨ready, ?_⟩
    change (if i = j then _ else s.earned weight i) = _
    rw [if_neg other, earned_ready ready]
    rfl
  | @wake j asleep =>
    have other : i ≠ j := fun same => asleep (same ▸ ready)
    refine ⟨mem_insert_of_mem ready, ?_⟩
    change Function.update s.credit j 0 i = _
    rw [Function.update_of_ne other]
    exact (add_zero _).symm
  | @rest j =>
    have other : i ≠ j := fun same => kept (same ▸ rfl)
    refine ⟨mem_erase_of_ne_of_mem other ready, ?_⟩
    change Function.update s.credit j 0 i = _
    rw [Function.update_of_ne other]
    exact (add_zero _).symm

end

end RoundRobin
