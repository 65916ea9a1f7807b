import Mathlib.Data.List.Basic
import Mathlib.Order.Lattice

/-!
Ordered maps: the entries of a balanced tree in key order. The order is part of the type, so a
scan from a key upwards meets the keys it covers in order and no other one between them.
-/

namespace Ordered

universe u v

structure Table (Key : Type u) (Value : Type v) [LinearOrder Key] where
  entries : List (Key × Value)
  sorted : entries.Pairwise fun a b => a.1 < b.1

namespace Table

variable {Key : Type u} {Value : Type v} [LinearOrder Key]

def empty : Table Key Value := ⟨[], .nil⟩

instance : Inhabited (Table Key Value) := ⟨empty⟩

def keys (table : Table Key Value) : List Key := table.entries.map (·.1)

def filter (keep : Key → Bool) (table : Table Key Value) : Table Key Value :=
  ⟨table.entries.filter fun entry => keep entry.1, table.sorted.filter _⟩

def erase (table : Table Key Value) (key : Key) : Table Key Value := table.filter (· ≠ key)

def insert (table : Table Key Value) (key : Key) (value : Value) : Table Key Value where
  entries := (table.filter (· < key)).entries ++ (key, value) :: (table.filter (key < ·)).entries
  sorted := by
    refine List.pairwise_append.mpr ⟨(table.filter _).sorted, ?_, ?_⟩
    · refine List.pairwise_cons.mpr ⟨fun entry member => ?_, (table.filter _).sorted⟩
      exact of_decide_eq_true (List.mem_filter.mp member).2
    · intro low below high above
      have under : low.1 < key := of_decide_eq_true (List.mem_filter.mp below).2
      rcases List.mem_cons.mp above with rfl | beyond
      · exact under
      · exact lt_trans under (of_decide_eq_true (List.mem_filter.mp beyond).2)

def modify (table : Table Key Value) (key : Key) (change : Value → Value) : Table Key Value where
  entries := table.entries.map fun entry =>
    (entry.1, if entry.1 = key then change entry.2 else entry.2)
  sorted := List.pairwise_map.mpr table.sorted

def after (table : Table Key Value) (key : Key) : List (Key × Value) :=
  table.entries.filter fun entry => key < entry.1

variable {table : Table Key Value} {key other : Key}

@[simp] theorem keys_empty : (empty : Table Key Value).keys = [] := rfl

theorem keys_sorted (table : Table Key Value) : table.keys.Pairwise (· < ·) :=
  List.pairwise_map.mpr table.sorted

theorem mem_keys_filter {keep : Key → Bool} :
    other ∈ (table.filter keep).keys ↔ other ∈ table.keys ∧ keep other = true := by
  simp only [keys, filter, List.mem_map, List.mem_filter]
  constructor
  · rintro ⟨entry, ⟨member, kept⟩, rfl⟩
    exact ⟨⟨entry, member, rfl⟩, kept⟩
  · rintro ⟨⟨entry, member, rfl⟩, kept⟩
    exact ⟨entry, ⟨member, kept⟩, rfl⟩

theorem filter_congr {keep retain : Key → Bool} (same : ∀ key ∈ table.keys, keep key = retain key) :
    table.filter keep = table.filter retain := by
  have entries : (table.filter keep).entries = (table.filter retain).entries :=
    List.filter_congr fun entry member => same entry.1 (List.mem_map_of_mem member)
  unfold filter at entries ⊢
  simp only [mk.injEq]
  exact entries

theorem filter_filter (keep retain : Key → Bool) :
    (table.filter keep).filter retain = table.filter fun key => keep key && retain key := by
  unfold filter
  simp only [List.filter_filter, Bool.and_comm]

@[simp] theorem mem_keys_erase : other ∈ (table.erase key).keys ↔ other ∈ table.keys ∧ other ≠ key := by
  rw [erase, mem_keys_filter, decide_eq_true_iff]

@[simp] theorem mem_keys_insert {value : Value} :
    other ∈ (table.insert key value).keys ↔ other = key ∨ other ∈ table.keys := by
  have low : other ∈ (table.filter (· < key)).keys ↔ _ := mem_keys_filter
  have high : other ∈ (table.filter (key < ·)).keys ↔ _ := mem_keys_filter
  have split : (table.insert key value).keys =
      (table.filter (· < key)).keys ++ key :: (table.filter (key < ·)).keys := by
    simp [keys, insert]
  rw [split, List.mem_append, List.mem_cons, low, high, decide_eq_true_iff, decide_eq_true_iff]
  constructor
  · rintro (⟨member, -⟩ | rfl | ⟨member, -⟩)
    · exact .inr member
    · exact .inl rfl
    · exact .inr member
  · rintro (rfl | member)
    · exact .inr (.inl rfl)
    · rcases lt_trichotomy other key with less | same | more
      · exact .inl ⟨member, less⟩
      · exact .inr (.inl same)
      · exact .inr (.inr ⟨member, more⟩)

theorem mem_entries_insert {value : Value} {entry : Key × Value} (member : entry ∈ (table.insert key value).entries) :
    entry ∈ table.entries ∨ entry = (key, value) := by
  rcases List.mem_append.mp member with below | above
  · exact .inl (List.mem_filter.mp below).1
  · rcases List.mem_cons.mp above with same | beyond
    · exact .inr same
    · exact .inl (List.mem_filter.mp beyond).1

@[simp] theorem keys_modify {change : Value → Value} : (table.modify key change).keys = table.keys := by
  simp [keys, modify, Function.comp_def]

theorem mem_after {entry : Key × Value} : entry ∈ table.after key ↔ entry ∈ table.entries ∧ key < entry.1 := by
  simp [after, List.mem_filter]

theorem after_sorted (table : Table Key Value) (key : Key) : (table.after key).Pairwise fun a b => a.1 < b.1 :=
  table.sorted.filter _

theorem mem_keys_of_entry {entry : Key × Value} (member : entry ∈ table.entries) : entry.1 ∈ table.keys :=
  List.mem_map_of_mem member

theorem mem_keys_after : other ∈ (table.after key).map (·.1) ↔ other ∈ table.keys ∧ key < other := by
  simp only [keys, List.mem_map, mem_after]
  constructor
  · rintro ⟨entry, ⟨member, above⟩, rfl⟩
    exact ⟨⟨entry, member, rfl⟩, above⟩
  · rintro ⟨⟨entry, member, rfl⟩, above⟩
    exact ⟨entry, ⟨member, above⟩, rfl⟩

theorem mem_run_of_le {keep : Key × Value → Bool} {low high : Key}
    (last : high ∈ ((table.after low).takeWhile keep).map (·.1)) (member : other ∈ table.keys)
    (above : low < other) (upTo : other ≤ high) :
    other ∈ ((table.after low).takeWhile keep).map (·.1) := by
  obtain ⟨entry, among, rfl⟩ := List.mem_map.mp (mem_keys_after.mpr ⟨member, above⟩)
  obtain ⟨final, ran, rfl⟩ := List.mem_map.mp last
  rw [← @List.takeWhile_append_dropWhile _ keep (table.after low)] at among
  rcases List.mem_append.mp among with run | beyond
  · exact List.mem_map_of_mem run
  · have ordered := table.after_sorted low
    rw [← @List.takeWhile_append_dropWhile _ keep (table.after low)] at ordered
    have less := (List.pairwise_append.mp ordered).2.2 final ran entry beyond
    exact absurd upTo (not_le_of_gt less)

end Table

end Ordered
