import Mathlib.Data.List.AList
import RabbitRs.Lib.Tally

/-!
What a keyed map carries. Taking a value out under its key, or putting one in and dropping the
one it displaces, changes every total over the map's values by exactly those values.
-/

namespace Keyed

universe u v

variable {Key : Type u} {Value : Type v}

def values (map : AList fun _ : Key => Value) : List Value := map.entries.map Sigma.snd

@[simp] theorem values_empty : values (∅ : AList fun _ : Key => Value) = [] := rfl

variable [DecidableEq Key] {map : AList fun _ : Key => Value} {key : Key} {value : Value}

theorem entries_perm_erase (found : map.lookup key = some value) :
    map.entries.Perm (⟨key, value⟩ :: (map.erase key).entries) := by
  have known : key ∈ map.keys := AList.lookup_isSome.mp (by rw [found]; rfl)
  obtain ⟨stored, before, after, -, split, erased⟩ := List.exists_of_kerase known
  have member : (⟨key, stored⟩ : Sigma fun _ : Key => Value) ∈ map.entries := by
    rw [split]
    simp
  have same : map.lookup key = some stored := List.mem_dlookup map.nodupKeys member
  obtain rfl : stored = value := Option.some.inj (same.symm.trans found)
  change map.entries.Perm (⟨key, stored⟩ :: map.entries.kerase key)
  rw [erased, split]
  exact List.perm_middle

theorem values_perm_erase (found : map.lookup key = some value) :
    (values map).Perm (value :: values (map.erase key)) :=
  (entries_perm_erase found).map fun entry : Sigma fun _ : Key => Value => entry.snd

theorem exists_lookup_of_mem {value : Value} (member : value ∈ values map) :
    ∃ key, map.lookup key = some value := by
  obtain ⟨⟨key, _⟩, entry, rfl⟩ := List.mem_map.mp member
  exact ⟨key, List.mem_dlookup map.nodupKeys entry⟩

theorem mem_of_lookup (found : map.lookup key = some value) : value ∈ values map :=
  (values_perm_erase found).mem_iff.mpr List.mem_cons_self

theorem lookup_of_erase {other : Key} (found : (map.erase key).lookup other = some value) :
    map.lookup other = some value := by
  by_cases same : other = key
  · rw [same, AList.lookup_erase] at found
    cases found
  · rwa [AList.lookup_erase_ne same] at found

theorem lookup_insert_cases {other : Key} {stored : Value}
    (found : (map.insert key value).lookup other = some stored) :
    other = key ∧ stored = value ∨ other ≠ key ∧ map.lookup other = some stored := by
  by_cases same : other = key
  · rw [same, AList.lookup_insert] at found
    exact .inl ⟨same, (Option.some.inj found).symm⟩
  · rw [AList.lookup_insert_ne same] at found
    exact .inr ⟨same, found⟩

theorem mem_insert_self (map : AList fun _ : Key => Value) (key : Key) (value : Value) :
    value ∈ values (map.insert key value) :=
  mem_of_lookup (AList.lookup_insert map)

theorem mem_insert_or {old : Value} (member : old ∈ values map) :
    map.lookup key = some old ∨ old ∈ values (map.insert key value) := by
  obtain ⟨other, found⟩ := exists_lookup_of_mem member
  by_cases same : other = key
  · exact .inl (same ▸ found)
  · exact .inr (mem_of_lookup ((AList.lookup_insert_ne same).trans found))

variable (weight : Value → Nat)

theorem total_erase (found : map.lookup key = some value) :
    Tally.total weight (values (map.erase key)) + weight value = Tally.total weight (values map) := by
  have same : Tally.total weight (values map) = Tally.total weight (value :: values (map.erase key)) :=
    ((values_perm_erase found).map weight).sum_eq
  rw [same, Tally.total_cons, Nat.add_comm]

theorem total_insert (map : AList fun _ : Key => Value) (key : Key) (value : Value) :
    Tally.total weight (values (map.insert key value)) +
        Tally.total weight (map.lookup key).toList =
      Tally.total weight (values map) + weight value := by
  have inserted : values (map.insert key value) = value :: values (map.erase key) := by
    rw [values, AList.entries_insert]
    rfl
  rw [inserted, Tally.total_cons]
  cases found : map.lookup key with
  | none =>
    have absent : key ∉ map.keys := AList.lookup_eq_none.mp found
    have unchanged : values (map.erase key) = values map := by
      change (map.entries.kerase key).map Sigma.snd = map.entries.map Sigma.snd
      rw [List.kerase_of_notMem_keys absent]
    rw [unchanged, Option.toList_none, Tally.total_nil]
    omega
  | some old =>
    have erased := total_erase weight found
    rw [Option.toList_some, Tally.total_cons, Tally.total_nil]
    omega

end Keyed
