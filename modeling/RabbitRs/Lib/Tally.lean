import Mathlib.Algebra.BigOperators.Group.List.Basic
import Mathlib.Data.List.Perm.Basic
import Mathlib.Data.List.Perm.Subperm
import Mathlib.Tactic.Ring

/-!
Counting what a family of holders carries. A step replaces one holder and leaves the others alone;
the total then changes by what that holder gained and lost.
-/

namespace Tally

universe u

variable {Holder : Type u}

def total (weight : Holder → Nat) (holders : List Holder) : Nat := (holders.map weight).sum

variable (weight : Holder → Nat)

@[simp] theorem total_nil : total weight [] = 0 := rfl

@[simp] theorem total_cons (holder : Holder) (rest : List Holder) :
    total weight (holder :: rest) = weight holder + total weight rest := by
  simp [total]

@[simp] theorem total_append (left right : List Holder) :
    total weight (left ++ right) = total weight left + total weight right := by
  simp [total]

@[simp] theorem total_map {Part : Type*} (part : Part → Holder) (parts : List Part) :
    total weight (parts.map part) = total (fun p => weight (part p)) parts := by
  simp [total, Function.comp_def]

theorem total_perm {left right : List Holder} (same : left.Perm right) :
    total weight left = total weight right :=
  (same.map weight).sum_eq

theorem total_filter (keep : Holder → Bool) (holders : List Holder) :
    total weight (holders.filter keep) + total weight (holders.filter fun holder => !keep holder) =
      total weight holders := by
  induction holders with
  | nil => rfl
  | cons first rest ih => cases kept : keep first <;> simp [kept] <;> omega

theorem total_set {holders : List Holder} {i : Nat} {old : Holder} (new : Holder)
    (found : holders[i]? = some old) :
    total weight (holders.set i new) + weight old = total weight holders + weight new := by
  induction holders generalizing i with
  | nil => simp at found
  | cons first rest ih =>
    cases i with
    | zero =>
      obtain rfl : first = old := by simpa using found
      simp only [List.set_cons_zero, total_cons]
      omega
    | succ i =>
      have tail := ih (by simpa using found)
      simp only [List.set_cons_succ, total_cons]
      omega

theorem weight_le_total {holders : List Holder} {holder : Holder} (member : holder ∈ holders) :
    weight holder ≤ total weight holders := by
  induction holders with
  | nil => simp at member
  | cons first rest ih =>
    rw [total_cons]
    rcases List.mem_cons.mp member with rfl | later
    · omega
    · have := ih later
      omega

theorem mem_set_self {holders : List Holder} {i : Nat} {old : Holder} (new : Holder)
    (found : holders[i]? = some old) : new ∈ holders.set i new := by
  have inside := (List.getElem?_eq_some_iff.mp found).1
  exact List.mem_iff_getElem?.mpr ⟨i, by simp [inside]⟩

theorem exists_set_or {property : Holder → Prop} {holders : List Holder} {i : Nat} {old : Holder}
    (new : Holder) (found : holders[i]? = some old) (some : ∃ holder ∈ holders, property holder) :
    property old ∨ ∃ holder ∈ holders.set i new, property holder := by
  obtain ⟨holder, member, holds⟩ := some
  obtain ⟨j, at_⟩ := List.mem_iff_getElem?.mp member
  by_cases same : i = j
  · subst same
    obtain rfl := Option.some.inj (found.symm.trans at_)
    exact .inl holds
  · exact .inr ⟨holder, List.mem_iff_getElem?.mpr ⟨j, by rw [List.getElem?_set_ne same, at_]⟩, holds⟩

theorem exists_set {property : Holder → Prop} {holders : List Holder} {i : Nat} {old : Holder}
    (new : Holder) (found : holders[i]? = some old) (keeps : property old → property new)
    (some : ∃ holder ∈ holders, property holder) : ∃ holder ∈ holders.set i new, property holder := by
  rcases exists_set_or new found some with replaced | kept
  · exact ⟨new, mem_set_self new found, keeps replaced⟩
  · exact kept

theorem total_count {Value : Type*} [DecidableEq Value] (carried : Holder → List Value)
    (value : Value) (holders : List Holder) :
    total (fun holder => (carried holder).count value) holders = (holders.flatMap carried).count value := by
  induction holders with
  | nil => rfl
  | cons first rest ih => rw [total_cons, ih, List.flatMap_cons, List.count_append]

/-- Of what is taken in a part is accounted for: all of it if that was so before and all of the new
batch is. -/
theorem perm_append_iff {taken accounted batch kept now : List Holder} (part : accounted.Subperm taken)
    (grown : now.Perm (accounted ++ kept)) (inside : kept.Sublist batch) :
    now.Subperm (taken ++ batch) ∧ (now.Perm (taken ++ batch) ↔ accounted.Perm taken ∧ kept = batch) := by
  have still : now.Subperm (taken ++ batch) := grown.subperm.trans (part.append inside.subperm)
  refine ⟨still, fun whole => ?_, fun ⟨before, same⟩ => ?_⟩
  · have lengths : accounted.length + kept.length = taken.length + batch.length := by
      rw [← List.length_append, ← List.length_append, ← grown.length_eq, whole.length_eq]
    have less := part.length_le
    have fewer := inside.length_le
    exact ⟨part.perm_of_length_le (by omega), inside.eq_of_length (by omega)⟩
  · rw [← same]
    exact grown.trans (before.append_right kept)

theorem append_eq_iff_of_sublist {kept batch kept' batch' : List Holder} (first : kept.Sublist batch)
    (second : kept'.Sublist batch') : kept ++ kept' = batch ++ batch' ↔ kept = batch ∧ kept' = batch' := by
  refine ⟨fun same => ?_, fun ⟨left, right⟩ => by rw [left, right]⟩
  have lengths := congrArg List.length same
  rw [List.length_append, List.length_append] at lengths
  have less := first.length_le
  have fewer := second.length_le
  exact ⟨first.eq_of_length (by omega), second.eq_of_length (by omega)⟩

theorem perm_append_parts (first second third a b c : List Holder) :
    (first ++ a ++ (second ++ b) ++ (third ++ c)).Perm (first ++ second ++ third ++ (a ++ b ++ c)) := by
  have swapped : (a ++ (second ++ (b ++ third))).Perm (second ++ (third ++ (a ++ b))) := by
    calc (a ++ (second ++ (b ++ third))).Perm (second ++ (a ++ (b ++ third))) := List.perm_append_comm_assoc ..
      _ |>.Perm (second ++ (third ++ (a ++ b))) := by
        rw [← List.append_assoc a]
        exact List.perm_append_comm.append_left second
  have moved := (swapped.append_left first).append_right c
  simpa only [List.append_assoc] using moved

end Tally
