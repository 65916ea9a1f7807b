import Mathlib.Data.List.Basic

/-!
A registry of named declarations, as a broker keeps one: declaring a name again is accepted only
when the declaration is the one already held.
-/

namespace Registry

universe u v

variable {Spec : Type u} {Name : Type v} (name : Spec → Name)

def Accepts (held : List Spec) (spec : Spec) : Prop :=
  ∀ other ∈ held, name other = name spec → other = spec

/-- Declares the specs one after another, each against everything held by then. -/
def DeclaresAll : List Spec → List Spec → Prop
  | _, [] => True
  | held, spec :: rest => Accepts name held spec ∧ DeclaresAll (spec :: held) rest

def Agrees (specs : List Spec) : Prop :=
  ∀ spec ∈ specs, ∀ other ∈ specs, name other = name spec → other = spec

theorem agrees_cons {spec : Spec} {rest : List Spec} :
    Agrees name (spec :: rest) ↔ Accepts name rest spec ∧ Agrees name rest := by
  constructor
  · intro agrees
    exact ⟨fun other member => agrees spec List.mem_cons_self other (List.mem_cons_of_mem _ member),
      fun first inside other member =>
        agrees first (List.mem_cons_of_mem _ inside) other (List.mem_cons_of_mem _ member)⟩
  · rintro ⟨head, tail⟩ first inside other member same
    rcases List.mem_cons.mp inside with rfl | deeper
    · rcases List.mem_cons.mp member with rfl | later
      · rfl
      · exact head other later same
    · rcases List.mem_cons.mp member with rfl | later
      · exact (head first deeper same.symm).symm
      · exact tail first deeper other later same

theorem declaresAll_iff {held specs : List Spec} :
    DeclaresAll name held specs ↔ (∀ spec ∈ specs, Accepts name held spec) ∧ Agrees name specs := by
  induction specs generalizing held with
  | nil => simp [DeclaresAll, Agrees]
  | cons spec rest ih =>
    rw [DeclaresAll, ih, agrees_cons]
    constructor
    · rintro ⟨head, later, agrees⟩
      refine ⟨?_, fun other member same => ?_, agrees⟩
      · intro other member
        rcases List.mem_cons.mp member with rfl | member
        · exact head
        · exact fun first inside => later other member first (List.mem_cons_of_mem _ inside)
      · exact (later other member spec List.mem_cons_self same.symm).symm
    · rintro ⟨accepted, head, agrees⟩
      refine ⟨accepted spec List.mem_cons_self, fun other member first inside same => ?_, agrees⟩
      rcases List.mem_cons.mp inside with rfl | inside
      · exact (head other member same.symm).symm
      · exact accepted other (List.mem_cons_of_mem _ member) first inside same

/-- From an empty registry the whole list is accepted exactly when its specs agree by name. -/
theorem declaresAll_fresh {specs : List Spec} : DeclaresAll name [] specs ↔ Agrees name specs := by
  simp [declaresAll_iff, Accepts]

end Registry
