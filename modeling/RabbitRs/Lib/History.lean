import Mathlib.Data.List.Induction
import Mathlib.Data.List.Nodup

/-!
Append-only logs in which every entry is justified by what was logged before it.
-/

namespace History

universe u v

variable {Event : Type u} {Key : Type v}

/-- `Justified before event` holds at every entry of the log. -/
def Each (Justified : List Event → Event → Prop) (log : List Event) : Prop :=
  ∀ before event after, log = before ++ event :: after → Justified before event

variable {Justified : List Event → Event → Prop} {log : List Event}

theorem each_nil : Each Justified [] := by
  intro before event after split
  simp at split

theorem Each.snoc {event : Event} (each : Each Justified log) (now : Justified log event) :
    Each Justified (log ++ [event]) := by
  intro before entry after split
  rcases List.eq_nil_or_concat after with rfl | ⟨later, last, rfl⟩
  · obtain ⟨rfl, same⟩ := List.append_inj_left' split rfl, List.append_inj_right' split rfl
    obtain rfl := List.singleton_inj.mp same
    exact now
  · have shorter : log ++ [event] = (before ++ entry :: later) ++ [last] := by
      simpa using split
    exact each before entry later (List.append_inj_left' shorter rfl)

theorem Each.initial {later : List Event} (each : Each Justified (log ++ later)) : Each Justified log := by
  intro before event after split
  exact each before event (after ++ later) (by simp [split])

theorem Each.last {event : Event} (each : Each Justified (log ++ [event])) : Justified log event :=
  each log event [] rfl

theorem Each.nodup_keys {key : Event → Option Key}
    (fresh : ∀ before event k, Justified before event → key event = some k → k ∉ before.filterMap key)
    (each : Each Justified log) : (log.filterMap key).Nodup := by
  induction log using List.reverseRecOn with
  | nil => exact List.nodup_nil
  | append_singleton log event ih =>
    have distinct := ih each.initial
    cases found : key event with
    | none => simpa [found] using distinct
    | some k =>
      have absent := fresh log event k each.last found
      rw [List.filterMap_append]
      simp only [List.filterMap_cons, found, List.filterMap_nil]
      refine List.nodup_append.mpr ⟨distinct, List.nodup_singleton k, ?_⟩
      intro other member new single
      obtain rfl := List.mem_singleton.mp single
      rintro rfl
      exact absent member

theorem eq_of_key {key : Event → Option Key} (distinct : (log.filterMap key).Nodup)
    {left right : Event} {k : Key} (leftIn : left ∈ log) (rightIn : right ∈ log)
    (leftKey : key left = some k) (rightKey : key right = some k) : left = right := by
  induction log with
  | nil => cases leftIn
  | cons first rest ih =>
    have logged : ∀ event ∈ rest, key event = some k → k ∈ rest.filterMap key :=
      fun event member keyed => List.mem_filterMap.mpr ⟨event, member, keyed⟩
    have later : (rest.filterMap key).Nodup :=
      ((List.sublist_cons_self first rest).filterMap key).nodup distinct
    have alone : key first = some k → k ∉ rest.filterMap key := by
      intro keyed
      rw [List.filterMap_cons, keyed] at distinct
      exact (List.nodup_cons.mp distinct).1
    rcases List.mem_cons.mp leftIn with rfl | leftLater <;>
      rcases List.mem_cons.mp rightIn with rfl | rightLater
    · rfl
    · exact absurd (logged right rightLater rightKey) (alone leftKey)
    · exact absurd (logged left leftLater leftKey) (alone rightKey)
    · exact ih later leftLater rightLater

end History
