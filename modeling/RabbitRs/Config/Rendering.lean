import RabbitRs.Config
import RabbitRs.Lib.Codec

/-!
`Debug` of a `Duration` and of a list of them, which is what the fingerprint takes of the delay
buckets; the text determines the duration.
-/

namespace RabbitRs

open Codec

/-- The loop of `fmt_decimal`: it stops at the last digit that is not zero. -/
def fractionDigits : Nat → Nat → List Char
  | 0, _ => []
  | width + 1, fraction =>
      if fraction = 0 then []
      else Nat.digitChar (fraction / 10 ^ width) :: fractionDigits width (fraction % 10 ^ width)

theorem fraction_digit {width fraction : Nat} (bound : fraction < 10 ^ (width + 1)) :
    fraction / 10 ^ width < 10 :=
  Nat.div_lt_of_lt_mul (by rwa [Nat.pow_succ] at bound)

theorem fractionDigits_isDigit {width fraction : Nat} (bound : fraction < 10 ^ width) :
    ∀ c ∈ fractionDigits width fraction, c.isDigit = true := by
  induction width generalizing fraction with
  | zero => simp [fractionDigits]
  | succ width ih =>
    rw [fractionDigits]
    split
    · simp
    · rw [List.forall_mem_cons]
      refine ⟨?_, ih (Nat.mod_lt _ (Nat.pow_pos (by decide)))⟩
      simpa using fraction_digit bound

theorem fractionDigits_injective {width a b : Nat} (boundA : a < 10 ^ width) (boundB : b < 10 ^ width)
    (same : fractionDigits width a = fractionDigits width b) : a = b := by
  induction width generalizing a b with
  | zero => omega
  | succ width ih =>
    have positive : 0 < 10 ^ width := Nat.pow_pos (by decide)
    rw [fractionDigits, fractionDigits] at same
    split at same <;> split at same
    · omega
    · cases same
    · cases same
    · obtain ⟨digit, rest⟩ := List.cons.inj same
      have high := congrArg Char.toNat digit
      rw [Nat.toNat_digitChar_of_lt_ten (fraction_digit boundA),
        Nat.toNat_digitChar_of_lt_ten (fraction_digit boundB)] at high
      have low := ih (Nat.mod_lt _ positive) (Nat.mod_lt _ positive) rest
      rw [← Nat.div_add_mod a (10 ^ width), ← Nat.div_add_mod b (10 ^ width), low,
        Nat.add_left_cancel high]

def fmtDecimal (integer fraction width : Nat) (suffix : List Char) : List Char :=
  Nat.toDigits 10 integer ++ ((if fraction = 0 then [] else '.' :: fractionDigits width fraction) ++ suffix)

inductive TimeUnit where
  | seconds | millis | micros | nanos

namespace TimeUnit

def width : TimeUnit → Nat
  | .seconds => 9
  | .millis => 6
  | .micros => 3
  | .nanos => 0

def suffix : TimeUnit → List Char
  | .seconds => ['s']
  | .millis => ['m', 's']
  | .micros => ['µ', 's']
  | .nanos => ['n', 's']

theorem suffix_injective {a b : TimeUnit} (same : a.suffix = b.suffix) : a = b := by
  cases a <;> cases b <;> first | rfl | exact absurd same (by decide)

theorem suffix_head (u : TimeUnit) : ∃ c rest, u.suffix = c :: rest ∧ c.isDigit = false ∧ c ≠ '.' := by
  cases u <;> exact ⟨_, _, rfl, by decide, by decide⟩

end TimeUnit

theorem fmtDecimal_injective {a b f g : Nat} {u w : TimeUnit} (boundF : f < 10 ^ u.width)
    (boundG : g < 10 ^ w.width)
    (same : fmtDecimal a f u.width u.suffix = fmtDecimal b g w.width w.suffix) : a = b ∧ f = g ∧ u = w := by
  obtain ⟨c, cs, headU, digitC, pointC⟩ := u.suffix_head
  obtain ⟨d, ds, headW, digitD, pointD⟩ := w.suffix_head
  have ended : ∀ (fraction width : Nat) (suffix : List Char) {c : Char} {cs : List Char},
      suffix = c :: cs → c.isDigit = false → ∃ c' rest,
        (if fraction = 0 then [] else '.' :: fractionDigits width fraction) ++ suffix = c' :: rest ∧
          c'.isDigit = false := by
    intro fraction width suffix c cs head digit
    split
    · exact ⟨c, cs, head, digit⟩
    · exact ⟨'.', _, rfl, by decide⟩
  have digits (n : Nat) : ∀ c ∈ Nat.toDigits 10 n, c.isDigit = true := fun c member =>
    Nat.isDigit_of_mem_toDigits (by decide) (by decide) member
  obtain ⟨front, rest⟩ := separates_run Char.isDigit _ _ (digits a) (digits b) _ _
    (ended f u.width u.suffix headU digitC) (ended g w.width w.suffix headW digitD) same
  refine ⟨Codec.toDigits_injective front, ?_⟩
  split at rest <;> split at rest
  · rename_i zeroF zeroG
    exact ⟨zeroF.trans zeroG.symm, TimeUnit.suffix_injective rest⟩
  · rw [headU] at rest
    exact absurd (List.cons.inj rest).1 pointC
  · rw [headW] at rest
    exact absurd (List.cons.inj rest).1.symm pointD
  · obtain ⟨fractions, suffixes⟩ := separates_run Char.isDigit _ _ (fractionDigits_isDigit boundF)
      (fractionDigits_isDigit boundG) _ _ ⟨c, cs, headU, digitC⟩ ⟨d, ds, headW, digitD⟩
      (List.cons.inj rest).2
    obtain rfl := TimeUnit.suffix_injective suffixes
    exact ⟨fractionDigits_injective boundF boundG fractions, rfl⟩

namespace Duration

def unit (d : Duration) : TimeUnit :=
  if 10 ^ 9 ≤ d.nanos then .seconds
  else if 10 ^ 6 ≤ d.nanos then .millis
  else if 10 ^ 3 ≤ d.nanos then .micros
  else .nanos

def debug (d : Duration) : List Char :=
  fmtDecimal (d.nanos / 10 ^ d.unit.width) (d.nanos % 10 ^ d.unit.width) d.unit.width d.unit.suffix

theorem debug_injective {a b : Duration} (same : a.debug = b.debug) : a = b := by
  have bound (d : Duration) : d.nanos % 10 ^ d.unit.width < 10 ^ d.unit.width :=
    Nat.mod_lt _ (Nat.pow_pos (by decide))
  obtain ⟨integer, fraction, units⟩ := fmtDecimal_injective (bound a) (bound b) same
  apply nanos_injective
  rw [← Nat.div_add_mod a.nanos (10 ^ a.unit.width), integer, fraction, units, Nat.div_add_mod]

def isItemChar (c : Char) : Bool := c != ',' && c != ']'

theorem isItemChar_suffix (u : TimeUnit) : ∀ c ∈ u.suffix, isItemChar c = true := by
  rw [← List.all_eq_true]
  cases u <;> rfl

theorem debug_isItemChar (d : Duration) : ∀ c ∈ d.debug, isItemChar c = true := by
  have ofDigit {c : Char} (digit : c.isDigit = true) : isItemChar c = true := by
    rw [isItemChar, Bool.and_eq_true, bne_iff_ne, bne_iff_ne]
    constructor <;> (rintro rfl; exact absurd digit (by decide))
  intro c member
  rcases List.mem_append.mp member with digit | member
  · exact ofDigit (Nat.isDigit_of_mem_toDigits (by decide) (by decide) digit)
  rcases List.mem_append.mp member with fraction | suffix
  · split at fraction
    · simp at fraction
    · rcases List.mem_cons.mp fraction with rfl | fraction
      · decide
      · exact ofDigit (fractionDigits_isDigit (Nat.mod_lt _ (Nat.pow_pos (by decide))) c fraction)
  · exact isItemChar_suffix d.unit c suffix

end Duration

def debugNext (d : Duration) : List Char := ',' :: ' ' :: d.debug

def debugItems : List Duration → List Char
  | [] => [']']
  | d :: rest => d.debug ++ (rest.flatMap debugNext ++ [']'])

/-- `format!("\x7b:?\x7d", durations)`. -/
def debugDurations (durations : List Duration) : String := String.ofList ('[' :: debugItems durations)

def AfterItem (r : List Char) : Prop := ∃ c rest, r = c :: rest ∧ Duration.isItemChar c = false

theorem debug_separates : Separates AfterItem (fun _ => True) id Duration.debug := by
  intro a b _ _ r s nextR nextS same
  obtain ⟨items, rest⟩ := separates_run Duration.isItemChar _ _ a.debug_isItemChar b.debug_isItemChar
    _ _ nextR nextS same
  exact ⟨Duration.debug_injective items, rest⟩

theorem debugNext_separates : Separates (· = [']']) (fun ds : List Duration => ∀ d ∈ ds, True)
    (List.map id) (List.flatMap debugNext) := by
  refine @separates_flatMap Duration Char _ AfterItem _ (fun _ => True) id debugNext ?_ ?_ ?_ ?_
  · intro a b _ _ r s nextR nextS same
    exact debug_separates a b trivial trivial r s nextR nextS (List.cons.inj (List.cons.inj same).2).2
  · rintro t rfl
    exact ⟨_, _, rfl, by decide⟩
  · intro d _ r _
    exact ⟨_, _, rfl, by decide⟩
  · intro d _ r _ closed
    exact absurd (List.cons.inj closed).1 (by decide)

theorem debugDurations_injective {a b : List Duration} (same : debugDurations a = debugDurations b) :
    a = b := by
  have items := (List.cons.inj (String.ofList_injective same)).2
  have follows (ds : List Duration) : AfterItem (ds.flatMap debugNext ++ [']']) := by
    cases ds <;> exact ⟨_, _, rfl, by decide⟩
  have opened (d : Duration) (r : List Char) : d.debug ++ r ≠ [']'] := by
    intro closed
    cases shown : d.debug with
    | nil => exact absurd (List.append_eq_nil_iff.mp shown).1 Nat.toDigits_ne_nil
    | cons c rest =>
      have outside := d.debug_isItemChar c (shown ▸ List.mem_cons_self)
      rw [shown] at closed
      rw [(List.cons.inj closed).1] at outside
      exact absurd outside (by decide)
  cases a with
  | nil =>
    cases b with
    | nil => rfl
    | cons d rest => exact absurd items.symm (opened d _)
  | cons d rest =>
    cases b with
    | nil => exact absurd items (opened d _)
    | cons e others =>
      obtain ⟨first, later⟩ := debug_separates d e trivial trivial _ _ (follows rest) (follows others) items
      obtain ⟨same, _⟩ := debugNext_separates rest others (fun _ _ => trivial) (fun _ _ => trivial) _ _ rfl rfl
        later
      rw [show d = e from first, List.map_inj_right (fun _ _ => id) |>.mp same]

example : debugDurations [.fromSecs 1, .fromMillis 1500, .fromMillis 20, .ofNanos 7] =
    "[1s, 1.5s, 20ms, 7ns]" := by decide

end RabbitRs
