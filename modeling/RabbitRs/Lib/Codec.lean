import Mathlib.Data.List.Basic
import Mathlib.Tactic.Ring

/-!
Encodings read back from the front of a stream. A value is separated from what follows when equal
streams start with values of which as much as is encoded agrees; a list without a count, when nothing
that may follow looks like one more item.
-/

namespace Codec

variable {α β γ : Type}

/-- Streams that agree and continue by `Next` start with valid values that agree in what `view` shows. -/
def Separates (Next : List β → Prop) (valid : α → Prop) (view : α → γ) (enc : α → List β) : Prop :=
  ∀ a b, valid a → valid b → ∀ r s, Next r → Next s → enc a ++ r = enc b ++ s → view a = view b ∧ r = s

theorem separates_of_length {valid : α → Prop} {enc : α → List β} {n : Nat}
    (fixed : ∀ a, (enc a).length = n) (injective : ∀ a b, valid a → valid b → enc a = enc b → a = b)
    (Next : List β → Prop) : Separates Next valid id enc := by
  intro a b validA validB r s _ _ same
  obtain ⟨front, rest⟩ := List.append_inj same ((fixed a).trans (fixed b).symm)
  exact ⟨injective a b validA validB front, rest⟩

section Lists

variable {Next Tail : List β → Prop} {valid : α → Prop} {view : α → γ} {enc : α → List β}

theorem next_flatMap (tails : ∀ t, Tail t → Next t)
    (items : ∀ a, valid a → ∀ r, Next r → Next (enc a ++ r)) {xs : List α} (all : ∀ x ∈ xs, valid x)
    {t : List β} (tail : Tail t) : Next (xs.flatMap enc ++ t) := by
  induction xs with
  | nil => exact tails t tail
  | cons x rest ih =>
    rw [List.flatMap_cons, List.append_assoc]
    exact items x (all x List.mem_cons_self) _ (ih fun y member => all y (List.mem_cons_of_mem _ member))

theorem separates_flatMap (separates : Separates Next valid view enc) (tails : ∀ t, Tail t → Next t)
    (items : ∀ a, valid a → ∀ r, Next r → Next (enc a ++ r))
    (ends : ∀ a, valid a → ∀ r, Next r → ¬Tail (enc a ++ r)) :
    Separates Tail (fun xs : List α => ∀ x ∈ xs, valid x) (List.map view) (List.flatMap enc) := by
  intro xs
  induction xs with
  | nil =>
    intro ys _ allYs r s tailR tailS same
    cases ys with
    | nil => exact ⟨rfl, same⟩
    | cons y rest =>
      rw [List.flatMap_cons, List.append_assoc] at same
      have next := next_flatMap tails items (fun z member => allYs z (List.mem_cons_of_mem _ member)) tailS
      exact absurd (same ▸ tailR) (ends y (allYs y List.mem_cons_self) _ next)
  | cons x rest ih =>
    intro ys allXs allYs r s tailR tailS same
    have validX := allXs x List.mem_cons_self
    have allRest : ∀ z ∈ rest, valid z := fun z member => allXs z (List.mem_cons_of_mem _ member)
    have next := next_flatMap tails items allRest tailR
    rw [List.flatMap_cons, List.append_assoc] at same
    cases ys with
    | nil => exact absurd (same.symm ▸ tailS) (ends x validX _ next)
    | cons y others =>
      have allOthers : ∀ z ∈ others, valid z := fun z member => allYs z (List.mem_cons_of_mem _ member)
      rw [List.flatMap_cons, List.append_assoc] at same
      obtain ⟨first, later⟩ := separates x y validX (allYs y List.mem_cons_self) _ _ next
        (next_flatMap tails items allOthers tailS) same
      obtain ⟨same, after⟩ := ih others allRest allOthers r s tailR tailS later
      exact ⟨by rw [List.map_cons, List.map_cons, first, same], after⟩

end Lists

theorem separates_run (p : β → Bool) : Separates (fun r => ∃ c rest, r = c :: rest ∧ p c = false)
    (fun xs : List β => ∀ x ∈ xs, p x = true) id id := by
  intro xs
  induction xs with
  | nil =>
    rintro ys _ allYs r s ⟨c, rest, rfl, outside⟩ _ same
    cases ys with
    | nil => exact ⟨rfl, same⟩
    | cons y others =>
      have head : c = y := (List.cons.inj same).1
      rw [head, allYs y List.mem_cons_self] at outside
      cases outside
  | cons x rest ih =>
    rintro ys allXs allYs r s nextR ⟨c, tail, rfl, outside⟩ same
    cases ys with
    | nil =>
      have head : x = c := (List.cons.inj same).1
      rw [← head, allXs x List.mem_cons_self] at outside
      cases outside
    | cons y others =>
      obtain ⟨rfl, later⟩ := List.cons.inj same
      obtain ⟨rfl, after⟩ := ih others (fun z member => allXs z (List.mem_cons_of_mem _ member))
        (fun z member => allYs z (List.mem_cons_of_mem _ member)) r _ nextR ⟨c, tail, rfl, outside⟩ later
      exact ⟨rfl, after⟩

/-- `n` in `width` bytes, the most significant first. -/
def bigEndian : Nat → Nat → List UInt8
  | 0, _ => []
  | width + 1, n => (n / 256 ^ width).toUInt8 :: bigEndian width (n % 256 ^ width)

@[simp] theorem bigEndian_length (width n : Nat) : (bigEndian width n).length = width := by
  induction width generalizing n with
  | zero => rfl
  | succ width ih => simp [bigEndian, ih]

theorem bigEndian_injective {width a b : Nat} (boundA : a < 256 ^ width) (boundB : b < 256 ^ width)
    (same : bigEndian width a = bigEndian width b) : a = b := by
  induction width generalizing a b with
  | zero => omega
  | succ width ih =>
    simp only [bigEndian, List.cons.injEq] at same
    have positive : 0 < 256 ^ width := Nat.pow_pos (by decide)
    have digitA : a / 256 ^ width < 256 := Nat.div_lt_of_lt_mul (by rwa [Nat.pow_succ] at boundA)
    have digitB : b / 256 ^ width < 256 := Nat.div_lt_of_lt_mul (by rwa [Nat.pow_succ] at boundB)
    have high := congrArg UInt8.toNat same.1
    simp only [Nat.toUInt8_eq, UInt8.toNat_ofNat', Nat.mod_eq_of_lt digitA, Nat.mod_eq_of_lt digitB] at high
    have low := ih (Nat.mod_lt _ positive) (Nat.mod_lt _ positive) same.2
    rw [← Nat.div_add_mod a (256 ^ width), ← Nat.div_add_mod b (256 ^ width), high, low]

theorem bigEndian_separates (width : Nat) (Next : List UInt8 → Prop) :
    Separates Next (· < 256 ^ width) id (bigEndian width) :=
  separates_of_length (bigEndian_length width) (fun _ _ => bigEndian_injective) Next

theorem bigEndian_short {width n : Nat} (extra : Nat) (short : n < 256 ^ width) :
    bigEndian (extra + width) n = List.replicate extra 0 ++ bigEndian width n := by
  induction extra with
  | zero => simp
  | succ extra ih =>
    have small : n < 256 ^ (extra + width) :=
      short.trans_le (Nat.pow_le_pow_right (by decide) (Nat.le_add_left _ _))
    rw [Nat.succ_add, bigEndian, Nat.div_eq_of_lt small, Nat.mod_eq_of_lt small, ih]
    rfl

/-- The byte count in eight bytes, then the bytes. -/
def counted (bytes : List UInt8) : List UInt8 := bigEndian 8 bytes.length ++ bytes

theorem counted_separates (Next : List UInt8 → Prop) :
    Separates Next (fun bytes => bytes.length < 256 ^ 8) id counted := by
  intro a b shortA shortB r s nextR nextS same
  simp only [counted, List.append_assoc] at same
  obtain ⟨lengths, same⟩ := bigEndian_separates 8 (fun _ => True) _ _ shortA shortB _ _ trivial trivial same
  exact List.append_inj same lengths

theorem toDigits_injective {m n : Nat} (same : Nat.toDigits 10 m = Nat.toDigits 10 n) : m = n :=
  calc m = Nat.ofDigitChars 10 (Nat.toDigits 10 m) 0 := Nat.ofDigitChars_ten_toDigits.symm
    _ = Nat.ofDigitChars 10 (Nat.toDigits 10 n) 0 := by rw [same]
    _ = n := Nat.ofDigitChars_ten_toDigits

end Codec
