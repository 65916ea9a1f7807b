import RabbitRs.Lib.Machine
import RabbitRs.Lib.Tally

/-!
The byte budget that publishers share (`publisher/mod.rs`): two retry loops around a
compare-exchange on one counter, under any interleaving of their callers. Each exchange that
succeeds is one atomic reservation or release. A load reads the newest value of the counter.
-/

namespace RabbitRs.Publisher.ByteBudget

open StepMachine Tally

/-- A caller inside one of the two loops, with the value it loaded last, or between them. -/
inductive Call where
  | reserving (bytes : Nat) (seen : Option Nat)
  | refused
  | held (bytes : Nat)
  | releasing (bytes : Nat) (seen : Option Nat)
  | released
  deriving DecidableEq

structure Shared where
  current : Nat := 0
  calls : List Call := []

inductive Event where
  | tryReserve (bytes : Nat)
  | load (index : Nat)
  | compareExchange (index : Nat)
  | drop (index : Nat)

def saturatingAdd (a b : Nat) : Nat := min (a + b) (2 ^ 64 - 1)

def Shared.put (s : Shared) (index : Nat) (call : Call) : Shared :=
  { s with calls := s.calls.set index call }

/-- The exchange writes only over the value the caller saw; otherwise its loop loads again. -/
def Shared.exchange (s : Shared) (index seen new : Nat) (done again : Call) : Shared :=
  if s.current = seen then { s.put index done with current := new } else s.put index again

def step (limit : Nat) (s : Shared) : Event → Option Shared
  | .tryReserve bytes => some { s with calls := s.calls ++ [.reserving bytes none] }
  | .load index =>
    match s.calls[index]? with
    | some (.reserving bytes none) =>
      some (s.put index (if limit < saturatingAdd s.current bytes then .refused
        else .reserving bytes (some s.current)))
    | some (.releasing bytes none) => some (s.put index (.releasing bytes (some s.current)))
    | _ => none
  | .compareExchange index =>
    match s.calls[index]? with
    | some (.reserving bytes (some seen)) =>
      some (s.exchange index seen (saturatingAdd seen bytes) (.held bytes) (.reserving bytes none))
    | some (.releasing bytes (some seen)) =>
      some (s.exchange index seen (seen - bytes) .released (.releasing bytes none))
    | _ => none
  | .drop index =>
    match s.calls[index]? with
    | some (.held bytes) => some (s.put index (.releasing bytes none))
    | _ => none

def machine (limit : Nat) : Machine Shared Event where
  Initial s := s = {}
  step := step limit

def Call.reserved : Call → Nat
  | .held bytes | .releasing bytes _ => bytes
  | _ => 0

/-- A reservation about to be made fits over the value it was computed from. -/
def Call.Fits (limit : Nat) : Call → Prop
  | .reserving bytes (some seen) => seen + bytes ≤ limit
  | _ => True

/-- The budget as its callers are to see it: reservations that fit and releases of what was
reserved, one at a time. -/
inductive Turns (limit : Nat) (s : Shared) : Shared → Prop where
  | enters (bytes : Nat) : Turns limit s { s with calls := s.calls ++ [.reserving bytes none] }
  | stays {index : Nat} {old new : Call} : s.calls[index]? = some old → new.reserved = old.reserved →
      new.Fits limit → (new = .refused → ∃ bytes, old = .reserving bytes none ∧ limit < s.current + bytes) →
      Turns limit s (s.put index new)
  | reserves {index bytes : Nat} {seen : Option Nat} : s.calls[index]? = some (.reserving bytes seen) →
      s.current + bytes ≤ limit →
      Turns limit s { s.put index (.held bytes) with current := s.current + bytes }
  | releases {index bytes : Nat} {seen : Option Nat} : s.calls[index]? = some (.releasing bytes seen) →
      bytes ≤ s.current → Turns limit s { s.put index .released with current := s.current - bytes }

structure Exact (limit : Nat) (s : Shared) : Prop where
  exact : s.current = total Call.reserved s.calls
  bounded : s.current ≤ limit
  fits : ∀ call ∈ s.calls, call.Fits limit

section

variable {limit : Nat} {s t : Shared} {index : Nat} {old : Call}

theorem Exact.put (known : Exact limit s) (found : s.calls[index]? = some old) {new : Call}
    {current : Nat} (fits : new.Fits limit) (bounded : current ≤ limit)
    (moved : current + old.reserved = s.current + new.reserved) :
    Exact limit { s.put index new with current } := by
  have sums := total_set Call.reserved new found
  have before := known.exact
  refine ⟨?_, bounded, ?_⟩
  · show current = total Call.reserved (s.calls.set index new)
    omega
  · intro call member
    rcases List.mem_or_eq_of_mem_set member with kept | rfl
    · exact known.fits call kept
    · exact fits

theorem Turns.exact (turns : Turns limit s t) (known : Exact limit s) : Exact limit t := by
  cases turns with
  | enters bytes =>
    refine ⟨by simp [known.exact, Call.reserved], known.bounded, fun call member => ?_⟩
    rcases List.mem_append.mp member with kept | new
    · exact known.fits call kept
    · obtain rfl := List.mem_singleton.mp new
      trivial
  | stays found same fits => exact known.put found fits known.bounded (by omega)
  | reserves found fits => exact known.put found trivial fits rfl
  | releases found inside =>
    have bounded := known.bounded
    exact known.put found trivial (by omega) (Nat.sub_add_cancel inside)

theorem exchange_turns {seen new : Nat} {done again : Call} (found : s.calls[index]? = some old)
    (retries : again.reserved = old.reserved ∧ again.Fits limit ∧ again ≠ .refused)
    (succeeds : s.current = seen → Turns limit s { s.put index done with current := new }) :
    Turns limit s (s.exchange index seen new done again) := by
  unfold Shared.exchange
  split
  case isTrue same => exact succeeds same
  case isFalse => exact .stays found retries.1 retries.2.1 fun refused => absurd refused retries.2.2

/-- Below the top of its range the sum is not cut where it matters. -/
theorem saturatingAdd_eq (small : limit < 2 ^ 64 - 1) {a b : Nat} (fits : saturatingAdd a b ≤ limit) :
    saturatingAdd a b = a + b := by
  unfold saturatingAdd at fits ⊢
  omega

theorem step_turns (small : limit < 2 ^ 64 - 1) (known : Exact limit s) {event : Event}
    (next : step limit s event = some t) : Turns limit s t := by
  cases event with
  | tryReserve bytes =>
    cases next
    exact .enters bytes
  | load index =>
    simp only [step] at next
    split at next
    case h_1 bytes found =>
      cases next
      by_cases refused : limit < saturatingAdd s.current bytes
      · rw [if_pos refused]
        refine .stays found rfl trivial fun _ => ⟨bytes, rfl, ?_⟩
        exact refused.trans_le (min_le_left _ _)
      · rw [if_neg refused]
        refine .stays found rfl ?_ (by rintro ⟨⟩)
        exact (saturatingAdd_eq small (not_lt.mp refused)).ge.trans (not_lt.mp refused)
    case h_2 bytes found =>
      cases next
      exact .stays found rfl trivial (by rintro ⟨⟩)
    case h_3 => cases next
  | compareExchange index =>
    simp only [step] at next
    split at next
    case h_1 bytes seen found =>
      cases next
      have fits : seen + bytes ≤ limit := known.fits _ (List.mem_of_getElem? found)
      refine exchange_turns found ⟨rfl, trivial, by rintro ⟨⟩⟩ ?_
      rintro rfl
      rw [saturatingAdd_eq small ((min_le_left _ _).trans fits)]
      exact .reserves found fits
    case h_2 bytes seen found =>
      cases next
      have inside : bytes ≤ s.current := by
        rw [known.exact]
        exact weight_le_total Call.reserved (List.mem_of_getElem? found)
      refine exchange_turns found ⟨rfl, trivial, by rintro ⟨⟩⟩ ?_
      rintro rfl
      exact .releases found inside
    case h_3 => cases next
  | drop index =>
    simp only [step] at next
    split at next
    case h_1 bytes found =>
      cases next
      exact .stays found rfl trivial (by rintro ⟨⟩)
    case h_2 => cases next

theorem reachable_exact (small : limit < 2 ^ 64 - 1) (reached : Reachable (machine limit) s) :
    Exact limit s := by
  refine reached.invariant ?_ fun _ known _ next => (step_turns small known next).exact known
  rintro s rfl
  exact ⟨rfl, Nat.zero_le _, fun _ member => absurd member List.not_mem_nil⟩

/-- Whatever the interleaving, the counter is what callers hold, within the limit, and a step is a
reservation that fits, a release of bytes that are held, a refusal that is due, or no change. -/
theorem interleaved_budget (small : limit < 2 ^ 64 - 1) (reached : Reachable (machine limit) s) :
    s.current = total Call.reserved s.calls ∧ s.current ≤ limit ∧
      ∀ event t, step limit s event = some t → Turns limit s t := by
  have known := reachable_exact small reached
  exact ⟨known.exact, known.bounded, fun event t next => step_turns small known next⟩

/-- Two callers load the same value; the exchange of the second fails, and its next load is refused. -/
theorem second_reservation_refused : ∃ s, Reachable (machine 10) s ∧
    s.calls = [.held 6, .refused] ∧ s.current = total Call.reserved s.calls := by
  obtain ⟨s, reached, calls⟩ := exists_reachable (machine 10) rfl
    [.tryReserve 6, .tryReserve 6, .load 0, .load 1, .compareExchange 0, .compareExchange 1, .load 1]
    (fun s => s.calls = [.held 6, .refused]) (by decide +kernel)
  exact ⟨s, reached, calls, (interleaved_budget (by decide) reached).1⟩

end

end RabbitRs.Publisher.ByteBudget
