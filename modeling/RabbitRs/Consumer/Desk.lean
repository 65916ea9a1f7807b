import RabbitRs.Consumer.Frames
import RabbitRs.Consumer.Refinement

/-!
The desk of a channel: at most one settlement or cumulative acknowledgement is under way, single ones
wait before cumulative ones, and nothing waits while none is under way.
-/

namespace RabbitRs.Consumer

open StepMachine
open Ordered (Table)

variable {sub : Subscription} {capacity : Nat} {v w : View}

/-- What the in-flight flag stands for; `dropped` is what a closed actor leaves behind. -/
inductive Flight : Bool → List SettlementFuture → List ThroughFuture → Prop where
  | vacant : Flight false [] []
  | single (future : SettlementFuture) : Flight true [future] []
  | through (future : ThroughFuture) : Flight true [] [future]
  | dropped : Flight true [] []

namespace Flight

variable {busy : Bool} {singles : List SettlementFuture} {throughs : List ThroughFuture} {index : Nat}

theorem idle (flight : Flight busy singles throughs) (free : busy = false) : singles = [] ∧ throughs = [] := by
  cases flight with
  | vacant => exact ⟨rfl, rfl⟩
  | single | through | dropped => cases free

theorem of_single {future : SettlementFuture} (flight : Flight busy singles throughs)
    (found : singles[index]? = some future) :
    index = 0 ∧ busy = true ∧ singles = [future] ∧ throughs = [] := by
  cases flight with
  | single only =>
    rw [List.getElem?_singleton, Option.ite_none_right_eq_some] at found
    obtain ⟨rfl, same⟩ := found
    cases same
    exact ⟨rfl, rfl, rfl, rfl⟩
  | vacant | through | dropped => simp at found

theorem of_through {future : ThroughFuture} (flight : Flight busy singles throughs)
    (found : throughs[index]? = some future) :
    index = 0 ∧ busy = true ∧ singles = [] ∧ throughs = [future] := by
  cases flight with
  | through only =>
    rw [List.getElem?_singleton, Option.ite_none_right_eq_some] at found
    obtain ⟨rfl, same⟩ := found
    cases same
    exact ⟨rfl, rfl, rfl, rfl⟩
  | vacant | single | dropped => simp at found

end Flight

namespace Lane

variable (lane : Lane)

/-- The flag of the lane agrees with its futures. -/
def Flown : Prop := Flight lane.inFlight lane.pendingSettlements lane.pendingSettleThroughs

/-- Nothing waits on the desk. -/
def Clear : Prop := lane.settlementQueue = [] ∧ lane.settleThroughQueue = []

def singles : List Nat := lane.pendingSettlements.map (·.tag) ++ lane.settlementQueue.map (·.1)

def throughs : List Through := lane.pendingSettleThroughs.map (·.through) ++ lane.settleThroughQueue

/-- The cumulative acknowledgement a flush stages for the recorded run. -/
def flushThrough : Option Through :=
  lane.ackedRun.getLast?.map fun target => { target, affected := lane.ackedRun }

variable {lane} {params : Nat × Settlement} {through : Through}

section Same

variable {other : Lane} (same : lane.desk = other.desk)

include same

theorem flown_of_desk : lane.Flown ↔ other.Flown := by
  have parts := congrArg
    (fun desk : Desk => Flight desk.inFlight desk.pendingSettlements desk.pendingSettleThroughs) same
  exact iff_of_eq parts

theorem clear_of_desk : lane.Clear ↔ other.Clear := by
  have parts := congrArg (fun desk : Desk => desk.settlementQueue = [] ∧ desk.settleThroughQueue = []) same
  exact iff_of_eq parts

theorem singles_of_desk : lane.singles = other.singles := by
  have parts := congrArg
    (fun desk : Desk => desk.pendingSettlements.map (·.tag) ++ desk.settlementQueue.map (·.1)) same
  exact parts

theorem throughs_of_desk : lane.throughs = other.throughs := by
  have parts := congrArg
    (fun desk : Desk => desk.pendingSettleThroughs.map (·.through) ++ desk.settleThroughQueue) same
  exact parts

end Same

/-! ### Operations of the desk -/

theorem Flown.enqueueSettlement (flown : lane.Flown) : (lane.enqueueSettlement params).Flown := by
  unfold Lane.enqueueSettlement
  split
  · exact flown
  · rename_i free
    obtain ⟨none, nothing⟩ := flown.idle (Bool.not_eq_true _ ▸ free)
    unfold Flown launchSettlement
    rw [none, nothing]
    exact .single _

theorem Flown.enqueueSettleThrough (flown : lane.Flown) : (lane.enqueueSettleThrough through).Flown := by
  unfold Lane.enqueueSettleThrough
  split
  · exact flown
  · rename_i free
    obtain ⟨none, nothing⟩ := flown.idle (Bool.not_eq_true _ ▸ free)
    unfold Flown launchSettleThrough
    rw [none, nothing]
    exact .through _

theorem enqueueSettlement_busy : (lane.enqueueSettlement params).inFlight = true := by
  unfold enqueueSettlement
  split
  · assumption
  · rfl

theorem enqueueSettleThrough_busy : (lane.enqueueSettleThrough through).inFlight = true := by
  unfold enqueueSettleThrough
  split
  · assumption
  · rfl

theorem enqueueSettlement_singles (still : lane.inFlight = false → lane.Clear) :
    (lane.enqueueSettlement params).singles = lane.singles ++ [params.1] := by
  unfold enqueueSettlement singles
  split
  · simp
  · rename_i free
    have clear := still (Bool.not_eq_true _ ▸ free)
    simp [launchSettlement, clear.1]

theorem enqueueSettlement_throughs : (lane.enqueueSettlement params).throughs = lane.throughs := by
  unfold enqueueSettlement
  split <;> rfl

theorem enqueueSettleThrough_throughs (still : lane.inFlight = false → lane.Clear) :
    (lane.enqueueSettleThrough through).throughs = lane.throughs ++ [through] := by
  unfold enqueueSettleThrough throughs
  split
  · simp
  · rename_i free
    have clear := still (Bool.not_eq_true _ ▸ free)
    simp [launchSettleThrough, clear.2]

theorem enqueueSettleThrough_singles : (lane.enqueueSettleThrough through).singles = lane.singles := by
  unfold enqueueSettleThrough
  split <;> rfl

theorem drainSettlementQueue_singles : lane.drainSettlementQueue.singles = lane.singles := by
  unfold drainSettlementQueue singles
  split
  · rename_i front
    simp [launchSettlement, front]
  · rfl
  · rfl

theorem drainSettlementQueue_throughs : lane.drainSettlementQueue.throughs = lane.throughs := by
  unfold drainSettlementQueue throughs
  split
  · rfl
  · rename_i front
    simp [launchSettleThrough, front]
  · rfl

theorem Flown.drainSettlementQueue (flown : lane.Flown) (free : lane.inFlight = false) :
    lane.drainSettlementQueue.Flown ∧
      (lane.drainSettlementQueue.inFlight = false → lane.drainSettlementQueue.Clear) := by
  obtain ⟨none, nothing⟩ := flown.idle free
  unfold Flown Lane.drainSettlementQueue
  split
  · simp only [launchSettlement, none, nothing]
    exact ⟨.single _, nofun⟩
  · simp only [launchSettleThrough, none, nothing]
    exact ⟨.through _, nofun⟩
  · rename_i singles throughs
    exact ⟨flown, fun _ => ⟨singles, throughs⟩⟩

theorem foldl_enqueueSettlement (many : List (Nat × Settlement)) (flown : lane.Flown)
    (still : lane.inFlight = false → lane.Clear) :
    (many.foldl enqueueSettlement lane).Flown ∧
      ((many.foldl enqueueSettlement lane).inFlight = false → (many.foldl enqueueSettlement lane).Clear) ∧
      (many.foldl enqueueSettlement lane).singles = lane.singles ++ many.map (·.1) ∧
      (many.foldl enqueueSettlement lane).throughs = lane.throughs := by
  induction many generalizing lane with
  | nil => exact ⟨flown, still, by simp, rfl⟩
  | cons params rest ih =>
    have busy : (lane.enqueueSettlement params).inFlight = true := enqueueSettlement_busy
    have later := @ih (lane.enqueueSettlement params) flown.enqueueSettlement (by simp [busy])
    rw [enqueueSettlement_singles still, enqueueSettlement_throughs, List.append_assoc] at later
    exact later

theorem flushAcked_desk (flown : lane.Flown) (still : lane.inFlight = false → lane.Clear) :
    lane.flushAcked.Flown ∧ (lane.flushAcked.inFlight = false → lane.flushAcked.Clear) ∧
      (lane.flushAcked.desk = lane.desk ∨ lane.inFlight = false ∧ lane.flushAcked.singles = lane.stragglers ∧
        lane.flushAcked.throughs = lane.flushThrough.toList ∧ lane.flushAcked.ackedBatch = .empty) := by
  unfold flushAcked
  split
  · exact ⟨flown, still, .inl rfl⟩
  · rename_i idle
    rw [Bool.not_eq_true, Bool.or_eq_false_iff] at idle
    obtain ⟨none, nothing⟩ := flown.idle idle.1
    obtain ⟨noSingles, noThroughs⟩ := still idle.1
    have tags : (lane.stragglers.map fun tag => (tag, Settlement.ack)).map (·.1) = lane.stragglers := by
      simp [Function.comp_def]
    dsimp only
    split
    · rename_i target last
      refine ⟨?_, nofun, .inr ⟨idle.1, ?_, ?_, rfl⟩⟩
      · simp only [Flown, launchSettleThrough, none, nothing]
        exact .through _
      · simp only [singles, launchSettleThrough, none, noSingles, List.map_nil, List.nil_append, tags]
      · simp [throughs, launchSettleThrough, nothing, noThroughs, flushThrough, last]
    · rename_i last
      have staged := @foldl_enqueueSettlement { lane with ackedBatch := .empty }
        (lane.stragglers.map fun tag => (tag, Settlement.ack)) flown still
      obtain ⟨flown, still, singles, throughs⟩ := staged
      refine ⟨flown, still, .inr ⟨idle.1, ?_, ?_, ?_⟩⟩
      · rw [singles, tags]
        simp [Lane.singles, none, noSingles]
      · rw [throughs]
        simp [Lane.throughs, nothing, noThroughs, flushThrough, last]
      · exact foldl_keeps ackedBatch (fun lane params => by unfold enqueueSettlement; split <;> rfl) _ _

end Lane

/-! ### One at a time -/

/-- The desk invariant. While a result is under completion the flag is down; otherwise nothing waits
unless something is in flight. -/
structure Solo (v : View) : Prop where
  flown : v.lane.Flown
  vacated : v.finishing ≠ none → v.lane.inFlight = false
  still : v.finishing = none → v.lane.inFlight = false → v.lane.Clear

theorem Solo.of_desk (solo : Solo v) (desk : w.lane.desk = v.lane.desk) (finishing : w.finishing = v.finishing) :
    Solo w := by
  have flag : w.lane.inFlight = v.lane.inFlight := congrArg Desk.inFlight desk
  refine ⟨(Lane.flown_of_desk desk).mpr solo.flown, ?_, ?_⟩
  · rw [finishing, flag]
    exact solo.vacated
  · rw [finishing, flag, Lane.clear_of_desk desk]
    exact solo.still

theorem Flow.desk (flow : Flow sub capacity v w) : w.lane.desk = v.lane.desk := by
  cases flow
  case refuse | unparkOversized | poison => exact Lane.discard_desk _ _
  all_goals rfl

theorem Flow.same_finishing (flow : Flow sub capacity v w) : w.finishing = v.finishing := by
  cases flow <;> rfl

namespace Lane

variable {lane : Lane} {tag index : Nat} {result : Outcome} {through : Through}

theorem beginSettlement_desk :
    (lane.beginSettlement index tag result).desk = (lane.retireSettlement index).desk := by
  unfold beginSettlement
  dsimp only
  split <;> rfl

theorem beginThrough_desk :
    (lane.beginThrough index through result).desk = (lane.retireSettleThrough index).desk := by
  unfold beginThrough
  dsimp only
  split
  · exact releaseAffected_desk _
  · rfl

def concluded (lane : Lane) (sub : Subscription) (tag : Nat) (result : Outcome) : Lane :=
  (((if State.isTerminal result then lane.settle tag else lane).setSettling tag false).conclude sub tag
    result)

theorem concluded_desk : (lane.concluded sub tag result).desk = lane.desk := by
  refine (conclude_desk _ _ _).trans ?_
  split <;> rfl

theorem endSettlement_eq :
    lane.endSettlement sub tag result = (lane.concluded sub tag result).drainSettlementQueue := rfl

def concludedThrough (lane : Lane) (through : Through) (result : Outcome) : Lane :=
  (if State.throughTerminal result then lane.settleThrough through (State.throughAcked result)
    else lane).markAffected through.affected (State.throughState result)

theorem concludedThrough_desk : (lane.concludedThrough through result).desk = lane.desk := by
  refine (markAffected_desk _ _).trans ?_
  split <;> rfl

theorem endThrough_eq :
    lane.endThrough through result = (lane.concludedThrough through result).drainSettlementQueue := rfl

def closed (lane : Lane) (index tag : Nat) (result : Outcome) : Lane :=
  (((lane.retireSettlement index).setState tag (closeState result)).setSettling tag false).recordSettled [tag]

theorem closeSettlement_eq :
    lane.closeSettlement index tag result = (lane.closed index tag result).drainSettlementQueue := rfl

def closedThrough (lane : Lane) (index : Nat) (through : Through) (result : Outcome) : Lane :=
  ((lane.retireSettleThrough index).markAffected through.affected
    (closeState result)).recordSettled through.affected

theorem closedThrough_desk :
    (lane.closedThrough index through result).desk = (lane.retireSettleThrough index).desk :=
  (markAffected_desk through.affected (closeState result)).trans rfl

theorem closeThrough_eq : lane.closeThrough index through result =
      (lane.closedThrough index through result).drainSettlementQueue := rfl

def takenUp (lane : Lane) (tag : Nat) (settlement : Settlement) : Lane :=
  let lane := lane.setSettling tag true
  if settlement.terminal = .rejected then lane.chooseReject tag else lane

theorem takenUp_desk {settlement : Settlement} : (lane.takenUp tag settlement).desk = lane.desk := by
  unfold takenUp
  dsimp only
  split <;> rfl

theorem acceptSettlement_eq {settlement : Settlement} : lane.acceptSettlement tag settlement =
    (lane.takenUp tag settlement).enqueueSettlement (tag, settlement) := rfl

def takenUpThrough (lane : Lane) (through : Through) : Lane :=
  ((lane.setSettling through.target true).claimAll through.affected).chooseAck through.affected

theorem takenUpThrough_desk : (lane.takenUpThrough through).desk = lane.desk := by
  have claimed := @claimAll_offTokens (lane.setSettling through.target true) through.affected
  exact (desk_of_offTokens claimed).trans rfl

theorem acceptThrough_staged :
    lane.acceptThrough through = (lane.takenUpThrough through).enqueueSettleThrough through := rfl

end Lane

namespace Solo

variable {tag index : Nat} {result : Outcome}

theorem drained {lane : Lane} (flown : lane.Flown) (free : lane.inFlight = false)
    (here : w.lane = lane.drainSettlementQueue) (done : w.finishing = none) : Solo w := by
  obtain ⟨flown, still⟩ := flown.drainSettlementQueue free
  refine ⟨here ▸ flown, fun under => absurd done under, fun _ => here ▸ still⟩

theorem retired (solo : Solo v) {future : SettlementFuture}
    (found : v.lane.pendingSettlements[index]? = some future) :
    (v.lane.retireSettlement index).Flown := by
  obtain ⟨rfl, -, one, nothing⟩ := solo.flown.of_single found
  unfold Lane.Flown Lane.retireSettlement
  rw [one, nothing]
  exact .vacant

theorem retiredThrough (solo : Solo v) {future : ThroughFuture}
    (found : v.lane.pendingSettleThroughs[index]? = some future) :
    (v.lane.retireSettleThrough index).Flown := by
  obtain ⟨rfl, -, none, one⟩ := solo.flown.of_through found
  unfold Lane.Flown Lane.retireSettleThrough
  rw [none, one]
  exact .vacant

theorem unfinished (solo : Solo v) {future : SettlementFuture}
    (found : v.lane.pendingSettlements[index]? = some future) : v.finishing = none := by
  by_contra under
  obtain ⟨-, busy, -⟩ := solo.flown.of_single found
  exact absurd (solo.vacated under) (by simp [busy])

theorem unfinishedThrough (solo : Solo v) {future : ThroughFuture}
    (found : v.lane.pendingSettleThroughs[index]? = some future) : v.finishing = none := by
  by_contra under
  obtain ⟨-, busy, -⟩ := solo.flown.of_through found
  exact absurd (solo.vacated under) (by simp [busy])

theorem setProgress (solo : Solo v) {future : SettlementFuture} (progress : Progress)
    (found : v.lane.pendingSettlements[index]? = some future) {lane : Lane} (desk : lane.desk = v.lane.desk) :
    Solo { v with lane := lane.setProgress index future progress } := by
  obtain ⟨rfl, busy, one, nothing⟩ := solo.flown.of_single found
  have flag : lane.inFlight = true := (congrArg Desk.inFlight desk).trans busy
  have futures : lane.pendingSettlements = [future] := (congrArg Desk.pendingSettlements desk).trans one
  have throughs : lane.pendingSettleThroughs = [] :=
    (congrArg Desk.pendingSettleThroughs desk).trans nothing
  refine ⟨?_, fun under => absurd (solo.unfinished found) under, fun _ free => ?_⟩
  · unfold Lane.Flown Lane.setProgress
    rw [flag, futures, throughs]
    exact .single _
  · exact absurd free (by simp [Lane.setProgress, flag])

theorem setResult (solo : Solo v) {future : ThroughFuture}
    (found : v.lane.pendingSettleThroughs[index]? = some future) {lane : Lane}
    (desk : lane.desk = v.lane.desk) : Solo { v with lane := lane.setResult index future result } := by
  obtain ⟨rfl, busy, none, one⟩ := solo.flown.of_through found
  have flag : lane.inFlight = true := (congrArg Desk.inFlight desk).trans busy
  have futures : lane.pendingSettlements = [] := (congrArg Desk.pendingSettlements desk).trans none
  have throughs : lane.pendingSettleThroughs = [future] :=
    (congrArg Desk.pendingSettleThroughs desk).trans one
  refine ⟨?_, fun under => absurd (solo.unfinishedThrough found) under, fun _ free => ?_⟩
  · unfold Lane.Flown Lane.setResult
    rw [flag, futures, throughs]
    exact .through _
  · exact absurd free (by simp [Lane.setResult, flag])

end Solo

theorem Quiet.solo (move : Quiet sub capacity v w) (solo : Solo v) : Solo w := by
  cases move
  case flow flow => exact solo.of_desk flow.desk flow.same_finishing
  case acceptAck => exact ⟨solo.flown, solo.vacated, solo.still⟩
  case flush ready =>
    obtain ⟨flown, still, -⟩ := Lane.flushAcked_desk solo.flown (solo.still ready.1)
    exact ⟨flown, fun under => absurd ready.1 under, fun _ => still⟩
  case progress found _ | confirm found _ => exact solo.setProgress _ found rfl
  case beginSettlement found _ =>
    refine ⟨(Lane.flown_of_desk Lane.beginSettlement_desk).mpr (solo.retired found), fun _ => ?_, nofun⟩
    exact congrArg Desk.inFlight Lane.beginSettlement_desk
  case beginThrough found _ =>
    refine ⟨(Lane.flown_of_desk Lane.beginThrough_desk).mpr (solo.retiredThrough found), fun _ => ?_, nofun⟩
    exact congrArg Desk.inFlight Lane.beginThrough_desk
  case endSettlement under =>
    have free := solo.vacated (by simp [under])
    refine Solo.drained ((Lane.flown_of_desk Lane.concluded_desk).mpr solo.flown) ?_ rfl rfl
    exact (congrArg Desk.inFlight Lane.concluded_desk).trans free
  case endThrough under =>
    have free := solo.vacated (by simp [under])
    refine Solo.drained ((Lane.flown_of_desk Lane.concludedThrough_desk).mpr solo.flown) ?_ rfl rfl
    exact (congrArg Desk.inFlight Lane.concludedThrough_desk).trans free
  case closeSettlement index future result _ found _ =>
    have flown : (v.lane.closed index future.tag result).Flown := solo.retired found
    exact .drained flown rfl rfl (solo.unfinished found)
  case closeThrough index future result _ found _ =>
    have desk := @Lane.closedThrough_desk v.lane index result future.through
    have flown := (Lane.flown_of_desk desk).mpr (solo.retiredThrough found)
    exact .drained flown (congrArg Desk.inFlight desk) rfl (solo.unfinishedThrough found)
  case dropFutures =>
    refine ⟨?_, solo.vacated, solo.still⟩
    unfold Lane.Flown
    cases v.lane.inFlight with
    | false => exact .vacant
    | true => exact .dropped
  all_goals exact solo.of_desk rfl rfl

theorem Solo.staged {lane : Lane} (flown : lane.Flown) (busy : lane.inFlight = true)
    (here : w.lane = lane) (done : w.finishing = none) : Solo w :=
  ⟨here ▸ flown, fun under => absurd done under, fun _ free => absurd free (by simp [here, busy])⟩

theorem Marked.solo {mark : Mark} (move : Marked v mark w) (solo : Solo v) : Solo w := by
  cases move
  case settle tag settlement _ ready _ _ _ =>
    have flown : (v.lane.takenUp tag settlement).Flown :=
      (Lane.flown_of_desk Lane.takenUp_desk).mpr solo.flown
    exact .staged flown.enqueueSettlement Lane.enqueueSettlement_busy rfl ready.1
  case through through _ ready _ _ _ _ _ _ =>
    have flown : (v.lane.takenUpThrough through).Flown :=
      (Lane.flown_of_desk Lane.takenUpThrough_desk).mpr solo.flown
    exact .staged flown.enqueueSettleThrough Lane.enqueueSettleThrough_busy rfl ready.1
  case perform found _ => exact solo.setProgress _ found (Lane.transmit_desk _ _)
  case performThrough found _ => exact solo.setResult found (Lane.transmit_desk _ _)
  case task => exact solo.of_desk (Lane.transmit_desk _ _) rfl

/-! ### What is staged -/

def Finishing.single? : Finishing → Option Nat
  | .settlement tag _ => some tag
  | .through _ _ => none

def Finishing.through? : Finishing → Option Through
  | .settlement _ _ => none
  | .through whole _ => some whole

/-- The deliveries whose own settlement is under completion, in flight or waiting, in that order. -/
def View.singles (v : View) : List Nat := (v.finishing.bind Finishing.single?).toList ++ v.lane.singles

def View.throughs (v : View) : List Through := (v.finishing.bind Finishing.through?).toList ++ v.lane.throughs

section Staged

variable {lane : Lane} {index tag : Nat} {result : Outcome} {through : Through}

theorem View.singles_of_desk (desk : w.lane.desk = v.lane.desk) (finishing : w.finishing = v.finishing) :
    w.singles = v.singles := by
  rw [View.singles, View.singles, finishing, Lane.singles_of_desk desk]

theorem View.throughs_of_desk (desk : w.lane.desk = v.lane.desk) (finishing : w.finishing = v.finishing) :
    w.throughs = v.throughs := by
  rw [View.throughs, View.throughs, finishing, Lane.throughs_of_desk desk]

namespace Lane

theorem endSettlement_singles : (lane.endSettlement sub tag result).singles = lane.singles := by
  rw [endSettlement_eq, drainSettlementQueue_singles, singles_of_desk concluded_desk]

theorem endSettlement_throughs : (lane.endSettlement sub tag result).throughs = lane.throughs := by
  rw [endSettlement_eq, drainSettlementQueue_throughs, throughs_of_desk concluded_desk]

theorem endThrough_singles : (lane.endThrough through result).singles = lane.singles := by
  rw [endThrough_eq, drainSettlementQueue_singles, singles_of_desk concludedThrough_desk]

theorem endThrough_throughs : (lane.endThrough through result).throughs = lane.throughs := by
  rw [endThrough_eq, drainSettlementQueue_throughs, throughs_of_desk concludedThrough_desk]

theorem set_found {Value : Type*} {values : List Value} {value : Value} (found : values[index]? = some value) :
    values.set index value = values := by
  obtain ⟨inside, rfl⟩ := List.getElem?_eq_some_iff.mp found
  exact List.set_getElem_self inside

theorem enqueueSettlement_batch {params : Nat × Settlement} :
    (lane.enqueueSettlement params).ackedBatch = lane.ackedBatch := by
  unfold enqueueSettlement
  split <;> rfl

theorem enqueueSettleThrough_batch : (lane.enqueueSettleThrough through).ackedBatch = lane.ackedBatch := by
  unfold enqueueSettleThrough
  split <;> rfl

theorem drainSettlementQueue_batch : lane.drainSettlementQueue.ackedBatch = lane.ackedBatch := by
  unfold drainSettlementQueue
  split <;> rfl

theorem endSettlement_batch : (lane.endSettlement sub tag result).ackedBatch = lane.ackedBatch :=
  drainSettlementQueue_batch.trans (congrArg Desk.ackedBatch concluded_desk)

theorem endThrough_batch : (lane.endThrough through result).ackedBatch = lane.ackedBatch :=
  drainSettlementQueue_batch.trans (congrArg Desk.ackedBatch concludedThrough_desk)

theorem setProgress_singles {future : SettlementFuture} {progress : Progress}
    (found : lane.pendingSettlements[index]? = some future) :
    (lane.setProgress index future progress).singles = lane.singles := by
  have same : (lane.pendingSettlements.set index { future with progress }).map (·.tag) =
      lane.pendingSettlements.map (·.tag) := by
    rw [List.map_set]
    refine set_found ?_
    rw [List.getElem?_map, found]
    rfl
  rw [singles, singles, ← same]
  rfl

theorem setResult_throughs {future : ThroughFuture} (found : lane.pendingSettleThroughs[index]? = some future) :
    (lane.setResult index future result).throughs = lane.throughs := by
  have same : (lane.pendingSettleThroughs.set index { future with result := some result }).map (·.through) =
      lane.pendingSettleThroughs.map (·.through) := by
    rw [List.map_set]
    refine set_found ?_
    rw [List.getElem?_map, found]
    rfl
  rw [throughs, throughs, ← same]
  rfl

end Lane

namespace Solo

variable (solo : Solo v)

include solo

theorem retired_singles {future : SettlementFuture} (found : v.lane.pendingSettlements[index]? = some future) :
    v.lane.singles = future.tag :: (v.lane.retireSettlement index).singles := by
  obtain ⟨rfl, -, one, -⟩ := solo.flown.of_single found
  simp [Lane.singles, Lane.retireSettlement, one]

theorem retired_throughs {future : ThroughFuture}
    (found : v.lane.pendingSettleThroughs[index]? = some future) :
    v.lane.throughs = future.through :: (v.lane.retireSettleThrough index).throughs := by
  obtain ⟨rfl, -, -, one⟩ := solo.flown.of_through found
  simp [Lane.throughs, Lane.retireSettleThrough, one]

theorem staged_of_idle (ready : v.Ready) (free : v.lane.inFlight = false) :
    v.singles = [] ∧ v.throughs = [] := by
  obtain ⟨none, nothing⟩ := solo.flown.idle free
  obtain ⟨singles, throughs⟩ := solo.still ready.1 free
  simp [View.singles, View.throughs, Lane.singles, Lane.throughs, ready.1, none, nothing, singles, throughs]

end Solo

end Staged

theorem solo_initial : Solo .initial := ⟨.vacant, fun _ => rfl, fun _ _ => ⟨rfl, rfl⟩⟩

theorem Lane.futures_of_desk {lane other : Lane} (same : lane.desk = other.desk) :
    lane.pendingSettleThroughs = other.pendingSettleThroughs :=
  congrArg Desk.pendingSettleThroughs same

/-- The cumulative acknowledgement at work, if any. -/
def View.underway (v : View) : Option Through :=
  (v.finishing.bind Finishing.through?).or (v.lane.pendingSettleThroughs.head?.map (·.through))

theorem View.underway_mem {through : Through} (underway : through ∈ v.underway) : through ∈ v.throughs := by
  unfold View.underway at underway
  rcases Option.or_eq_some_iff.mp underway with finishing | ⟨-, first⟩
  · exact List.mem_append_left _ (Option.mem_toList.mpr finishing)
  · obtain ⟨future, head, rfl⟩ := Option.mem_map.mp first
    have member := List.mem_of_head? head
    exact List.mem_append_right _ (List.mem_append_left _ (List.mem_map_of_mem member))

theorem View.underway_of_desk (desk : w.lane.desk = v.lane.desk) (finishing : w.finishing = v.finishing) :
    w.underway = v.underway := by
  rw [View.underway, View.underway, finishing, Lane.futures_of_desk desk]

theorem Lane.Flown.drained_head {lane : Lane} {future : ThroughFuture} (flown : lane.Flown)
    (free : lane.inFlight = false)
    (head : lane.drainSettlementQueue.pendingSettleThroughs.head? = some future) :
    lane.drainSettlementQueue.singles = [] := by
  obtain ⟨none, nothing⟩ := flown.idle free
  rw [drainSettlementQueue_singles]
  unfold Lane.drainSettlementQueue at head
  split at head
  · simp [Lane.launchSettlement, nothing] at head
  · rename_i empty _
    simp [Lane.singles, none, empty]
  · simp [nothing] at head

theorem underway_drained {lane : Lane} {through : Through} (flown : lane.Flown) (free : lane.inFlight = false)
    (here : w.lane = lane.drainSettlementQueue) (done : w.finishing = none) (underway : through ∈ w.underway) :
    w.singles = [] := by
  unfold View.underway at underway
  rw [done, Option.bind_none, Option.none_or, here] at underway
  obtain ⟨future, head, -⟩ := Option.mem_map.mp underway
  have empty := flown.drained_head free head
  rw [View.singles, done, here, empty]
  rfl

/-! ### The moves of the desk -/

namespace Lane

variable {lane : Lane} {tag : Nat}

theorem mem_ackedRun (member : tag ∈ lane.ackedRun) :
    tag ∈ lane.ackedBatch.keys ∧ tag ∈ lane.ledger.pending.keys ∧ lane.ledger.ackedPrefix < tag := by
  obtain ⟨entry, run, rfl⟩ := List.mem_map.mp member
  obtain ⟨among, above⟩ := Table.mem_after.mp ((List.takeWhile_sublist _).subset run)
  have recorded := List.all_eq_true.mp List.all_takeWhile entry run
  exact ⟨by simpa using recorded, Table.mem_keys_of_entry among, above⟩

theorem mem_stragglers (member : tag ∈ lane.stragglers) :
    tag ∈ lane.ackedBatch.keys ∧ tag ∈ lane.ledger.pending.keys ∧
      lane.ackedRun.getLast?.getD lane.ledger.ackedPrefix < tag := by
  obtain ⟨beyond, pending⟩ := List.mem_filter.mp member
  obtain ⟨recorded, above⟩ := Table.mem_keys_after.mp beyond
  exact ⟨recorded, by simpa using pending, above⟩

theorem stragglers_sorted : lane.stragglers.Pairwise (· < ·) :=
  (List.pairwise_map.mpr (lane.ackedBatch.after_sorted _)).filter _

theorem flushThrough_eq_some {through : Through} : lane.flushThrough = some through ↔
      lane.ackedRun.getLast? = some through.target ∧ through.affected = lane.ackedRun := by
  obtain ⟨target, affected⟩ := through
  simp only [flushThrough, Option.map_eq_some_iff, Through.mk.injEq]
  constructor
  · rintro ⟨last, found, rfl, rfl⟩
    exact ⟨found, rfl⟩
  · rintro ⟨found, rfl⟩
    exact ⟨target, found, rfl, rfl⟩

end Lane

/-- What a silent move does to the staged settlements: some leave, an ack is recorded, or a flush
stages the recorded ones. -/
inductive Stages (v w : View) : Prop where
  | fewer : w.singles.Sublist v.singles → w.throughs.Sublist v.throughs →
      w.lane.ackedBatch = v.lane.ackedBatch →
      (∀ through ∈ w.underway, through ∈ v.underway ∨ w.singles = []) → Stages v w
  | ack {tag : Nat} {rest : List LaneCommand} : v.commands = .settle tag .ack :: rest →
      (v.lane.tokens tag).any (·.settling) = false → w.lane.tokens = (v.lane.setSettling tag true).tokens →
      w.singles = v.singles → w.throughs = v.throughs → w.underway = v.underway →
      w.lane.ackedBatch = v.lane.ackedBatch.insert tag () → tag ∈ w.lane.ackChosen → w.commands = rest →
      Stages v w
  | flush : v.Ready → v.lane.inFlight = false → w.singles = v.lane.stragglers →
      w.throughs = v.lane.flushThrough.toList → w.lane.ackedBatch = .empty → Stages v w

/-- The settlements named leave the front of the desk; nothing else moves. -/
structure Departs (single : Option Nat) (through : Option Through) (v w : View) : Prop where
  singles : v.singles = single.toList ++ w.singles
  throughs : v.throughs = through.toList ++ w.throughs
  batch : w.lane.ackedBatch = v.lane.ackedBatch
  front : ∀ through ∈ w.underway, through ∈ v.underway ∨ w.singles = []

theorem Departs.stages {single : Option Nat} {through : Option Through} (departs : Departs single through v w) :
    Stages v w := by
  refine .fewer ?_ ?_ departs.batch departs.front
  · rw [departs.singles]
    exact List.sublist_append_right _ _
  · rw [departs.throughs]
    exact List.sublist_append_right _ _

theorem Departs.of_desk (desk : w.lane.desk = v.lane.desk) (finishing : w.finishing = v.finishing) :
    Departs none none v w := by
  refine ⟨(View.singles_of_desk desk finishing).symm, (View.throughs_of_desk desk finishing).symm,
    congrArg Desk.ackedBatch desk, ?_⟩
  rw [View.underway_of_desk desk finishing]
  exact fun _ => .inl

theorem Departs.gone {tag : Nat} (departs : Departs (some tag) none v w) (nodup : v.singles.Nodup) :
    tag ∉ w.singles := by
  rw [departs.singles] at nodup
  exact (List.nodup_cons.mp nodup).1

theorem Departs.setProgress {future : SettlementFuture} {progress : Progress} {index : Nat} {lane : Lane}
    (desk : lane.desk = v.lane.desk) (found : v.lane.pendingSettlements[index]? = some future) :
    Departs none none v { v with lane := lane.setProgress index future progress } := by
  have here := (congrArg (fun desk : Desk => desk.pendingSettlements[index]?) desk).trans found
  have throughs := Lane.throughs_of_desk desk
  refine ⟨?_, (congrArg (_ ++ ·) throughs).symm, congrArg Desk.ackedBatch desk, ?_⟩
  · rw [View.singles, View.singles, Lane.setProgress_singles here, Lane.singles_of_desk desk]
    rfl
  · rw [View.underway, View.underway, ← Lane.futures_of_desk desk]
    exact fun _ => .inl

theorem View.underway_finishing {through : Through} {result : Outcome}
    (under : v.finishing = some (.through through result)) : through ∈ v.underway := by
  simp [View.underway, under, Finishing.through?]

namespace Solo

variable (solo : Solo v) {tag index : Nat} {through : Through} {result : Outcome}

include solo

theorem begun {future : SettlementFuture} (found : v.lane.pendingSettlements[index]? = some future) :
    Departs none none v { v with
      lane := v.lane.beginSettlement index future.tag result
      finishing := some (.settlement future.tag result) } := by
  have under := solo.unfinished found
  refine ⟨?_, ?_, congrArg Desk.ackedBatch Lane.beginSettlement_desk, ?_⟩
  · rw [View.singles, View.singles, Lane.singles_of_desk Lane.beginSettlement_desk, under,
      solo.retired_singles found]
    rfl
  · rw [View.throughs, View.throughs, Lane.throughs_of_desk Lane.beginSettlement_desk, under]
    rfl
  · rw [View.underway, View.underway, Lane.futures_of_desk Lane.beginSettlement_desk, under]
    exact fun _ => .inl

theorem begunThrough {future : ThroughFuture} (found : v.lane.pendingSettleThroughs[index]? = some future) :
    Departs none none v { v with
      lane := v.lane.beginThrough index future.through result
      finishing := some (.through future.through result) } := by
  have under := solo.unfinishedThrough found
  refine ⟨?_, ?_, congrArg Desk.ackedBatch Lane.beginThrough_desk, ?_⟩
  · rw [View.singles, View.singles, Lane.singles_of_desk Lane.beginThrough_desk, under]
    rfl
  · rw [View.throughs, View.throughs, Lane.throughs_of_desk Lane.beginThrough_desk, under,
      solo.retired_throughs found]
    rfl
  · obtain ⟨-, -, -, one⟩ := solo.flown.of_through found
    rw [View.underway, View.underway, under, one]
    exact fun _ => .inl

theorem ended (under : v.finishing = some (.settlement tag result)) :
    Departs (some tag) none v { v with lane := v.lane.endSettlement sub tag result, finishing := none } := by
  have free := solo.vacated (by simp [under])
  refine ⟨?_, ?_, Lane.endSettlement_batch, fun through underway => .inr ?_⟩
  · rw [View.singles, View.singles, Lane.endSettlement_singles, under]
    rfl
  · rw [View.throughs, View.throughs, Lane.endSettlement_throughs, under]
    rfl
  · exact underway_drained ((Lane.flown_of_desk Lane.concluded_desk).mpr solo.flown)
      ((congrArg Desk.inFlight Lane.concluded_desk).trans free) rfl rfl underway

theorem endedThrough (under : v.finishing = some (.through through result)) :
    Departs none (some through) v { v with lane := v.lane.endThrough through result, finishing := none } := by
  have free := solo.vacated (by simp [under])
  refine ⟨?_, ?_, Lane.endThrough_batch, fun through underway => .inr ?_⟩
  · rw [View.singles, View.singles, Lane.endThrough_singles, under]
    rfl
  · rw [View.throughs, View.throughs, Lane.endThrough_throughs, under]
    rfl
  · exact underway_drained ((Lane.flown_of_desk Lane.concludedThrough_desk).mpr solo.flown)
      ((congrArg Desk.inFlight Lane.concludedThrough_desk).trans free) rfl rfl underway

theorem closed {future : SettlementFuture} (found : v.lane.pendingSettlements[index]? = some future) :
    Departs (some future.tag) none v { v with lane := v.lane.closeSettlement index future.tag result } := by
  have under := solo.unfinished found
  have flown : (v.lane.closed index future.tag result).Flown := solo.retired found
  refine ⟨?_, ?_, Lane.drainSettlementQueue_batch, fun through underway => .inr ?_⟩
  · rw [View.singles, View.singles, under, solo.retired_singles found, Lane.closeSettlement_eq,
      Lane.drainSettlementQueue_singles]
    rfl
  · rw [View.throughs, View.throughs, Lane.closeSettlement_eq, Lane.drainSettlementQueue_throughs]
    rfl
  · exact underway_drained flown rfl rfl under underway

theorem closedThrough {future : ThroughFuture} (found : v.lane.pendingSettleThroughs[index]? = some future) :
    Departs none (some future.through) v { v with lane := v.lane.closeThrough index future.through result } := by
  have under := solo.unfinishedThrough found
  have desk := @Lane.closedThrough_desk v.lane index result future.through
  have flown := (Lane.flown_of_desk desk).mpr (solo.retiredThrough found)
  refine ⟨?_, ?_, Lane.drainSettlementQueue_batch.trans (congrArg Desk.ackedBatch desk),
    fun through underway => .inr ?_⟩
  · rw [View.singles, View.singles, Lane.closeThrough_eq, Lane.drainSettlementQueue_singles,
      Lane.singles_of_desk desk]
    rfl
  · rw [View.throughs, View.throughs, under, solo.retired_throughs found, Lane.closeThrough_eq,
      Lane.drainSettlementQueue_throughs, Lane.throughs_of_desk desk]
    rfl
  · exact underway_drained flown (congrArg Desk.inFlight desk) rfl under underway

theorem dropped {future : SettlementFuture} (found : v.lane.pendingSettlements[index]? = some future) :
    Departs (some future.tag) none v { v with
      lane := { v.lane with pendingSettlements := [], pendingSettleThroughs := [] }, closed := true } := by
  have under := solo.unfinished found
  obtain ⟨-, -, one, nothing⟩ := solo.flown.of_single found
  refine ⟨?_, ?_, rfl, ?_⟩
  · simp [View.singles, Lane.singles, under, one]
  · simp [View.throughs, Lane.throughs, under, nothing]
  · simp [View.underway, under]

theorem droppedThrough {future : ThroughFuture} (found : v.lane.pendingSettleThroughs[index]? = some future) :
    Departs none (some future.through) v { v with
      lane := { v.lane with pendingSettlements := [], pendingSettleThroughs := [] }, closed := true } := by
  have under := solo.unfinishedThrough found
  obtain ⟨-, -, none, one⟩ := solo.flown.of_through found
  refine ⟨?_, ?_, rfl, ?_⟩
  · simp [View.singles, Lane.singles, under, none]
  · simp [View.throughs, Lane.throughs, under, one]
  · simp [View.underway, under]

theorem underway_found {future : ThroughFuture} (found : v.lane.pendingSettleThroughs[index]? = some future) :
    future.through ∈ v.underway := by
  obtain ⟨-, -, -, one⟩ := solo.flown.of_through found
  simp [View.underway, solo.unfinishedThrough found, one]

end Solo

theorem Quiet.stages (move : Quiet sub capacity v w) (solo : Solo v) : Stages v w := by
  cases move
  case flow flow => exact Departs.stages (.of_desk flow.desk flow.same_finishing)
  case acceptAck front free => exact .ack front free rfl rfl rfl rfl rfl (List.mem_append_right _ List.mem_cons_self) rfl
  case flush ready =>
    obtain ⟨-, -, same | ⟨free, singles, throughs, batch⟩⟩ :=
      Lane.flushAcked_desk solo.flown (solo.still ready.1)
    · exact Departs.stages (.of_desk same rfl)
    · refine .flush ready free ?_ ?_ batch
      · simpa [View.singles, ready.1] using singles
      · simpa [View.throughs, ready.1] using throughs
  case progress found _ | confirm found _ => exact Departs.stages (.setProgress rfl found)
  case beginSettlement found _ => exact (solo.begun found).stages
  case beginThrough found _ => exact (solo.begunThrough found).stages
  case endSettlement under => exact (solo.ended under).stages
  case endThrough under => exact (solo.endedThrough under).stages
  case closeSettlement found _ => exact (solo.closed found).stages
  case closeThrough found _ => exact (solo.closedThrough found).stages
  case dropFutures =>
    refine .fewer ?_ ?_ rfl fun through underway => .inl ?_
    · exact (List.sublist_append_right _ _).append_left _
    · exact (List.sublist_append_right _ _).append_left _
    · rcases Option.or_eq_some_iff.mp underway with finishing | ⟨-, nothing⟩
      · exact Option.or_eq_some_iff.mpr (.inl finishing)
      · cases nothing
  all_goals exact Departs.stages (.of_desk rfl rfl)

def Mark.single? : Mark → Option Nat
  | .settle tag _ => some tag
  | _ => none

def Mark.through? : Mark → Option Through
  | .through whole => some whole
  | _ => none

theorem Marked.stages {mark : Mark} (move : Marked v mark w) (solo : Solo v) :
    w.singles = v.singles ++ mark.single?.toList ∧ w.throughs = v.throughs ++ mark.through?.toList ∧
      w.lane.ackedBatch = v.lane.ackedBatch := by
  cases move
  case settle tag settlement _ ready _ _ _ =>
    have desk := @Lane.takenUp_desk v.lane tag settlement
    have still := (solo.of_desk (w := { v with lane := v.lane.takenUp tag settlement }) desk rfl).still ready.1
    refine ⟨?_, ?_, ?_⟩
    · rw [View.singles, View.singles, Lane.acceptSettlement_eq, Lane.enqueueSettlement_singles still,
        Lane.singles_of_desk desk, List.append_assoc]
      rfl
    · rw [View.throughs, View.throughs, Lane.acceptSettlement_eq, Lane.enqueueSettlement_throughs,
        Lane.throughs_of_desk desk]
      exact (List.append_nil _).symm
    · exact Lane.enqueueSettlement_batch.trans (congrArg Desk.ackedBatch desk)
  case through through _ ready _ _ _ _ _ _ =>
    have desk := @Lane.takenUpThrough_desk v.lane through
    have still := (solo.of_desk (w := { v with lane := v.lane.takenUpThrough through }) desk rfl).still ready.1
    refine ⟨?_, ?_, ?_⟩
    · rw [View.singles, View.singles, Lane.acceptThrough_staged, Lane.enqueueSettleThrough_singles,
        Lane.singles_of_desk desk]
      exact (List.append_nil _).symm
    · rw [View.throughs, View.throughs, Lane.acceptThrough_staged, Lane.enqueueSettleThrough_throughs still,
        Lane.throughs_of_desk desk, List.append_assoc]
      rfl
    · exact Lane.enqueueSettleThrough_batch.trans (congrArg Desk.ackedBatch desk)
  case perform frame answer found _ =>
    have same := @Departs.setProgress v _ (.finished (answerState frame.outcome answer)) _ _
      (Lane.transmit_desk frame (reached answer)) found
    exact ⟨same.singles.symm.trans (List.append_nil _).symm, same.throughs.symm.trans (List.append_nil _).symm,
      same.batch⟩
  case performThrough index future answer found _ =>
    have desk := @Lane.transmit_desk v.lane (.ack future.through.target true) (reached answer)
    have here := (congrArg (fun desk : Desk => desk.pendingSettleThroughs[index]?) desk).trans found
    have singles := Lane.singles_of_desk desk
    refine ⟨?_, ?_, congrArg Desk.ackedBatch desk⟩
    · exact (congrArg (_ ++ ·) singles).trans (List.append_nil _).symm
    · rw [View.throughs, View.throughs, Lane.setResult_throughs here, Lane.throughs_of_desk desk]
      exact (List.append_nil _).symm
  case task frame answer _ =>
    have same := @Departs.of_desk v { v with
      lane := { v.lane.transmit frame (reached answer) with tasks := _ } } (Lane.transmit_desk frame (reached answer)) rfl
    exact ⟨same.singles.symm.trans (List.append_nil _).symm, same.throughs.symm.trans (List.append_nil _).symm,
      same.batch⟩

theorem Stages.flushed (stages : Stages v w) :
    ∀ through ∈ w.throughs, through ∈ v.throughs ∨ v.lane.flushThrough = some through := by
  intro through member
  cases stages with
  | fewer _ throughs _ _ => exact .inl (throughs.subset member)
  | ack _ _ _ _ throughs _ _ _ => exact .inl (throughs ▸ member)
  | flush _ _ _ throughs _ => exact .inr (Option.mem_toList.mp (throughs ▸ member))

theorem Stages.prefixes (stages : Stages v w) :
    ∀ through ∈ w.throughs, through ∈ v.throughs ∨ through.affected ⊆ v.lane.ackedBatch.keys := by
  refine fun through member => (stages.flushed through member).imp_right fun staged => ?_
  rw [(Lane.flushThrough_eq_some.mp staged).2]
  exact fun tag among => (Lane.mem_ackedRun among).1

/-! ### Claims -/

def LaneCommand.tag : LaneCommand → Nat
  | .settle tag _ => tag
  | .through tag => tag

def View.handed (v : View) : List Nat := (v.popped ++ v.queue).map (·.tag)

/-- Only what the embedder was handed is settled, on every way from the command to the frame. -/
structure Claimed (v : View) : Prop where
  commands : ∀ command ∈ v.commands, command.tag ∈ v.handed
  sending : ∀ entry ∈ v.sending, entry.1 ∈ v.handed
  batch : ∀ tag ∈ v.lane.ackedBatch.keys, tag ∈ v.handed
  singles : ∀ tag ∈ v.singles, tag ∈ v.handed
  throughs : ∀ through ∈ v.throughs, through.target ∈ v.handed

theorem Claimed.weaken (claimed : Claimed v) (handed : v.handed ⊆ w.handed) (commands : w.commands ⊆ v.commands)
    (sending : w.sending ⊆ v.sending) (batch : w.lane.ackedBatch.keys ⊆ v.lane.ackedBatch.keys)
    (singles : w.singles ⊆ v.singles) (throughs : w.throughs ⊆ v.throughs) : Claimed w where
  commands command member := handed (claimed.commands command (commands member))
  sending entry member := handed (claimed.sending entry (sending member))
  batch tag member := handed (claimed.batch tag (batch member))
  singles tag member := handed (claimed.singles tag (singles member))
  throughs through member := handed (claimed.throughs through (throughs member))

theorem View.handed_append {lane : Lane} (item : Item) :
    v.handed ⊆ View.handed { v with lane, queue := v.queue ++ [item] } := by
  intro tag member
  simp only [View.handed, ← List.append_assoc, List.map_append, List.mem_append] at member ⊢
  exact .inl member

theorem View.handed_of_popped {tag : Nat} (popped : tag ∈ v.popped.map (·.tag)) : tag ∈ v.handed := by
  rw [View.handed, List.map_append]
  exact List.mem_append_left _ popped

theorem Flow.handed_subset (flow : Flow sub capacity v w) : v.handed ⊆ w.handed := by
  cases flow
  case handEarly | hand => exact View.handed_append _
  all_goals exact List.Subset.refl _

theorem Flow.same_commands (flow : Flow sub capacity v w) :
    w.commands = v.commands ∧ w.sending = v.sending := by
  cases flow <;> exact ⟨rfl, rfl⟩

theorem Claimed.staged (claimed : Claimed v) (handed : v.handed ⊆ w.handed) (commands : w.commands ⊆ v.commands)
    (sending : w.sending ⊆ v.sending) (stages : Stages v w) : Claimed w := by
  cases stages with
  | fewer singles throughs batch _ =>
    exact claimed.weaken handed commands sending (batch ▸ List.Subset.refl _) singles.subset throughs.subset
  | ack front _ _ singles throughs _ batch _ =>
    refine ⟨fun command member => handed (claimed.commands command (commands member)),
      fun entry member => handed (claimed.sending entry (sending member)), ?_, ?_, ?_⟩
    · intro tag member
      rw [batch] at member
      rcases Table.mem_keys_insert.mp member with rfl | older
      · exact handed (claimed.commands (.settle tag .ack) (front ▸ List.mem_cons_self))
      · exact handed (claimed.batch tag older)
    · exact fun tag member => handed (claimed.singles tag (singles ▸ member))
    · exact fun through member => handed (claimed.throughs through (throughs ▸ member))
  | flush _ _ singles throughs batch =>
    refine ⟨fun command member => handed (claimed.commands command (commands member)),
      fun entry member => handed (claimed.sending entry (sending member)), ?_, ?_, ?_⟩
    · rw [batch]
      exact nofun
    · intro tag member
      rw [singles] at member
      exact handed (claimed.batch tag (Lane.mem_stragglers member).1)
    · intro through member
      rw [throughs, Option.mem_toList, Lane.flushThrough_eq_some] at member
      have run := List.mem_of_getLast? member.1
      exact handed (claimed.batch _ (Lane.mem_ackedRun run).1)

theorem Quiet.claimed (move : Quiet sub capacity v w) (solo : Solo v) (claimed : Claimed v) : Claimed w := by
  have keep : ∀ {Value : Type} (values : List Value), values ⊆ values := fun values => List.Subset.refl values
  have stages := move.stages solo
  cases move
  case flow flow =>
    obtain ⟨commands, sending⟩ := flow.same_commands
    exact claimed.staged flow.handed_subset (commands ▸ keep _) (sending ▸ keep _) stages
  case pop item rest front => exact claimed.staged (by simp [View.handed, front]) (keep _) (keep _) stages
  case claim tag _ settlement popped _ _ =>
    refine ⟨claimed.commands, ?_, claimed.batch, claimed.singles, claimed.throughs⟩
    intro entry member
    rcases List.mem_append.mp member with older | newest
    · exact claimed.sending entry older
    · rw [List.mem_singleton.mp newest]
      exact View.handed_of_popped popped
  case send tag settlement rest perm =>
    refine ⟨?_, ?_, claimed.batch, claimed.singles, claimed.throughs⟩
    · intro command member
      rcases List.mem_append.mp member with older | newest
      · exact claimed.commands command older
      · rw [List.mem_singleton.mp newest]
        exact claimed.sending (tag, settlement) (perm.mem_iff.mpr List.mem_cons_self)
    · exact fun entry member => claimed.sending entry (perm.mem_iff.mpr (List.mem_cons_of_mem _ member))
  case giveUp rest _ perm _ =>
    refine claimed.staged (keep _) (keep _) ?_ stages
    exact fun entry member => perm.mem_iff.mpr (List.mem_cons_of_mem _ member)
  case request tag popped =>
    refine ⟨?_, claimed.sending, claimed.batch, claimed.singles, claimed.throughs⟩
    intro command member
    rcases List.mem_append.mp member with older | newest
    · exact claimed.commands command older
    · rw [List.mem_singleton.mp newest]
      exact View.handed_of_popped popped
  case decline front | acceptAck front _ => exact claimed.staged (keep _) (by simp [front]) (keep _) stages
  all_goals exact claimed.staged (keep _) (keep _) (keep _) stages

theorem Marked.same_deliveries {mark : Mark} (move : Marked v mark w) :
    w.handed = v.handed ∧ w.commands ⊆ v.commands ∧ w.sending = v.sending := by
  cases move
  case settle front _ _ | through front _ _ _ _ _ => exact ⟨rfl, by simp [front], rfl⟩
  all_goals exact ⟨rfl, List.Subset.refl _, rfl⟩

theorem Marked.asked {mark : Mark} (move : Marked v mark w) (claimed : Claimed v) :
    (∀ tag ∈ mark.single?, tag ∈ v.handed) ∧ ∀ through ∈ mark.through?, through.target ∈ v.handed := by
  cases move
  case settle tag settlement rest _ front _ _ =>
    have known := claimed.commands (.settle tag settlement) (by simp [front])
    exact ⟨by simpa [Mark.single?, LaneCommand.tag] using known, nofun⟩
  case through through rest _ front _ _ _ _ _ =>
    have known := claimed.commands (.through through.target) (by simp [front])
    exact ⟨nofun, by simpa [Mark.through?, LaneCommand.tag] using known⟩
  all_goals exact ⟨nofun, nofun⟩

theorem Marked.claimed {mark : Mark} (move : Marked v mark w) (solo : Solo v) (claimed : Claimed v) :
    Claimed w := by
  obtain ⟨handed, commands, sending⟩ := move.same_deliveries
  obtain ⟨single, through⟩ := move.asked claimed
  obtain ⟨singles, throughs, batch⟩ := move.stages solo
  refine ⟨?_, ?_, ?_, ?_, ?_⟩
  · exact fun command member => handed ▸ claimed.commands command (commands member)
  · exact fun entry member => handed ▸ claimed.sending entry (sending ▸ member)
  · exact fun tag member => handed ▸ claimed.batch tag (batch ▸ member)
  · intro tag member
    rw [singles] at member
    rw [handed]
    rcases List.mem_append.mp member with older | newest
    · exact claimed.singles tag older
    · exact single tag (Option.mem_toList.mp newest)
  · intro whole member
    rw [throughs] at member
    rw [handed]
    rcases List.mem_append.mp member with older | newest
    · exact claimed.throughs whole older
    · exact through whole (Option.mem_toList.mp newest)

theorem claimed_initial : Claimed .initial := by
  constructor <;> rintro _ ⟨⟩

end RabbitRs.Consumer
