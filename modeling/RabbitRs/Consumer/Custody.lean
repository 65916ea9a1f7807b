import RabbitRs.Consumer.Budget

/-!
What becomes of a delivery the embedder decided about: until it is settled somebody holds it, the
batch of recorded acks, a queue or the operation under way; and an operation that waits is waiting
for another one.
-/

namespace RabbitRs.Consumer

open StepMachine
open Ordered (Table)

variable {sub : Subscription} {capacity : Nat} {v w : View}

theorem Flight.counts {busy : Bool} {singles : List SettlementFuture} {throughs : List ThroughFuture}
    (flight : Flight busy singles throughs) (firm : busy = true → singles ≠ [] ∨ throughs ≠ []) :
    singles.length + throughs.length ≤ 1 ∧ (busy = true ↔ singles.length + throughs.length = 1) := by
  cases flight with
  | vacant | single | through => simp
  | dropped => simp at firm

def Lane.Firm (lane : Lane) : Prop :=
  lane.inFlight = true → lane.pendingSettlements ≠ [] ∨ lane.pendingSettleThroughs ≠ []

namespace Lane.Firm

variable {lane other : Lane}

theorem of_desk (firm : lane.Firm) (desk : other.desk = lane.desk) : other.Firm := by
  have busy : other.inFlight = lane.inFlight := congrArg Desk.inFlight desk
  have singles : other.pendingSettlements = lane.pendingSettlements := congrArg Desk.pendingSettlements desk
  have throughs : other.pendingSettleThroughs = lane.pendingSettleThroughs :=
    congrArg Desk.pendingSettleThroughs desk
  rw [Firm, busy, singles, throughs]
  exact firm

theorem of_free (free : lane.inFlight = false) : lane.Firm := fun busy => by cases free.symm.trans busy

theorem launchSettlement (params : Nat × Settlement) : (lane.launchSettlement params).Firm :=
  fun _ => .inl (List.append_ne_nil_of_right_ne_nil _ (List.cons_ne_nil _ _))

theorem launchSettleThrough (through : Through) : (lane.launchSettleThrough through).Firm :=
  fun _ => .inr (List.append_ne_nil_of_right_ne_nil _ (List.cons_ne_nil _ _))

theorem enqueueSettlement (firm : lane.Firm) (params : Nat × Settlement) : (lane.enqueueSettlement params).Firm := by
  unfold Lane.enqueueSettlement
  split
  · exact firm
  · exact .launchSettlement _

theorem enqueueSettleThrough (firm : lane.Firm) (through : Through) : (lane.enqueueSettleThrough through).Firm := by
  unfold Lane.enqueueSettleThrough
  split
  · exact firm
  · exact .launchSettleThrough _

theorem drainSettlementQueue (free : lane.inFlight = false) : lane.drainSettlementQueue.Firm := by
  unfold Lane.drainSettlementQueue
  split
  · exact .launchSettlement _
  · exact .launchSettleThrough _
  · exact .of_free free

theorem flushAcked (firm : lane.Firm) : lane.flushAcked.Firm := by
  unfold Lane.flushAcked
  split
  · exact firm
  · dsimp only
    split
    · exact fun _ => .inr (List.append_ne_nil_of_right_ne_nil _ (List.cons_ne_nil _ _))
    · generalize (lane.stragglers.map fun tag => (tag, Settlement.ack)) = many
      have start : { lane with ackedBatch := .empty }.Firm := firm
      generalize { lane with ackedBatch := Table.empty } = other at start ⊢
      induction many generalizing other with
      | nil => exact start
      | cons params rest ih => exact ih _ (start.enqueueSettlement params)

theorem setProgress {future : SettlementFuture} {index : Nat} (progress : Progress)
    (found : lane.pendingSettlements[index]? = some future) : (lane.setProgress index future progress).Firm := by
  refine fun _ => .inl fun none => ?_
  have empty : lane.pendingSettlements = [] := by simpa [Lane.setProgress] using none
  simp [empty] at found

theorem setResult {future : ThroughFuture} {index : Nat} (result : Outcome)
    (found : lane.pendingSettleThroughs[index]? = some future) : (lane.setResult index future result).Firm := by
  refine fun _ => .inr fun none => ?_
  have empty : lane.pendingSettleThroughs = [] := by simpa [Lane.setResult] using none
  simp [empty] at found

end Lane.Firm

theorem Quiet.firm (move : Quiet sub capacity v w) (solo : Solo v) (firm : v.closed = false → v.lane.Firm)
    (running : w.closed = false) : w.lane.Firm := by
  cases move
  case flow flow =>
    have same : w.closed = v.closed := by cases flow <;> rfl
    exact (firm (same ▸ running)).of_desk flow.desk
  case flush => exact (firm running).flushAcked
  case progress found _ => exact .setProgress _ found
  case confirm future found _ => exact @Lane.Firm.setProgress (v.lane.chooseAck [future.tag]) _ _ .confirmed found
  case beginSettlement => exact .of_free (congrArg Desk.inFlight Lane.beginSettlement_desk)
  case beginThrough => exact .of_free (congrArg Desk.inFlight Lane.beginThrough_desk)
  case endSettlement under =>
    have free := solo.vacated (by simp [under])
    exact .drainSettlementQueue ((congrArg Desk.inFlight Lane.concluded_desk).trans free)
  case endThrough under =>
    have free := solo.vacated (by simp [under])
    exact .drainSettlementQueue ((congrArg Desk.inFlight Lane.concludedThrough_desk).trans free)
  case closeSettlement => exact .drainSettlementQueue rfl
  case closeThrough index future result _ _ _ =>
    exact .drainSettlementQueue (congrArg Desk.inFlight (@Lane.closedThrough_desk v.lane index result future.through))
  case dropFutures => cases running
  all_goals exact firm running

theorem Marked.firm {mark : Mark} (move : Marked v mark w) (firm : v.closed = false → v.lane.Firm)
    (running : w.closed = false) : w.lane.Firm := by
  cases move
  case settle tag settlement _ _ _ _ _ =>
    exact ((firm running).of_desk (@Lane.takenUp_desk v.lane tag settlement)).enqueueSettlement _
  case through through _ _ _ _ _ _ _ _ =>
    exact ((firm running).of_desk (@Lane.takenUpThrough_desk v.lane through)).enqueueSettleThrough _
  case perform index future frame answer found _ =>
    have same : (v.lane.transmit frame (reached answer)).pendingSettlements = v.lane.pendingSettlements :=
      congrArg Desk.pendingSettlements (Lane.transmit_desk _ _)
    exact .setProgress _ (same ▸ found)
  case performThrough index future answer found _ =>
    have same : (v.lane.transmit (.ack future.through.target true) (reached answer)).pendingSettleThroughs =
      v.lane.pendingSettleThroughs := congrArg Desk.pendingSettleThroughs (Lane.transmit_desk _ _)
    exact .setResult _ (same ▸ found)
  case task => exact (firm running).of_desk (Lane.transmit_desk _ _)

/-- Somebody is about to settle the delivery: its ack is recorded, or a settlement of it is staged. -/
def View.Referenced (v : View) (tag : Nat) : Prop :=
  tag ∈ v.lane.ackedBatch.keys ∨ tag ∈ v.singles ∨ ∃ through ∈ v.throughs, tag ∈ through.affected

structure Held (v : View) : Prop where
  handed : ∀ tag, v.lane.settling tag = true → tag ∈ v.handed
  held : v.closed = false → ∀ tag ∈ v.lane.ledger.pending.keys, v.lane.settling tag = true → v.Referenced tag

theorem View.Referenced.keep {tag : Nat} (referenced : v.Referenced tag)
    (batch : v.lane.ackedBatch.keys ⊆ w.lane.ackedBatch.keys) (singles : v.singles ⊆ w.singles)
    (throughs : v.throughs ⊆ w.throughs) : w.Referenced tag := by
  rcases referenced with recorded | single | ⟨through, staged, affected⟩
  · exact .inl (batch recorded)
  · exact .inr (.inl (singles single))
  · exact .inr (.inr ⟨through, throughs staged, affected⟩)

theorem View.Referenced.departs {single : Option Nat} {through : Option Through} {tag : Nat}
    (referenced : v.Referenced tag) (departs : Departs single through v w) (apart : tag ∉ single)
    (outside : ∀ own ∈ through, tag ∉ own.affected) : w.Referenced tag := by
  rw [View.Referenced, departs.singles, departs.throughs, ← departs.batch] at referenced
  refine referenced.imp_right (Or.imp ?_ ?_)
  · exact fun staged => (List.mem_append.mp staged).resolve_left fun own => apart (Option.mem_toList.mp own)
  · rintro ⟨own, staged, affected⟩
    rcases List.mem_append.mp staged with leaving | other
    · exact absurd affected (outside own (Option.mem_toList.mp leaving))
    · exact ⟨own, other, affected⟩

theorem View.Referenced.same {tag : Nat} (referenced : v.Referenced tag) (departs : Departs none none v w) :
    w.Referenced tag := referenced.departs departs (by simp) (by simp)

namespace Lane

variable {lane : Lane} {tag token : Nat} {result : Outcome} {through : Through}

theorem setSettling_false (claimed : (lane.setSettling token false).settling tag = true) :
    tag ≠ token ∧ lane.settling tag = true := by
  have apart : tag ≠ token := by
    rintro rfl
    rw [setSettling_self, Bool.and_false] at claimed
    cases claimed
  exact ⟨apart, setSettling_other apart false ▸ claimed⟩

theorem claimed_of_setSettling (claimed : (lane.setSettling token true).settling tag = true) :
    tag = token ∨ lane.settling tag = true := by
  by_cases same : tag = token
  · exact .inl same
  · exact .inr (setSettling_other same true ▸ claimed)

theorem markAffected_claimed {affected : List Nat} {state : DeliveryState}
    (claimed : (lane.markAffected affected state).settling tag = true) :
    tag ∉ affected ∧ lane.settling tag = true := by
  unfold markAffected at claimed
  induction affected generalizing lane with
  | nil => exact ⟨List.not_mem_nil, claimed⟩
  | cons first rest ih =>
    obtain ⟨outside, before⟩ := ih claimed
    obtain ⟨apart, older⟩ := setSettling_false before
    exact ⟨by simp [apart, outside], setState_settling state ▸ older⟩

theorem claimAll_claimed {affected : List Nat} (claimed : (lane.claimAll affected).settling tag = true) :
    tag ∈ affected ∨ lane.settling tag = true := by
  unfold claimAll at claimed
  induction affected generalizing lane with
  | nil => exact .inr claimed
  | cons first rest ih =>
    rcases ih claimed with later | before
    · exact .inl (List.mem_cons_of_mem _ later)
    · refine (claimed_of_setSettling before).imp_left fun same => ?_
      rw [same]
      exact List.mem_cons_self

theorem endSettlement_claimed (claimed : (lane.endSettlement sub token result).settling tag = true) :
    tag ≠ token ∧ lane.settling tag = true := by
  rw [endSettlement_eq, settling_congr drainSettlementQueue_tokens, concluded, conclude_settling] at claimed
  obtain ⟨apart, before⟩ := setSettling_false claimed
  exact ⟨apart, settling_congr (settleIf_tokens _) ▸ before⟩

theorem endThrough_claimed (claimed : (lane.endThrough through result).settling tag = true) :
    tag ∉ through.affected ∧ lane.settling tag = true := by
  rw [endThrough_eq, settling_congr drainSettlementQueue_tokens, concludedThrough] at claimed
  obtain ⟨outside, before⟩ := markAffected_claimed claimed
  exact ⟨outside, settling_congr (settleThroughIf_tokens _ _) ▸ before⟩

theorem closeSettlement_claimed {index : Nat} (claimed : (lane.closeSettlement index token result).settling tag = true) :
    tag ≠ token ∧ lane.settling tag = true := by
  rw [closeSettlement_eq, settling_congr drainSettlementQueue_tokens] at claimed
  obtain ⟨apart, before⟩ := setSettling_false claimed
  exact ⟨apart, (setState_settling _).symm.trans before⟩

theorem closeThrough_claimed {index : Nat} (claimed : (lane.closeThrough index through result).settling tag = true) :
    tag ∉ through.affected ∧ lane.settling tag = true := by
  rw [closeThrough_eq, settling_congr drainSettlementQueue_tokens] at claimed
  have marked : ((lane.retireSettleThrough index).markAffected through.affected (closeState result)).settling tag =
    true := claimed
  obtain ⟨outside, before⟩ := markAffected_claimed marked
  exact ⟨outside, before⟩

end Lane

theorem Lane.settling_update {lane : Lane} {tag token : Nat} {fresh : Token} (unclaimed : fresh.settling = false)
    (claimed : ((Function.update lane.tokens token (some fresh)) tag).any (·.settling) = true) :
    lane.settling tag = true := by
  by_cases same : tag = token
  · rw [same, Function.update_self, Option.any_some, unclaimed] at claimed
    cases claimed
  · rw [Function.update_of_ne same] at claimed
    exact claimed

theorem Flow.claims (flow : Flow sub capacity v w) {tag : Nat} (claimed : w.lane.settling tag = true) :
    v.lane.settling tag = true := by
  cases flow
  case refuse | unparkOversized =>
    rw [Lane.discardOversized, Lane.settling_congr (Lane.discard_tokens _)] at claimed
    exact claimed
  case poison =>
    rw [Lane.settling_congr (Lane.discard_tokens _)] at claimed
    exact claimed
  case handEarly | tokenize | hand => exact Lane.settling_update rfl claimed
  all_goals exact claimed

theorem Balanced.recorded_staged {lane : Lane} {throughs : List Through} {tag : Nat}
    (balanced : Balanced lane.ledger lane.arrived throughs) (recorded : tag ∈ lane.ackedBatch.keys)
    (pending : tag ∈ lane.ledger.pending.keys) :
    tag ∈ lane.stragglers ∨ ∃ through ∈ lane.flushThrough.toList, tag ∈ through.affected := by
  have above := balanced.above tag pending
  have beyond : lane.ackedRun.getLast?.getD lane.ledger.ackedPrefix < tag → tag ∈ lane.stragglers := by
    intro past
    exact List.mem_filter.mpr ⟨Table.mem_keys_after.mpr ⟨recorded, past⟩, by simpa using pending⟩
  cases staged : lane.flushThrough with
  | none =>
    have none : lane.ackedRun.getLast? = none := by simpa [Lane.flushThrough] using staged
    rw [none] at beyond
    exact .inl (beyond above)
  | some through =>
    obtain ⟨last, run⟩ := Lane.flushThrough_eq_some.mp staged
    rw [last] at beyond
    by_cases upTo : tag ≤ through.target
    · have covers := balanced.covers_flush staged
      exact .inr ⟨through, by simp, covers.all tag pending upTo⟩
    · exact .inl (beyond (not_le.mp upTo))

theorem Quiet.claims (move : Quiet sub capacity v w) {tag : Nat} (claimed : w.lane.settling tag = true) :
    v.lane.settling tag = true ∨ tag ∈ w.lane.ackedBatch.keys ∧ .settle tag .ack ∈ v.commands := by
  cases move
  case flow flow => exact .inl (flow.claims claimed)
  case claim | giveUp => exact .inl ((Lane.setState_settling _).symm.trans claimed)
  case acceptAck own rest front _ =>
    rcases Lane.claimed_of_setSettling claimed with rfl | older
    · exact .inr ⟨Table.mem_keys_insert.mpr (.inl rfl), front ▸ List.mem_cons_self⟩
    · exact .inl older
  case flush =>
    rw [Lane.settling_congr (Lane.tokens_of_offDesk Lane.flushAcked_offDesk)] at claimed
    exact .inl claimed
  case beginSettlement =>
    rw [Lane.settling_congr Lane.beginSettlement_tokens] at claimed
    exact .inl claimed
  case beginThrough =>
    rw [Lane.settling_congr Lane.beginThrough_tokens] at claimed
    exact .inl claimed
  case endSettlement => exact .inl (Lane.endSettlement_claimed claimed).2
  case endThrough => exact .inl (Lane.endThrough_claimed claimed).2
  case closeSettlement => exact .inl (Lane.closeSettlement_claimed claimed).2
  case closeThrough => exact .inl (Lane.closeThrough_claimed claimed).2
  all_goals exact .inl claimed

theorem Quiet.referenced (move : Quiet sub capacity v w) (kept : Kept sub v) (running : w.closed = false) {tag : Nat}
    (claimed : w.lane.settling tag = true) (pending : tag ∈ v.lane.ledger.pending.keys)
    (referenced : v.Referenced tag) : w.Referenced tag := by
  cases move
  case flow flow => exact referenced.same (.of_desk flow.desk flow.same_finishing)
  case acceptAck own _ _ _ =>
    refine referenced.keep (fun other recorded => ?_) (List.Subset.refl _) (List.Subset.refl _)
    exact Table.mem_keys_insert.mpr (.inr recorded)
  case flush ready =>
    obtain ⟨-, -, same | ⟨free, singles, throughs, batch⟩⟩ :=
      Lane.flushAcked_desk kept.solo.flown (kept.solo.still ready.1)
    · exact referenced.same (.of_desk same rfl)
    · obtain ⟨none, nothing⟩ := kept.solo.staged_of_idle ready free
      have recorded : tag ∈ v.lane.ackedBatch.keys := by
        rcases referenced with recorded | single | ⟨through, staged, _⟩
        · exact recorded
        · simp [none] at single
        · simp [nothing] at staged
      rcases kept.booked.balanced.recorded_staged recorded pending with straggler | ⟨through, staged, affected⟩
      · refine .inr (.inl (List.mem_append_right _ ?_))
        rw [singles]
        exact straggler
      · refine .inr (.inr ⟨through, List.mem_append_right _ ?_, affected⟩)
        rw [throughs]
        exact staged
  case progress found _ | confirm found _ => exact referenced.same (.setProgress rfl found)
  case beginSettlement found _ => exact referenced.same (kept.solo.begun found)
  case beginThrough found _ => exact referenced.same (kept.solo.begunThrough found)
  case endSettlement under =>
    have apart := (Lane.endSettlement_claimed claimed).1
    exact referenced.departs (kept.solo.ended under) (by simpa using apart.symm) (by simp)
  case endThrough under =>
    have outside := (Lane.endThrough_claimed claimed).1
    exact referenced.departs (kept.solo.endedThrough under) (by simp) (by simpa using outside)
  case closeSettlement found _ =>
    have apart := (Lane.closeSettlement_claimed claimed).1
    exact referenced.departs (kept.solo.closed found) (by simpa using apart.symm) (by simp)
  case closeThrough found _ =>
    have outside := (Lane.closeThrough_claimed claimed).1
    exact referenced.departs (kept.solo.closedThrough found) (by simp) (by simpa using outside)
  case dropFutures => cases running
  all_goals exact referenced.same (.of_desk rfl rfl)

theorem Quiet.handed_subset (move : Quiet sub capacity v w) : v.handed ⊆ w.handed := by
  rcases move.stirs with flow | ⟨d, sends⟩ | same
  · exact flow.handed_subset
  · exact (List.Perm.of_eq (congrArg (List.map Item.tag) sends.handed)).symm.subset
  · exact (List.Perm.of_eq (congrArg (List.map Item.tag) same.handed)).symm.subset

theorem Quiet.closed_mono (move : Quiet sub capacity v w) (running : w.closed = false) : v.closed = false := by
  cases move
  case flow flow => cases flow <;> exact running
  case dropFutures => cases running
  all_goals exact running

theorem Quiet.held (move : Quiet sub capacity v w) (kept : Kept sub v) (held : Held v) : Held w := by
  have handed : ∀ tag, w.lane.settling tag = true → tag ∈ v.handed := by
    intro tag claimed
    rcases move.claims claimed with older | ⟨-, asked⟩
    · exact held.handed tag older
    · exact kept.claimed.commands _ asked
  refine ⟨fun tag claimed => move.handed_subset (handed tag claimed), fun running tag pending claimed => ?_⟩
  have before := move.closed_mono running
  have known : tag ∈ v.lane.ledger.pending.keys := by
    rcases move.writes kept.booked kept.sequenced kept.solo kept.claimed with flow | writes
    · exact flow.pending kept.sequenced tag pending (handed tag claimed)
    · exact writes.pending tag pending
  rcases move.claims claimed with older | ⟨recorded, -⟩
  · exact move.referenced kept running claimed known (held.held before tag known older)
  · exact .inl recorded

theorem Marked.claimed_or {mark : Mark} (move : Marked v mark w) {tag : Nat} (claimed : w.lane.settling tag = true) :
    v.lane.settling tag = true ∨ mark.single? = some tag ∨
      ∃ through ∈ mark.through?, tag = through.target ∨ tag ∈ through.affected := by
  cases move
  case settle own settlement _ _ _ _ _ =>
    rw [Lane.settling_congr Lane.acceptSettlement_tokens] at claimed
    rcases Lane.claimed_of_setSettling claimed with rfl | older
    · exact .inr (.inl rfl)
    · exact .inl older
  case through through _ _ _ _ _ _ _ _ =>
    rw [Lane.settling_congr Lane.acceptThrough_tokens] at claimed
    rcases Lane.claimAll_claimed claimed with affected | before
    · exact .inr (.inr ⟨through, rfl, .inr affected⟩)
    · rcases Lane.claimed_of_setSettling before with rfl | older
      · exact .inr (.inr ⟨through, rfl, .inl rfl⟩)
      · exact .inl older
  all_goals
    refine .inl (Eq.trans (Eq.symm ?_) claimed)
    exact Lane.settling_congr (Lane.transmit_tokens _ _)

theorem Marked.held {mark : Mark} (move : Marked v mark w) (kept : Kept sub v) (placed : Placed v) (held : Held v) :
    Held w := by
  obtain ⟨singles, throughs, batch⟩ := move.stages kept.solo
  have same := move.unstirred
  have ledger := Lane.ledger_of_books move.books
  have closed : w.closed = v.closed := by cases move <;> rfl
  have covers := move.covers kept.booked
  have affected : ∀ tag, ∀ through ∈ mark.through?, tag = through.target ∨ tag ∈ through.affected →
      tag ∈ through.affected := by
    rintro tag through own (rfl | among)
    · exact (covers through own).target
    · exact among
  constructor
  · intro tag claimed
    have handed : w.handed = v.handed := congrArg (List.map Item.tag) same.handed
    rw [handed]
    rcases move.claimed_or claimed with older | single | ⟨through, own, inside⟩
    · exact held.handed tag older
    · exact (move.asked kept.claimed).1 tag single
    · have among := affected tag through own inside
      exact placed.handed_upTo kept ((move.asked kept.claimed).2 through own) (move.listed through own tag among)
        ((covers through own).upTo tag among)
  · intro running tag pending claimed
    rcases move.claimed_or claimed with older | single | ⟨through, own, inside⟩
    · refine (held.held (closed ▸ running) tag (ledger ▸ pending) older).keep ?_ ?_ ?_
      · rw [batch]
        exact List.Subset.refl _
      · rw [singles]
        exact List.subset_append_left _ _
      · rw [throughs]
        exact List.subset_append_left _ _
    · refine .inr (.inl ?_)
      rw [singles, single]
      exact List.mem_append_right _ List.mem_cons_self
    · refine .inr (.inr ⟨through, ?_, affected tag through own inside⟩)
      rw [throughs, own]
      exact List.mem_append_right _ List.mem_cons_self

theorem held_initial : Held .initial where
  handed := fun _ none => by cases none
  held := fun _ _ none => absurd none List.not_mem_nil

structure Rising (v : View) : Prop where
  ordered : (v.throughs.map (·.target)).Pairwise (· < ·)
  above : ∀ through ∈ v.throughs, v.lane.ledger.ackedPrefix < through.target

def Lane.Forward (lane : Lane) : Mark → Prop
  | .through whole => ∀ through ∈ lane.throughs, whole.target ∉ through.affected
  | _ => True

theorem Flow.ackedPrefix (flow : Flow sub capacity v w) : w.lane.ledger.ackedPrefix = v.lane.ledger.ackedPrefix := by
  cases flow
  case refuse | unparkOversized =>
    rw [Lane.discardOversized, Lane.ledger_of_books (Lane.discard_books _ _)]
    rfl
  case poison =>
    rw [Lane.ledger_of_books (Lane.discard_books _ _)]
    rfl
  all_goals rfl

theorem Quiet.ackedPrefix (move : Quiet sub capacity v w) :
    w.lane.ledger.ackedPrefix = v.lane.ledger.ackedPrefix ∨
      ∃ through, v.throughs = through :: w.throughs ∧ w.lane.ledger.ackedPrefix = through.target := by
  cases move
  case flow flow => exact .inl flow.ackedPrefix
  case flush => exact .inl (congrArg (·.books.ledger.ackedPrefix) (@Lane.flushAcked_core v.lane))
  case beginSettlement index future result _ _ _ _ =>
    exact .inl (congrArg (·.ledger.ackedPrefix) (@Lane.beginSettlement_books v.lane index future.tag result))
  case beginThrough index future result _ _ _ _ =>
    exact .inl (congrArg (·.ledger.ackedPrefix) (@Lane.beginThrough_books v.lane index future.through result))
  case endSettlement tag result _ =>
    refine .inl ((congrArg (·.ledger.ackedPrefix) (@Lane.endSettlement_books v.lane sub tag result)).trans ?_)
    split <;> rfl
  case endThrough through result under =>
    have books := congrArg (·.ledger.ackedPrefix) (@Lane.endThrough_books v.lane through result)
    have staged : v.throughs = through :: View.throughs { v with
        lane := v.lane.endThrough through result, finishing := none } := by
      rw [View.throughs, View.throughs, Lane.endThrough_throughs, under]
      rfl
    by_cases terminal : State.throughTerminal result = true ∧ State.throughAcked result = true
    · refine .inr ⟨through, staged, books.trans ?_⟩
      rw [if_pos terminal.1]
      exact if_pos terminal.2
    · refine .inl (books.trans ?_)
      split
      · rename_i settled
        exact if_neg fun acked => terminal ⟨settled, acked⟩
      · rfl
  case closeSettlement index future result _ _ _ =>
    exact .inl (congrArg (·.books.ledger.ackedPrefix) (@Lane.closeSettlement_core v.lane index future.tag result))
  case closeThrough index future result _ _ _ =>
    exact .inl (congrArg (·.books.ledger.ackedPrefix) (@Lane.closeThrough_core v.lane index future.through result))
  all_goals exact .inl rfl

theorem Rising.le (rising : Rising v) (move : Quiet sub capacity v w) :
    v.lane.ledger.ackedPrefix ≤ w.lane.ledger.ackedPrefix := by
  rcases move.ackedPrefix with same | ⟨through, staged, reached⟩
  · exact same.ge
  · have above := rising.above through (staged ▸ List.mem_cons_self)
    omega

theorem Quiet.rising (move : Quiet sub capacity v w) (kept : Kept sub v) (rising : Rising v) : Rising w := by
  rcases move.ackedPrefix with same | ⟨through, staged, reached⟩
  · cases move.stages kept.solo with
    | fewer _ throughs _ _ =>
      exact ⟨rising.ordered.sublist (throughs.map _), fun through member =>
        same ▸ rising.above through (throughs.subset member)⟩
    | ack _ _ _ _ throughs _ _ _ =>
      exact ⟨throughs ▸ rising.ordered, fun through member => same ▸ rising.above through (throughs ▸ member)⟩
    | flush _ _ _ throughs _ =>
      have one : ∀ through ∈ w.throughs, through.target ∈ v.lane.ackedRun := by
        intro through member
        rw [throughs, Option.mem_toList, Lane.flushThrough_eq_some] at member
        exact List.mem_of_getLast? member.1
      refine ⟨?_, fun through member => ?_⟩
      · rw [throughs]
        cases v.lane.flushThrough with
        | none => exact List.Pairwise.nil
        | some through => exact List.pairwise_singleton _ _
      · rw [same]
        exact kept.booked.balanced.above _ (Lane.mem_ackedRun (one through member)).2.1
  · have ordered := rising.ordered
    rw [staged, List.map_cons, List.pairwise_cons] at ordered
    refine ⟨ordered.2, fun other member => ?_⟩
    rw [reached]
    exact ordered.1 _ (List.mem_map_of_mem member)

theorem Marked.rising {mark : Mark} (move : Marked v mark w) (forward : v.lane.Forward mark) (kept : Kept sub v)
    (rising : Rising v) : Rising w := by
  obtain ⟨-, throughs, -⟩ := move.stages kept.solo
  have ledger := Lane.ledger_of_books move.books
  cases taken : mark.through? with
  | none =>
    rw [taken, Option.toList_none, List.append_nil] at throughs
    exact ⟨throughs ▸ rising.ordered, fun through member => ledger ▸ rising.above through (throughs ▸ member)⟩
  | some whole =>
    obtain rfl : mark = .through whole := by
      cases mark with
      | through other => exact congrArg Mark.through (Option.some.inj taken)
      | settle _ _ | frame _ _ => cases taken
    have ready : v.Ready := move.ready (.inr rfl)
    have covers := move.covers kept.booked whole rfl
    have pending := move.listed whole rfl _ covers.target
    rw [taken] at throughs
    refine ⟨?_, fun through member => ?_⟩
    · rw [throughs, List.map_append]
      refine List.pairwise_append.mpr ⟨rising.ordered, List.pairwise_singleton _ _, ?_⟩
      intro target among own same
      obtain ⟨through, staged, rfl⟩ := List.mem_map.mp among
      rw [List.mem_singleton.mp same]
      have inside : through ∈ v.lane.throughs := by
        rw [View.throughs, ready.1] at staged
        exact staged
      exact not_le.mp fun upTo => forward through inside ((kept.booked.balanced.covers through staged).all _ pending upTo)
    · rw [ledger]
      rw [throughs] at member
      rcases List.mem_append.mp member with older | newest
      · exact rising.above through older
      · rw [List.mem_singleton.mp newest]
        exact kept.booked.balanced.above _ pending

theorem rising_initial : Rising .initial :=
  ⟨List.Pairwise.nil, fun _ none => absurd none List.not_mem_nil⟩

variable {sha256 : Bytes → Bytes} {settings : Settings} {s t : State} {e : Event}

theorem State.open_of_running {id : String} (running : s.stage ≠ .closed) : (s.view id).closed = false := by
  change s.stage.ended = false
  cases stage : s.stage
  case closed => exact absurd stage running
  all_goals rfl

/-- In every state of a run, the one of its close included, a channel has one settlement operation
under way at most, its marker says whether it has one, and what waits, waits for that operation. -/
theorem one_settlement_in_flight (known : settings.Knows sub) (reached : Reachable (machine sha256 settings) s)
    (running : s.stage ≠ .closed) :
    (s.lanes sub.id).pendingSettlements.length + (s.lanes sub.id).pendingSettleThroughs.length ≤ 1 ∧
    ((s.lanes sub.id).inFlight = true ↔
      (s.lanes sub.id).pendingSettlements.length + (s.lanes sub.id).pendingSettleThroughs.length = 1) ∧
    ((s.lanes sub.id).settlementQueue ≠ [] ∨ (s.lanes sub.id).settleThroughQueue ≠ [] →
      (s.lanes sub.id).inFlight = true) := by
  have open_ := @State.open_of_running s sub.id running
  have both : Solo (s.view sub.id) ∧ ((s.view sub.id).closed = false → (s.view sub.id).lane.Firm) := by
    refine @view_invariant _ _ _ _ _ (fun v => Solo v ∧ (v.closed = false → v.lane.Firm)) known
      ⟨solo_initial, fun _ busy => by cases busy⟩ ?_ ?_ reached
    · rintro v w ⟨solo, firm⟩ move
      exact ⟨move.solo solo, move.firm solo firm⟩
    · rintro s e mark w - - ⟨solo, firm⟩ move
      exact ⟨move.solo solo, move.firm firm⟩
  obtain ⟨solo, firm⟩ := both
  obtain ⟨most, marked⟩ := Flight.counts solo.flown (firm open_)
  refine ⟨most, marked, fun waits => ?_⟩
  by_contra free
  obtain ⟨noSingles, noThroughs⟩ := solo.still rfl (Bool.not_eq_true _ ▸ free)
  exact waits.elim (absurd noSingles) (absurd noThroughs)

/-- The third of three deliveries waits behind the acknowledgement of the first. -/
theorem rejection_waits_behind_ack : ∃ s, Reachable (machine id jobsOnly) s ∧ s.stage ≠ .closed ∧
    (s.lanes "jobs").settlementQueue = [(3, .reject false)] ∧ (s.lanes "jobs").inFlight = true := by
  obtain ⟨s, reached, running, queue⟩ := exists_reachable (machine id jobsOnly) rfl
    (arrivals [{ tag := 1 }, { tag := 2 }, { tag := 3 }] 3 ++ deciding 1 .ack ++ handling 1 ++
      deciding 3 (.reject false) ++ [.control])
    (fun s => s.stage ≠ .closed ∧ (s.lanes "jobs").settlementQueue = [(3, .reject false)]) (by decide +kernel)
  have alone := one_settlement_in_flight jobs_known reached running
  exact ⟨s, reached, running, queue, alone.2.2 (.inl (by
    rw [show (s.lanes jobs.id).settlementQueue = [(3, .reject false)] from queue]
    exact List.cons_ne_nil _ _))⟩

def Forward (settings : Settings) (s : State) (e : Event) : Prop :=
  ∀ sub ∈ settings.subscriptions, ∀ mark ∈ e.marks s sub.id, (s.lanes sub.id).Forward mark

instance (lane : Lane) (mark : Mark) : Decidable (lane.Forward mark) :=
  match mark with
  | .settle _ _ => .isTrue trivial
  | .through whole => inferInstanceAs (Decidable (∀ through ∈ lane.throughs, whole.target ∉ through.affected))
  | .frame _ _ => .isTrue trivial

instance (settings : Settings) (s : State) (e : Event) : Decidable (Forward settings s e) := by
  unfold Forward
  infer_instance

theorem held_of_reaches {Allowed : State → Event → Prop} (known : settings.Knows sub)
    (reached : Reaches (machine sha256 settings) Allowed s) : Held (s.view sub.id) := by
  suffices all : Kept sub (s.view sub.id) ∧ Placed (s.view sub.id) ∧ Held (s.view sub.id) from all.2.2
  refine @view_invariant _ _ _ _ _ (fun v => Kept sub v ∧ Placed v ∧ Held v) known
    ⟨kept_initial, placed_initial, held_initial⟩ ?_ ?_ reached
  · rintro v w ⟨kept, placed, held⟩ move
    exact ⟨move.kept kept, move.placed kept placed, move.held kept held⟩
  · rintro s e mark w - - ⟨kept, placed, held⟩ move
    exact ⟨move.kept kept, move.placed kept placed, move.held kept placed held⟩

theorem rising_of_reaches (known : settings.Knows sub)
    (reached : Reaches (machine sha256 settings) (Forward settings) s) :
    Kept sub (s.view sub.id) ∧ Rising (s.view sub.id) := by
  refine @view_invariant _ _ _ _ _ (fun v => Kept sub v ∧ Rising v) known ⟨kept_initial, rising_initial⟩ ?_ ?_ reached
  · rintro v w ⟨kept, rising⟩ move
    exact ⟨move.kept kept, move.rising kept rising⟩
  · rintro s e mark w forward marks ⟨kept, rising⟩ move
    exact ⟨move.kept kept, move.rising (forward sub known.member mark marks) kept rising⟩

/-- In every state of a running actor a claimed delivery that is pending has its ack recorded or a
settlement of it queued or in flight; and in a run that takes up no cumulative acknowledgement for a
delivery one on its way stands for, no step lowers the acknowledged prefix. -/
theorem claims_held_and_prefix_rises (known : settings.Knows sub) :
    (∀ s, Reachable (machine sha256 settings) s → s.stage ≠ .closed →
      ∀ tag ∈ (s.lanes sub.id).ledger.pending.keys, (s.lanes sub.id).settling tag = true →
        tag ∈ (s.lanes sub.id).ackedBatch.keys ∨ tag ∈ (s.lanes sub.id).singles ∨
          ∃ through ∈ (s.lanes sub.id).throughs, tag ∈ through.affected) ∧
    ∀ s e t, Reaches (machine sha256 settings) (Forward settings) s →
      (machine sha256 settings).step s e = some t →
      (s.lanes sub.id).ledger.ackedPrefix ≤ (t.lanes sub.id).ledger.ackedPrefix := by
  constructor
  · intro s reached running tag pending claimed
    have held := held_of_reaches known reached
    exact held.held (State.open_of_running running) tag pending claimed
  · intro s e t reached stepped
    obtain ⟨kept, rising⟩ := rising_of_reaches known reached
    rcases step_refines known stepped with path | ⟨mark, marks, move⟩
    · suffices all : Kept sub (t.view sub.id) ∧ Rising (t.view sub.id) ∧
          (s.lanes sub.id).ledger.ackedPrefix ≤ (t.view sub.id).lane.ledger.ackedPrefix from all.2.2
      refine @Path.keeps _ (fun v => Kept sub v ∧ Rising v ∧
        (s.lanes sub.id).ledger.ackedPrefix ≤ v.lane.ledger.ackedPrefix) _ _ _ path ?_ ⟨kept, rising, le_rfl⟩
      rintro v w ⟨kept, rising, reached⟩ move
      exact ⟨move.kept kept, move.rising kept rising, reached.trans (rising.le move)⟩
    · have same := Lane.ledger_of_books move.books
      exact (congrArg Ledger.ackedPrefix same).ge

/-- Three deliveries acknowledged up to the second, then up to the third: the first decision completes. -/
theorem prefix_of_two_acks : ∃ s t, Reaches (machine id jobsOnly) (Forward jobsOnly) s ∧
    (machine id jobsOnly).step s (.throughSettled "jobs" 0) = some t ∧
    (s.lanes "jobs").singles = [] ∧ (s.lanes "jobs").settling 3 = true ∧
    (∃ through ∈ (s.lanes "jobs").throughs, 3 ∈ through.affected) ∧
    (t.lanes "jobs").ledger.ackedPrefix = 2 ∧
    (s.lanes "jobs").ledger.ackedPrefix ≤ (t.lanes "jobs").ledger.ackedPrefix := by
  obtain ⟨s, reached, running, singles, batch, pending, claimed, t, step, after⟩ :=
    exists_reached (machine id jobsOnly) (Forward jobsOnly) rfl
      (arrivals [{ tag := 1 }, { tag := 2 }, { tag := 3 }] 3 ++ .settleThrough "jobs" 2 :: .settleThrough "jobs" 3 ::
        handling 2 ++ [.performThrough "jobs" 0 (.ok ())])
      (fun s => s.stage ≠ .closed ∧ (s.lanes "jobs").singles = [] ∧ (s.lanes "jobs").ackedBatch.keys = [] ∧
        3 ∈ (s.lanes "jobs").ledger.pending.keys ∧ (s.lanes "jobs").settling 3 = true ∧
        ∃ t, (machine id jobsOnly).step s (.throughSettled "jobs" 0) = some t ∧
          (t.lanes "jobs").ledger.ackedPrefix = 2)
      (by decide +kernel)
  obtain ⟨held, rises⟩ := @claims_held_and_prefix_rises jobs id jobsOnly jobs_known
  refine ⟨s, t, reached, step, singles, claimed, ?_, after, rises s _ t reached step⟩
  have settlers : 3 ∈ (s.lanes "jobs").ackedBatch.keys ∨ 3 ∈ (s.lanes "jobs").singles ∨
    ∃ through ∈ (s.lanes "jobs").throughs, 3 ∈ through.affected := held s reached.reachable running 3 pending claimed
  rw [batch, singles] at settlers
  exact (settlers.resolve_left List.not_mem_nil).resolve_left List.not_mem_nil

/-- The delayed release of the second of three deliveries is under way when the three are acknowledged
up to the third; it fails, and the embedder acknowledges up to the second instead. That one completes
last and sets the acknowledged prefix back. -/
theorem prefix_set_back : ∃ s t, Reachable (machine id jobsOnly) s ∧
    (machine id jobsOnly).step s (.throughSettled "jobs" 0) = some t ∧
    (s.lanes "jobs").ledger.ackedPrefix = 3 ∧ (t.lanes "jobs").ledger.ackedPrefix = 2 := by
  obtain ⟨s, reached, t, step, holds⟩ := exists_reachable (machine id jobsOnly) rfl
    (arrivals [{ tag := 1 }, { tag := 2 }, { tag := 3 }] 3 ++
      deciding 2 (.release (.fromMillis 1000)) ++ handling 1 ++ .settleThrough "jobs" 3 :: handling 1 ++
      .publish "jobs" 0 (.ok ()) :: .settled "jobs" 0 :: handling 0 ++ .settleThrough "jobs" 2 :: handling 1 ++
      .performThrough "jobs" 0 (.ok ()) :: .throughSettled "jobs" 0 :: handling 0 ++
      [.performThrough "jobs" 0 (.ok ())])
    (fun s => ∃ t, (machine id jobsOnly).step s (.throughSettled "jobs" 0) = some t ∧
      (s.lanes "jobs").ledger.ackedPrefix = 3 ∧ (t.lanes "jobs").ledger.ackedPrefix = 2)
    (by decide +kernel)
  exact ⟨s, t, reached, step, holds⟩

end RabbitRs.Consumer
