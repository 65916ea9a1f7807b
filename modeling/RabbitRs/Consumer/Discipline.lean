import RabbitRs.Consumer.Ledger

/-!
A settlement waits or is under way for each tag at most once, and never beside a cumulative
acknowledgement under way that reaches its tag, as long as the embedder settles nothing that a
staged cumulative acknowledgement stands for.
-/

namespace RabbitRs.Consumer

open StepMachine
open Ordered (Table)

variable {sub : Subscription} {capacity : Nat} {v w : View}

/-! ### Tokens -/

namespace Lane

def settling (lane : Lane) (tag : Nat) : Bool := (lane.tokens tag).any (·.settling)

def issued (lane : Lane) (tag : Nat) : Option Item := (lane.tokens tag).map (·.item)

variable {lane other : Lane} {tag token : Nat}

theorem changeToken_issued {change : Token → Token} (keeps : ∀ token, (change token).item = token.item) :
    (lane.changeToken token change).issued tag = lane.issued tag := by
  unfold issued changeToken
  dsimp only
  by_cases same : tag = token
  · rw [same, Function.update_self, Option.map_map]
    exact congrArg (Option.map · _) (funext keeps)
  · rw [Function.update_of_ne same]

@[simp] theorem setState_issued (state : DeliveryState) : (lane.setState token state).issued tag = lane.issued tag :=
  changeToken_issued fun _ => rfl

@[simp] theorem setSettling_issued (settling : Bool) :
    (lane.setSettling token settling).issued tag = lane.issued tag :=
  changeToken_issued fun _ => rfl

@[simp] theorem setState_settling (state : DeliveryState) :
    (lane.setState token state).settling tag = lane.settling tag := by
  unfold settling setState changeToken
  dsimp only
  by_cases same : tag = token
  · rw [same, Function.update_self, Option.any_map]
  · rw [Function.update_of_ne same]

theorem setSettling_self (settling : Bool) :
    (lane.setSettling tag settling).settling tag = ((lane.issued tag).isSome && settling) := by
  unfold Lane.settling setSettling changeToken issued
  dsimp only
  rw [Function.update_self, Option.any_map]
  cases lane.tokens tag with
  | none | some found => rfl

theorem setSettling_other (ne : tag ≠ token) (settling : Bool) :
    (lane.setSettling token settling).settling tag = lane.settling tag := by
  unfold Lane.settling setSettling changeToken
  dsimp only
  rw [Function.update_of_ne ne]

theorem setSettling_true (claimed : lane.settling tag = true) :
    (lane.setSettling token true).settling tag = true := by
  by_cases same : tag = token
  · subst same
    have issued : (lane.issued tag).isSome = true := by
      unfold Lane.settling at claimed
      unfold Lane.issued
      cases found : lane.tokens tag with
      | none => simp [found] at claimed
      | some _ => rfl
    rw [setSettling_self, issued]
    rfl
  · rw [setSettling_other same, claimed]

theorem markAffected_issued (affected : List Nat) (state : DeliveryState) :
    (lane.markAffected affected state).issued tag = lane.issued tag := by
  refine foldl_keeps (fun lane => lane.issued tag) ?_ affected lane
  intro lane token
  rw [setSettling_issued, setState_issued]

theorem markAffected_settling {affected : List Nat} (outside : tag ∉ affected) (state : DeliveryState) :
    (lane.markAffected affected state).settling tag = lane.settling tag := by
  unfold markAffected
  induction affected generalizing lane with
  | nil => rfl
  | cons token rest ih =>
    rw [List.mem_cons, not_or] at outside
    rw [List.foldl_cons, ih outside.2, setSettling_other outside.1, setState_settling]

theorem claimAll_issued (affected : List Nat) : (lane.claimAll affected).issued tag = lane.issued tag := by
  refine foldl_keeps (fun lane => lane.issued tag) ?_ affected lane
  exact fun lane token => setSettling_issued true

theorem claimAll_settling (affected : List Nat) (claimed : lane.settling tag = true) :
    (lane.claimAll affected).settling tag = true := by
  unfold claimAll
  induction affected generalizing lane with
  | nil => exact claimed
  | cons token rest ih => exact ih (setSettling_true claimed)

theorem tokenize_other {item : Item} (ne : tag ≠ item.tag) :
    (lane.tokenize item).tokens tag = lane.tokens tag :=
  Function.update_of_ne ne _ _

theorem tokenize_keys {item : Item} : (lane.tokenize item).ledger.pending.keys = lane.ledger.pending.keys :=
  Table.keys_modify

theorem tokenize_self {item : Item} : (lane.tokenize item).tokens item.tag = some { item, state := .pending } :=
  Function.update_self _ _ _

theorem discard_tokens (d : Delivery) : (lane.discard sub d).tokens = lane.tokens := by
  unfold discard settlePoison
  cases sub.settlePoison (some sub.identity) d.tag with
  | none => rfl
  | some frame => cases frame <;> rfl

theorem settling_congr (same : lane.tokens = other.tokens) : lane.settling tag = other.settling tag := by
  rw [settling, settling, same]

theorem issued_congr (same : lane.tokens = other.tokens) : lane.issued tag = other.issued tag := by
  rw [issued, issued, same]

section Conclusions

variable {index : Nat} {result : Outcome} {through : Through}

theorem conclude_settling : (lane.conclude sub token result).settling tag = lane.settling tag := by
  cases result with
  | ok terminal => exact setState_settling _
  | error error =>
    obtain ⟨kind, message, source⟩ := error
    cases kind
    case maxAttempts | invalidDelay => exact (setState_settling _).trans (settling_congr (spawn_tokens _))
    all_goals exact setState_settling _

theorem conclude_issued : (lane.conclude sub token result).issued tag = lane.issued tag := by
  cases result with
  | ok terminal => exact setState_issued _
  | error error =>
    obtain ⟨kind, message, source⟩ := error
    cases kind
    case maxAttempts | invalidDelay => exact (setState_issued _).trans (issued_congr (spawn_tokens _))
    all_goals exact setState_issued _

theorem settleIf_tokens (terminal : Bool) : (if terminal then lane.settle tag else lane).tokens = lane.tokens := by
  cases terminal <;> rfl

theorem endSettlement_settling (ne : tag ≠ token) :
    (lane.endSettlement sub token result).settling tag = lane.settling tag := by
  rw [endSettlement_eq, settling_congr drainSettlementQueue_tokens, concluded, conclude_settling,
    setSettling_other ne, settling_congr (settleIf_tokens _)]

theorem endSettlement_issued : (lane.endSettlement sub token result).issued tag = lane.issued tag := by
  rw [endSettlement_eq, issued_congr drainSettlementQueue_tokens, concluded, conclude_issued,
    setSettling_issued, issued_congr (settleIf_tokens _)]

theorem settleThroughIf_tokens (terminal acked : Bool) :
    (if terminal then lane.settleThrough through acked else lane).tokens = lane.tokens := by
  cases terminal <;> rfl

theorem endThrough_settling (outside : tag ∉ through.affected) :
    (lane.endThrough through result).settling tag = lane.settling tag := by
  rw [endThrough_eq, settling_congr drainSettlementQueue_tokens, concludedThrough,
    markAffected_settling outside, settling_congr (settleThroughIf_tokens _ _)]

theorem endThrough_issued : (lane.endThrough through result).issued tag = lane.issued tag := by
  rw [endThrough_eq, issued_congr drainSettlementQueue_tokens, concludedThrough, markAffected_issued,
    issued_congr (settleThroughIf_tokens _ _)]

theorem closeSettlement_settling (ne : tag ≠ token) :
    (lane.closeSettlement index token result).settling tag = lane.settling tag := by
  rw [closeSettlement_eq, settling_congr drainSettlementQueue_tokens]
  exact (setSettling_other ne false).trans (setState_settling _)

theorem closeSettlement_issued : (lane.closeSettlement index token result).issued tag = lane.issued tag := by
  rw [closeSettlement_eq, issued_congr drainSettlementQueue_tokens]
  exact (setSettling_issued false).trans (setState_issued _)

theorem closeThrough_settling (outside : tag ∉ through.affected) :
    (lane.closeThrough index through result).settling tag = lane.settling tag := by
  rw [closeThrough_eq, settling_congr drainSettlementQueue_tokens]
  exact markAffected_settling outside _

theorem closeThrough_issued : (lane.closeThrough index through result).issued tag = lane.issued tag := by
  rw [closeThrough_eq, issued_congr drainSettlementQueue_tokens]
  exact markAffected_issued _ _

theorem beginSettlement_tokens : (lane.beginSettlement index tag result).tokens = lane.tokens := by
  unfold beginSettlement
  dsimp only
  split <;> rfl

theorem beginThrough_tokens : (lane.beginThrough index through result).tokens = lane.tokens := by
  unfold beginThrough
  dsimp only
  split
  · exact releaseAffected_tokens _
  · rfl

end Conclusions

end Lane

/-! ### Answers -/

structure Answered (v : View) : Prop where
  futures : ∀ future ∈ v.lane.pendingSettleThroughs, ∀ result, future.result = some result →
    ∃ answer, result = answerState .acked answer
  finishing : ∀ through result, v.finishing = some (.through through result) →
    ∃ answer, result = answerState .acked answer

theorem answered_initial : Answered .initial where
  futures := fun _ none => absurd none List.not_mem_nil
  finishing := fun _ _ none => absurd none.symm (Option.some_ne_none _)

theorem Answered.terminal (answered : Answered v) {through : Through} {result : Outcome}
    (under : v.finishing = some (.through through result)) : State.throughTerminal result = true := by
  obtain ⟨answer, rfl⟩ := answered.finishing through result under
  cases answer <;> rfl

theorem Answered.fewer (answered : Answered v)
    (futures : ∀ future ∈ w.lane.pendingSettleThroughs, future ∈ v.lane.pendingSettleThroughs ∨ future.result = none)
    (finishing : ∀ through result, w.finishing = some (.through through result) →
      v.finishing = some (.through through result)) : Answered w where
  futures future member result answer := by
    rcases futures future member with older | fresh
    · exact answered.futures future older result answer
    · cases answer.symm.trans fresh
  finishing through result under := answered.finishing through result (finishing through result under)

theorem Lane.drainSettlementQueue_futures {lane : Lane} {future : ThroughFuture}
    (member : future ∈ lane.drainSettlementQueue.pendingSettleThroughs) :
    future ∈ lane.pendingSettleThroughs ∨ future.result = none := by
  unfold drainSettlementQueue at member
  split at member
  · exact .inl member
  · rcases List.mem_append.mp member with older | fresh
    · exact .inl older
    · rw [List.mem_singleton.mp fresh]
      exact .inr rfl
  · exact .inl member

theorem Answered.of_desk (answered : Answered v) (desk : w.lane.desk = v.lane.desk)
    (finishing : w.finishing = v.finishing) : Answered w := by
  have futures : w.lane.pendingSettleThroughs = v.lane.pendingSettleThroughs :=
    congrArg Desk.pendingSettleThroughs desk
  exact answered.fewer (fun future member => .inl (futures ▸ member)) (fun _ _ under => finishing ▸ under)

theorem Lane.enqueueSettlement_futures {lane : Lane} {params : Nat × Settlement} :
    (lane.enqueueSettlement params).pendingSettleThroughs = lane.pendingSettleThroughs := by
  unfold enqueueSettlement
  split <;> rfl

theorem Lane.enqueueSettleThrough_futures {lane : Lane} {through : Through} {future : ThroughFuture}
    (member : future ∈ (lane.enqueueSettleThrough through).pendingSettleThroughs) :
    future ∈ lane.pendingSettleThroughs ∨ future.result = none := by
  unfold enqueueSettleThrough at member
  split at member
  · exact .inl member
  · rcases List.mem_append.mp member with older | fresh
    · exact .inl older
    · rw [List.mem_singleton.mp fresh]
      exact .inr rfl

theorem Lane.flushAcked_futures {lane : Lane} {future : ThroughFuture}
    (member : future ∈ lane.flushAcked.pendingSettleThroughs) :
    future ∈ lane.pendingSettleThroughs ∨ future.result = none := by
  unfold flushAcked at member
  split at member
  · exact .inl member
  · dsimp only at member
    split at member
    · rcases List.mem_append.mp member with older | fresh
      · exact .inl older
      · rw [List.mem_singleton.mp fresh]
        exact .inr rfl
    · rw [foldl_keeps pendingSettleThroughs fun _ _ => enqueueSettlement_futures] at member
      exact .inl member

theorem Answered.drained {lane : Lane} (answered : Answered v) (here : w.lane = lane.drainSettlementQueue)
    (futures : lane.pendingSettleThroughs.Sublist v.lane.pendingSettleThroughs)
    (finishing : w.finishing = none ∨ w.finishing = v.finishing) : Answered w := by
  refine answered.fewer (fun future member => ?_) fun through result under => ?_
  · rw [here] at member
    exact (Lane.drainSettlementQueue_futures member).imp_left fun older => futures.subset older
  · rcases finishing with done | same
    · cases under.symm.trans done
    · exact same ▸ under

theorem Quiet.answered (move : Quiet sub capacity v w) (answered : Answered v) : Answered w := by
  cases move
  case flow flow => exact answered.of_desk flow.desk flow.same_finishing
  case acceptAck | progress | confirm => exact answered.fewer (fun _ member => .inl member) fun _ _ under => under
  case flush ready => exact answered.fewer (fun _ => Lane.flushAcked_futures) fun _ _ under => under
  case beginSettlement =>
    refine answered.fewer (fun future member => .inl ?_) fun _ _ other => ?_
    · rw [Lane.futures_of_desk Lane.beginSettlement_desk] at member
      exact member
    · cases other
  case beginThrough index future result _ _ found answer =>
    refine ⟨fun other member => ?_, fun through ended under => ?_⟩
    · rw [Lane.futures_of_desk Lane.beginThrough_desk] at member
      exact answered.futures other (List.mem_of_mem_eraseIdx member)
    · cases under
      exact answered.futures future (List.mem_of_getElem? found) result answer
  case endSettlement tag result _ =>
    refine answered.drained Lane.endSettlement_eq ?_ (.inl rfl)
    rw [Lane.futures_of_desk Lane.concluded_desk]
  case endThrough through result _ =>
    refine answered.drained Lane.endThrough_eq ?_ (.inl rfl)
    rw [Lane.futures_of_desk Lane.concludedThrough_desk]
  case closeSettlement =>
    exact answered.drained Lane.closeSettlement_eq (List.Sublist.refl _) (.inr rfl)
  case closeThrough index future result _ _ _ =>
    refine answered.drained Lane.closeThrough_eq ?_ (.inr rfl)
    rw [Lane.futures_of_desk Lane.closedThrough_desk]
    exact List.eraseIdx_sublist _ _
  case dropFutures =>
    exact answered.fewer (fun _ none => absurd none List.not_mem_nil) fun _ _ under => under
  all_goals exact answered.of_desk rfl rfl

theorem Marked.answered {mark : Mark} (move : Marked v mark w) (answered : Answered v) : Answered w := by
  cases move
  case settle tag settlement _ _ _ _ _ =>
    refine answered.fewer (fun future member => .inl ?_) fun _ _ under => under
    have same : (v.lane.acceptSettlement tag settlement).pendingSettleThroughs = v.lane.pendingSettleThroughs :=
      Lane.enqueueSettlement_futures.trans (Lane.futures_of_desk Lane.takenUp_desk)
    exact same ▸ member
  case through through _ _ _ _ _ _ _ _ =>
    refine answered.fewer (fun future member => ?_) fun _ _ under => under
    have same := Lane.futures_of_desk (@Lane.takenUpThrough_desk v.lane through)
    exact same ▸ Lane.enqueueSettleThrough_futures member
  case perform frame answer _ _ =>
    exact answered.of_desk (w := { v with lane := v.lane.transmit frame (reached answer) })
      (Lane.transmit_desk _ _) rfl |>.fewer (fun _ member => .inl member) fun _ _ under => under
  case performThrough index future answer found _ =>
    refine ⟨fun other member result ended => ?_, answered.finishing⟩
    rw [Lane.setResult, Lane.futures_of_desk (Lane.transmit_desk _ _)] at member
    rcases List.mem_or_eq_of_mem_set member with older | rfl
    · exact answered.futures other older result ended
    · cases ended
      exact ⟨answer, rfl⟩
  case task frame answer _ =>
    exact answered.of_desk (Lane.transmit_desk _ _) rfl

/-! ### Discipline -/

/-- What the embedder may have taken up: a tag still pending that no staged cumulative acknowledgement
stands for. -/
def Lane.Free (lane : Lane) (tag : Nat) : Prop :=
  tag ∈ lane.ledger.pending.keys ∧ ∀ through ∈ lane.throughs, tag ∉ through.affected

structure Disciplined (v : View) : Prop where
  issued : ∀ item ∈ v.popped ++ v.queue, v.lane.issued item.tag = some item
  nodup : v.singles.Nodup
  settling : ∀ tag ∈ v.singles, v.lane.settling tag = true
  recorded : v.winding = false → ∀ tag ∈ v.lane.ackedBatch.keys, tag ∈ v.lane.ledger.pending.keys →
    v.lane.settling tag = true ∧ tag ∉ v.singles
  apart : ∀ through ∈ v.throughs, through.target ∉ v.singles
  front : ∀ through ∈ v.underway, ∀ tag ∈ v.singles, through.target < tag

theorem Disciplined.fewer (disciplined : Disciplined v) (stages : w.singles.Sublist v.singles)
    (throughs : w.throughs.Sublist v.throughs) (batch : w.lane.ackedBatch = v.lane.ackedBatch)
    (winding : w.winding = false → v.winding = false)
    (issued : ∀ item ∈ w.popped ++ w.queue, w.lane.issued item.tag = some item)
    (pending : ∀ tag ∈ w.lane.ledger.pending.keys, tag ∈ v.lane.ackedBatch.keys → tag ∈ v.lane.ledger.pending.keys)
    (settling : ∀ tag, tag ∈ w.singles ∨
      w.winding = false ∧ tag ∈ w.lane.ledger.pending.keys ∧ tag ∈ v.lane.ackedBatch.keys →
      v.lane.settling tag = true → w.lane.settling tag = true)
    (front : ∀ through ∈ w.underway, through ∈ v.underway ∨ w.singles = []) : Disciplined w where
  issued := issued
  nodup := disciplined.nodup.sublist stages
  settling tag member := settling tag (.inl member) (disciplined.settling tag (stages.subset member))
  recorded live tag among member := by
    rw [batch] at among
    obtain ⟨claimed, outside⟩ := disciplined.recorded (winding live) tag among (pending tag member among)
    exact ⟨settling tag (.inr ⟨live, member, among⟩) claimed, fun inside => outside (stages.subset inside)⟩
  apart through member inside := disciplined.apart through (throughs.subset member) (stages.subset inside)
  front through underway tag member := by
    rcases front through underway with before | none
    · exact disciplined.front through before tag (stages.subset member)
    · rw [none] at member
      cases member

theorem Disciplined.issued_some (disciplined : Disciplined v) {tag : Nat} (handed : tag ∈ v.handed) :
    (v.lane.issued tag).isSome = true := by
  obtain ⟨item, member, rfl⟩ := List.mem_map.mp handed
  rw [disciplined.issued item member]
  rfl

theorem Sequenced.ahead (sequenced : Sequenced sub v) :
    (v.handed ++ (v.lane.buffer ++ v.parked ++ v.incoming).map (·.tag)).Pairwise (· < ·) := by
  obtain ⟨out, items, kept⟩ := sequenced.kept
  have tags : v.handed = out.map (·.tag) := by
    rw [View.handed, items, List.map_map]
    rfl
  have all : ((keptOf v.lane.stock.arrived v.lane.stock.discarded ++ v.incoming).map (·.tag)).Pairwise (· < ·) :=
    sequenced.ascending.sublist ((List.filter_sublist.append_right _).map _)
  rw [kept] at all
  rw [tags, ← List.map_append]
  rw [List.append_assoc] at all
  exact all

theorem Sequenced.handed_lt (sequenced : Sequenced sub v) {tag : Nat} {d : Delivery} (handed : tag ∈ v.handed)
    (held : d ∈ v.lane.buffer ++ v.parked ++ v.incoming) : tag < d.tag :=
  (List.pairwise_append.mp sequenced.ahead).2.2 tag handed d.tag (List.mem_map_of_mem held)

section Moves

variable (late : sub.earlyAck = false)

include late

theorem Flow.issued (flow : Flow sub capacity v w) (sequenced : Sequenced sub v)
    (issued : ∀ item ∈ v.popped ++ v.queue, v.lane.issued item.tag = some item) :
    ∀ item ∈ w.popped ++ w.queue, w.lane.issued item.tag = some item := by
  -- the first of the buffer is newer than what was handed over
  have tokenized : ∀ {d : Delivery} {rest : List Delivery}, v.lane.buffer = d :: rest →
      ∀ item ∈ v.popped ++ v.queue, (v.lane.tokenize (sub.handed d)).issued item.tag = some item := by
    intro d rest front item member
    have less := sequenced.handed_lt (List.mem_map_of_mem member)
      (List.mem_append_left _ (List.mem_append_left _ (front ▸ List.mem_cons_self)))
    have apart : item.tag ≠ (sub.handed d).tag := ne_of_lt less
    rw [Lane.issued, Lane.tokenize_other apart]
    exact issued item member
  cases flow
  case refuse | unparkOversized =>
    intro item member
    rw [Lane.discardOversized, Lane.issued_congr (Lane.discard_tokens _)]
    exact issued item member
  case poison =>
    intro item member
    rw [Lane.issued_congr (Lane.discard_tokens _)]
    exact issued item member
  case handEarly early _ => cases late.symm.trans early
  case tokenize front _ _ => exact tokenized front
  case hand d rest front _ _ =>
    intro item member
    rw [← List.append_assoc] at member
    rcases List.mem_append.mp member with older | newest
    · exact tokenized front item older
    · rw [List.mem_singleton.mp newest]
      exact congrArg (Option.map (·.item)) Lane.tokenize_self
  all_goals exact issued

theorem Quiet.issued (move : Quiet sub capacity v w) (sequenced : Sequenced sub v)
    (issued : ∀ item ∈ v.popped ++ v.queue, v.lane.issued item.tag = some item) :
    ∀ item ∈ w.popped ++ w.queue, w.lane.issued item.tag = some item := by
  cases move
  case flow flow => exact flow.issued late sequenced issued
  case pop front => exact fun item member => issued item (by simpa [front] using member)
  case claim | giveUp => exact fun item member => (Lane.setState_issued _).trans (issued item member)
  case acceptAck => exact fun item member => (Lane.setSettling_issued _).trans (issued item member)
  case flush =>
    intro item member
    rw [Lane.issued_congr (Lane.tokens_of_offDesk Lane.flushAcked_offDesk)]
    exact issued item member
  case beginSettlement =>
    intro item member
    rw [Lane.issued_congr Lane.beginSettlement_tokens]
    exact issued item member
  case beginThrough =>
    intro item member
    rw [Lane.issued_congr Lane.beginThrough_tokens]
    exact issued item member
  case endSettlement => exact fun item member => Lane.endSettlement_issued.trans (issued item member)
  case endThrough => exact fun item member => Lane.endThrough_issued.trans (issued item member)
  case closeSettlement => exact fun item member => Lane.closeSettlement_issued.trans (issued item member)
  case closeThrough => exact fun item member => Lane.closeThrough_issued.trans (issued item member)
  all_goals exact issued

end Moves

theorem Flow.pending (flow : Flow sub capacity v w) (sequenced : Sequenced sub v) :
    ∀ tag ∈ w.lane.ledger.pending.keys, tag ∈ v.handed → tag ∈ v.lane.ledger.pending.keys := by
  have received : ∀ {d : Delivery} {rest : List Delivery} {tag : Nat}, v.incoming = d :: rest →
      tag ∈ (v.lane.receive d).ledger.pending.keys → tag ∈ v.handed → tag ∈ v.lane.ledger.pending.keys := by
    intro d rest tag front member handed
    rcases Table.mem_keys_insert.mp member with rfl | older
    · have less := sequenced.handed_lt handed (List.mem_append_right _ (front ▸ List.mem_cons_self))
      exact absurd less (lt_irrefl _)
    · exact older
  cases flow
  case park front _ | enroll front _ _ => exact fun tag => received front
  case refuse front _ =>
    intro tag member
    rw [Lane.discardOversized, Lane.ledger_of_books (Lane.discard_books _ _)] at member
    exact received front (Table.mem_keys_erase.mp member).1
  case unparkOversized =>
    intro tag member _
    rw [Lane.discardOversized, Lane.ledger_of_books (Lane.discard_books _ _)] at member
    exact (Table.mem_keys_erase.mp member).1
  case poison =>
    intro tag member _
    rw [Lane.ledger_of_books (Lane.discard_books _ _)] at member
    exact (Table.mem_keys_erase.mp member).1
  case tokenize | hand => exact fun tag member _ => Lane.tokenize_keys ▸ member
  all_goals exact fun tag member _ => member

theorem Writes.pending (writes : Writes v w) :
    ∀ tag ∈ w.lane.ledger.pending.keys, tag ∈ v.lane.ledger.pending.keys := by
  intro tag member
  cases writes with
  | nothing books | closed _ books _ =>
    rw [Lane.ledger_of_books books] at member
    exact member
  | settle _ books =>
    rw [Lane.ledger_of_books books] at member
    exact (Table.mem_keys_erase.mp member).1
  | through _ books =>
    rw [Lane.ledger_of_books books] at member
    exact (Table.mem_keys_filter.mp member).1

theorem Quiet.pending (move : Quiet sub capacity v w) (kept : Kept sub v) :
    ∀ tag ∈ w.lane.ledger.pending.keys, tag ∈ v.lane.ackedBatch.keys → tag ∈ v.lane.ledger.pending.keys := by
  rcases move.writes kept.booked kept.sequenced kept.solo kept.claimed with flow | writes
  · exact fun tag member recorded => flow.pending kept.sequenced tag member (kept.claimed.batch tag recorded)
  · exact fun tag member _ => writes.pending tag member

theorem Flow.settling (late : sub.earlyAck = false) (flow : Flow sub capacity v w) {tag : Nat}
    (older : ∀ d ∈ v.lane.buffer, tag ≠ d.tag) (claimed : v.lane.settling tag = true) :
    w.lane.settling tag = true := by
  cases flow
  case refuse | unparkOversized =>
    rw [Lane.discardOversized, Lane.settling_congr (Lane.discard_tokens _)]
    exact claimed
  case poison =>
    rw [Lane.settling_congr (Lane.discard_tokens _)]
    exact claimed
  case handEarly early _ => cases late.symm.trans early
  case tokenize d _ front _ _ =>
    have other := older d (front ▸ List.mem_cons_self)
    rw [Lane.settling, Lane.tokenize_other other]
    exact claimed
  case hand d _ front _ _ =>
    have other := older d (front ▸ List.mem_cons_self)
    change ((v.lane.tokenize (sub.handed d)).tokens tag).any _ = true
    rw [Lane.tokenize_other other]
    exact claimed
  all_goals exact claimed

theorem Quiet.settling (late : sub.earlyAck = false) (move : Quiet sub capacity v w) (kept : Kept sub v)
    (answered : Answered v) (disciplined : Disciplined v) {tag : Nat}
    (staged : tag ∈ w.singles ∨
      w.winding = false ∧ tag ∈ w.lane.ledger.pending.keys ∧ tag ∈ v.lane.ackedBatch.keys)
    (claimed : v.lane.settling tag = true) : w.lane.settling tag = true := by
  have before := move.pending kept
  cases move
  case flow flow =>
    refine flow.settling late ?_ claimed
    intro d member same
    have handed : tag ∈ v.handed := by
      rcases staged with single | ⟨-, -, recorded⟩
      · rw [View.singles_of_desk flow.desk flow.same_finishing] at single
        exact kept.claimed.singles tag single
      · exact kept.claimed.batch tag recorded
    have less := kept.sequenced.handed_lt handed (List.mem_append_left _ (List.mem_append_left _ member))
    omega
  case claim | giveUp => exact (Lane.setState_settling _).trans claimed
  case acceptAck => exact Lane.setSettling_true claimed
  case flush =>
    rw [Lane.settling_congr (Lane.tokens_of_offDesk Lane.flushAcked_offDesk)]
    exact claimed
  case beginSettlement =>
    rw [Lane.settling_congr Lane.beginSettlement_tokens]
    exact claimed
  case beginThrough =>
    rw [Lane.settling_congr Lane.beginThrough_tokens]
    exact claimed
  case endSettlement token result under =>
    refine (Lane.endSettlement_settling ?_).trans claimed
    rintro rfl
    have departs := @Solo.ended sub v kept.solo tag result under
    rcases staged with single | ⟨live, pending, recorded⟩
    · exact departs.gone disciplined.nodup single
    · exact (disciplined.recorded live tag recorded (before tag pending recorded)).2
        (departs.singles ▸ List.mem_cons_self)
  case endThrough through result under =>
    refine (Lane.endThrough_settling ?_).trans claimed
    intro inside
    have underway := View.underway_finishing under
    have staged' := View.underway_mem underway
    rcases staged with single | ⟨live, pending, recorded⟩
    · have older : tag ∈ v.singles := (kept.solo.endedThrough under).singles ▸ single
      have less := disciplined.front through underway tag older
      have upTo := (kept.booked.balanced.covers through staged').upTo tag inside
      omega
    · have terminal := answered.terminal under
      rw [Lane.ledger_of_books ((Lane.endThrough_books _ _).trans (if_pos terminal))] at pending
      exact ((kept.booked.balanced.mem_settleThrough staged').mp pending).2 inside
  case closeSettlement index future result winding found _ =>
    refine (Lane.closeSettlement_settling ?_).trans claimed
    rintro rfl
    rcases staged with single | ⟨live, -, -⟩
    · exact (kept.solo.closed found).gone disciplined.nodup single
    · cases live.symm.trans winding
  case closeThrough index future result winding found _ =>
    refine (Lane.closeThrough_settling ?_).trans claimed
    intro inside
    have among := kept.solo.underway_found found
    have upTo := (kept.booked.balanced.covers _ (View.underway_mem among)).upTo tag inside
    rcases staged with single | ⟨live, -, -⟩
    · have older : tag ∈ v.singles := (kept.solo.closedThrough found).singles ▸ single
      have less := disciplined.front _ among tag older
      omega
    · cases live.symm.trans winding
  all_goals exact claimed

theorem Quiet.disciplined (late : sub.earlyAck = false) (move : Quiet sub capacity v w) (kept : Kept sub v)
    (answered : Answered v) (disciplined : Disciplined v) : Disciplined w := by
  have issued := move.issued late kept.sequenced disciplined.issued
  have pending := move.pending kept
  have winding := move.winding_mono
  have settling := fun tag => @Quiet.settling _ _ _ _ late move kept answered disciplined tag
  cases move.stages kept.solo with
  | fewer singles throughs batch front =>
    exact disciplined.fewer singles throughs batch winding issued pending settling front
  | @ack tag rest command free tokens singles throughs underway batch _ =>
    have handed : tag ∈ v.handed := kept.claimed.commands (.settle tag .ack) (command ▸ List.mem_cons_self)
    have claimed : w.lane.settling tag = true := by
      rw [Lane.settling_congr tokens, Lane.setSettling_self, disciplined.issued_some handed]
      rfl
    refine ⟨issued, singles ▸ disciplined.nodup, ?_, ?_, ?_, ?_⟩
    · exact fun other member => settling other (.inl member) (disciplined.settling other (singles ▸ member))
    · intro live other member among
      rw [batch] at member
      rcases Table.mem_keys_insert.mp member with rfl | recorded
      · refine ⟨claimed, fun inside => ?_⟩
        have taken := disciplined.settling other (singles ▸ inside)
        exact absurd free (by simp [Lane.settling] at taken; simp [taken])
      · obtain ⟨held, outside⟩ := disciplined.recorded (winding live) other recorded (pending other among recorded)
        exact ⟨settling other (.inr ⟨live, among, recorded⟩) held, singles ▸ outside⟩
    · exact fun through member => singles ▸ disciplined.apart through (throughs ▸ member)
    · exact fun through member => singles ▸ disciplined.front through (underway ▸ member)
  | flush ready free singles throughs batch =>
    have last : ∀ through ∈ w.throughs, ∀ tag ∈ w.singles, through.target < tag := by
      intro through member tag straggler
      rw [throughs, Option.mem_toList, Lane.flushThrough_eq_some] at member
      rw [singles] at straggler
      have beyond := (Lane.mem_stragglers straggler).2.2
      rwa [member.1] at beyond
    refine ⟨issued, ?_, ?_, ?_, ?_, ?_⟩
    · rw [singles]
      exact Lane.stragglers_sorted.imp fun less => ne_of_lt less
    · intro tag member
      obtain ⟨recorded, among, -⟩ := Lane.mem_stragglers (singles ▸ member)
      exact settling tag (.inl member) (disciplined.recorded ready.2 tag recorded among).1
    · rw [batch]
      exact fun _ _ => nofun
    · exact fun through member inside => lt_irrefl _ (last through member _ inside)
    · exact fun through underway => last through (View.underway_mem underway)

/-! ### Taking up a decision -/

/-- The embedder settles nothing that a staged cumulative acknowledgement stands for. -/
def Lane.Considerate (lane : Lane) : Mark → Prop
  | .settle tag _ => lane.Free tag
  | _ => True

theorem Marked.issued {mark : Mark} {tag : Nat} (move : Marked v mark w) :
    w.lane.issued tag = v.lane.issued tag := by
  cases move
  case settle => exact (Lane.issued_congr Lane.acceptSettlement_tokens).trans (Lane.setSettling_issued true)
  case through =>
    refine (Lane.issued_congr Lane.acceptThrough_tokens).trans ?_
    rw [Lane.claimAll_issued, Lane.setSettling_issued]
  all_goals exact Lane.issued_congr (Lane.transmit_tokens _ _)

theorem Marked.settling {mark : Mark} {tag : Nat} (move : Marked v mark w) (claimed : v.lane.settling tag = true) :
    w.lane.settling tag = true := by
  cases move
  case settle =>
    rw [Lane.settling_congr Lane.acceptSettlement_tokens]
    exact Lane.setSettling_true claimed
  case through =>
    rw [Lane.settling_congr Lane.acceptThrough_tokens]
    exact Lane.claimAll_settling _ (Lane.setSettling_true claimed)
  all_goals exact (Lane.settling_congr (Lane.transmit_tokens _ _)).trans claimed

theorem Marked.underway {mark : Mark} (move : Marked v mark w) (solo : Solo v) :
    ∀ through ∈ w.underway, through ∈ v.underway ∨ w.singles = [] := by
  intro through member
  have singles := (move.stages solo).1
  cases move
  case settle tag settlement _ _ _ _ _ =>
    left
    have futures : (v.lane.acceptSettlement tag settlement).pendingSettleThroughs = v.lane.pendingSettleThroughs :=
      Lane.enqueueSettlement_futures.trans (Lane.futures_of_desk Lane.takenUp_desk)
    rw [View.underway, futures] at member
    exact member
  case through whole rest ready front _ _ _ _ _ =>
    have desk := @Lane.takenUpThrough_desk v.lane whole
    by_cases busy : v.lane.inFlight = true
    · left
      have flag : (v.lane.takenUpThrough whole).inFlight = true := (congrArg Desk.inFlight desk).trans busy
      rw [View.underway, Lane.acceptThrough_staged, Lane.enqueueSettleThrough, if_pos flag,
        Lane.futures_of_desk desk] at member
      exact member
    · right
      rw [singles, (solo.staged_of_idle ready (by simpa using busy)).1]
      rfl
  case perform frame answer _ _ =>
    left
    rw [View.underway, Lane.setProgress, Lane.futures_of_desk (Lane.transmit_desk _ _)] at member
    exact member
  case performThrough index future answer found _ =>
    left
    obtain ⟨rfl, -, -, one⟩ := solo.flown.of_through found
    rw [View.underway, Lane.setResult, Lane.futures_of_desk (Lane.transmit_desk _ _), one] at member
    rw [View.underway, one]
    exact member
  case task =>
    left
    rw [View.underway, Lane.futures_of_desk (Lane.transmit_desk _ _)] at member
    exact member

section Decisions

variable {mark : Mark} {tag : Nat}

theorem Marked.ready (move : Marked v mark w) (decision : mark.single? = some tag ∨
    mark.through?.map (·.target) = some tag) : v.Ready := by
  cases move
  case settle ready _ _ _ | through ready _ _ _ _ _ _ => exact ready
  all_goals simp [Mark.single?, Mark.through?] at decision

theorem Marked.unclaimed (move : Marked v mark w) (tag : Nat) (decision : mark.single? = some tag ∨
    mark.through?.map (·.target) = some tag) : v.lane.settling tag = false := by
  cases move
  case settle free | through free _ _ _ =>
    obtain rfl : _ = tag := by simpa [Mark.single?, Mark.through?] using decision
    exact free
  all_goals simp [Mark.single?, Mark.through?] at decision

theorem Marked.claims {settlement : Settlement} (move : Marked v (.settle tag settlement) w)
    (issued : (v.lane.issued tag).isSome = true) : w.lane.settling tag = true := by
  cases move
  rw [Lane.settling_congr Lane.acceptSettlement_tokens, Lane.setSettling_self, issued]
  rfl

end Decisions

theorem Marked.disciplined {mark : Mark} (move : Marked v mark w) (considerate : v.lane.Considerate mark)
    (kept : Kept sub v) (disciplined : Disciplined v) : Disciplined w := by
  obtain ⟨singles, throughs, batch⟩ := move.stages kept.solo
  have underway := move.underway kept.solo
  have winding := move.same_winding
  have ledger := Lane.ledger_of_books move.books
  have issued : ∀ item ∈ w.popped ++ w.queue, w.lane.issued item.tag = some item :=
    fun item member => move.issued.trans (disciplined.issued item (move.unstirred.handed ▸ member))
  have claimed : ∀ tag, v.lane.settling tag = true → w.lane.settling tag = true := fun tag => move.settling
  cases mark with
  | frame frame reached =>
    rw [show (Mark.frame frame reached).single? = none from rfl, Option.toList_none, List.append_nil] at singles
    rw [show (Mark.frame frame reached).through? = none from rfl, Option.toList_none, List.append_nil] at throughs
    refine disciplined.fewer (singles ▸ List.Sublist.refl _) (throughs ▸ List.Sublist.refl _) batch
      (winding ▸ id) issued (fun tag member _ => ledger ▸ member) (fun tag _ => claimed tag) underway
  | through whole =>
    have free := move.unclaimed whole.target (.inr rfl)
    rw [show (Mark.through whole).single? = none from rfl, Option.toList_none, List.append_nil] at singles
    refine ⟨issued, singles ▸ disciplined.nodup, ?_, ?_, ?_, ?_⟩
    · exact fun tag member => claimed tag (disciplined.settling tag (singles ▸ member))
    · intro live tag recorded member
      obtain ⟨held, outside⟩ := disciplined.recorded (winding ▸ live) tag (batch ▸ recorded) (ledger ▸ member)
      exact ⟨claimed tag held, singles ▸ outside⟩
    · intro through member
      rw [throughs] at member
      rw [singles]
      rcases List.mem_append.mp member with older | newest
      · exact disciplined.apart through older
      · obtain rfl : through = whole := by simpa [Mark.through?] using newest
        exact fun inside => absurd (disciplined.settling _ inside) (by simp [free])
    · intro through member tag inside
      rcases underway through member with before | none
      · exact disciplined.front through before tag (singles ▸ inside)
      · rw [none] at inside
        cases inside
  | settle tag settlement =>
    have free := move.unclaimed tag (.inl rfl)
    obtain ⟨pending, outside⟩ := considerate
    have ready := move.ready (.inl rfl)
    have asked := (move.asked kept.claimed).1 tag rfl
    have lanes : v.throughs = v.lane.throughs := by rw [View.throughs, ready.1]; rfl
    have beyond : ∀ through ∈ v.throughs, through.target < tag := by
      intro through member
      have covers := kept.booked.balanced.covers through member
      exact not_le.mp fun upTo => outside through (lanes ▸ member) (covers.all tag pending upTo)
    have fresh : tag ∉ v.singles := fun inside => absurd (disciplined.settling tag inside) (by simp [free])
    have mem : ∀ other, other ∈ w.singles ↔ other ∈ v.singles ∨ other = tag := by
      intro other
      rw [singles]
      simp [Mark.single?]
    refine ⟨issued, ?_, ?_, ?_, ?_, ?_⟩
    · rw [singles]
      exact List.nodup_append.mpr ⟨disciplined.nodup, List.nodup_singleton tag, by
        rintro other member _ same rfl
        exact fresh (List.mem_singleton.mp same ▸ member)⟩
    · intro other member
      rcases (mem other).mp member with older | rfl
      · exact claimed other (disciplined.settling other older)
      · exact move.claims (disciplined.issued_some asked)
    · intro live other recorded member
      obtain ⟨held, apart⟩ := disciplined.recorded (winding ▸ live) other (batch ▸ recorded) (ledger ▸ member)
      refine ⟨claimed other held, fun inside => ?_⟩
      rcases (mem other).mp inside with older | rfl
      · exact apart older
      · exact absurd held (by simp [free])
    · intro through member inside
      rw [throughs] at member
      have older : through ∈ v.throughs := by simpa [Mark.through?] using member
      rcases (mem _).mp inside with among | same
      · exact disciplined.apart through older among
      · exact absurd same (ne_of_lt (beyond through older))
    · intro through member other inside
      rcases underway through member with before | none
      · rcases (mem other).mp inside with older | rfl
        · exact disciplined.front through before other older
        · exact beyond through (View.underway_mem before)
      · rw [none] at inside
        cases inside

theorem disciplined_initial : Disciplined .initial :=
  ⟨nofun, List.nodup_nil, nofun, fun _ => nofun, nofun, nofun⟩

end RabbitRs.Consumer
