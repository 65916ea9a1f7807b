import RabbitRs.Consumer.Custody
import RabbitRs.Consumer.Shelf

/-!
Coalesced acknowledgements against single ones: once the frames of a flush have completed, the
channel is where single frames for every recorded and pending tag would have brought it, except for
the settled prefix.
-/

namespace RabbitRs.Consumer

open StepMachine
open Ordered (Table)

namespace Lane

section

variable (sub : Subscription)

def succeed (lane : Lane) : Option (Frame × Lane) :=
  match lane.pendingSettlements, lane.pendingSettleThroughs with
  | future :: _, _ => future.frame.map fun frame =>
      let result := answerState frame.outcome (.ok ())
      let lane := (lane.transmit frame true).setProgress 0 future (.finished result)
      (frame, (lane.beginSettlement 0 future.tag result).endSettlement sub future.tag result)
  | [], future :: _ =>
    let frame := Frame.ack future.through.target true
    let result := answerState .acked (.ok ())
    let lane := (lane.transmit frame true).setResult 0 future result
    some (frame, (lane.beginThrough 0 future.through result).endThrough future.through result)
  | [], [] => none

def succeedAll : Nat → Lane → List Frame × Lane
  | 0, lane => ([], lane)
  | count + 1, lane =>
    match lane.succeed sub with
    | none => ([], lane)
    | some (frame, next) => (frame :: (succeedAll count next).1, (succeedAll count next).2)

def settleStaged (lane : Lane) : List Frame × Lane :=
  succeedAll sub (lane.singles.length + lane.throughs.length) lane

def acknowledged (lane : Lane) : List Nat :=
  lane.ackedBatch.keys.filter (lane.ledger.pending.keys.contains ·)

def ackOne (lane : Lane) (tag : Nat) : Lane := ((lane.launchSettlement (tag, .ack)).settleStaged sub).2

/-- The reference: every recorded and pending tag is acknowledged by a frame of its own. -/
def ackEach (lane : Lane) : Lane :=
  lane.acknowledged.foldl (ackOne sub) { lane with ackedBatch := .empty }

end

def ackedToken (token : Token) : Token := { token with state := .acked, settling := false }

def acked (lane : Lane) (tags : List Nat) : Lane :=
  { lane with
    outstanding := lane.outstanding.filter (· ∉ tags)
    ledger := { lane.ledger with pending := lane.ledger.pending.filter (· ∉ tags) }
    bufferedBytes := lane.bufferedBytes - (tags.map lane.sizeOf).sum
    saturated := lane.saturated || lane.bufferedBytes < (tags.map lane.sizeOf).sum
    settled := lane.settled ++ tags
    tokens := fun tag => if tag ∈ tags then (lane.tokens tag).map ackedToken else lane.tokens tag }

variable {sub : Subscription} {lane : Lane} {tag : Nat} {through : Through}

theorem acked_sizeOf (tags : List Nat) : (lane.acked tags).sizeOf = lane.sizeOf := by
  funext tag
  unfold sizeOf acked
  dsimp only
  split
  · rw [Option.map_map]
    rfl
  · rfl

theorem acked_nil : lane.acked [] = lane := by
  have ledger : lane.ledger.pending.filter (· ∉ ([] : List Nat)) = lane.ledger.pending := by
    simp [Table.filter]
  unfold acked
  rw [ledger]
  simp

theorem releaseBytes_add (less more : Nat) :
    (lane.releaseBytes less).releaseBytes more = lane.releaseBytes (less + more) := by
  have cut : (decide (lane.bufferedBytes < less) || decide (lane.bufferedBytes - less < more)) =
      decide (lane.bufferedBytes < less + more) := by
    rw [Bool.eq_iff_iff]
    simp only [Bool.or_eq_true, decide_eq_true_eq]
    omega
  unfold releaseBytes
  simp only [Bool.or_assoc, cut, Nat.sub_sub]

theorem releaseAffected_eq (tags : List Nat) :
    lane.releaseAffected tags = lane.releaseBytes (tags.map lane.sizeOf).sum := by
  induction tags generalizing lane with
  | nil => simp [releaseAffected, releaseBytes]
  | cons tag rest ih =>
    change (lane.releaseBytes (lane.sizeOf tag)).releaseAffected rest = _
    rw [ih, releaseBytes_add]
    rfl

theorem marked_tokens : ((lane.setState tag .acked).setSettling tag false).tokens =
    Function.update lane.tokens tag ((lane.tokens tag).map ackedToken) := by
  simp only [setSettling, setState, changeToken, Function.update_self, Function.update_idem, Option.map_map]
  rfl

theorem map_ackedToken_twice (token : Option Token) :
    (token.map ackedToken).map ackedToken = token.map ackedToken := by
  rw [Option.map_map]
  rfl

theorem markAffected_eq (tags : List Nat) : lane.markAffected tags .acked = { lane with
      tokens := fun tag => if tag ∈ tags then (lane.tokens tag).map ackedToken else lane.tokens tag } := by
  induction tags generalizing lane with
  | nil => simp [markAffected]
  | cons first rest ih =>
    change ((lane.setState first .acked).setSettling first false).markAffected rest .acked = _
    rw [ih, marked_tokens]
    refine congrArg (fun tokens => ({ lane with tokens } : Lane)) (funext fun tag => ?_)
    by_cases here : tag = first
    · subst here
      by_cases again : tag ∈ rest
      · simp only [again, if_true, Function.update_self, map_ackedToken_twice, List.mem_cons_self]
      · simp only [again, if_false, Function.update_self, List.mem_cons_self, if_true]
    · simp only [Function.update_of_ne here, List.mem_cons, here, false_or]

theorem acked_append (tags more : List Nat) : (lane.acked tags).acked more = lane.acked (tags ++ more) := by
  have bytes := congrArg (fun lane : Lane => (lane.bufferedBytes, lane.saturated))
    (@releaseBytes_add lane (tags.map lane.sizeOf).sum (more.map lane.sizeOf).sum)
  obtain ⟨count, cut⟩ := Prod.mk.inj bytes
  have sizes : (more.map (lane.acked tags).sizeOf).sum = (more.map lane.sizeOf).sum := by rw [acked_sizeOf]
  unfold acked at sizes ⊢
  simp only [Lane.mk.injEq, Ledger.mk.injEq, List.filter_filter, Table.filter_filter, sizes, List.map_append,
    List.sum_append, List.append_assoc, true_and, and_true]
  refine ⟨count, ?_, ?_, ?_, cut⟩
  · refine Table.filter_congr fun tag _ => ?_
    simp
  · funext tag
    by_cases first : tag ∈ tags <;> by_cases second : tag ∈ more <;>
      simp only [first, second, if_true, if_false, map_ackedToken_twice, List.mem_append, or_true, or_false]
  · refine List.filter_congr fun tag _ => ?_
    rw [Bool.eq_iff_iff]
    simp [and_comm]

structure Idle (lane : Lane) : Prop where
  free : lane.inFlight = false
  noSettlement : lane.pendingSettlements = []
  noThrough : lane.pendingSettleThroughs = []
  noQueue : lane.settlementQueue = []
  noThroughQueue : lane.settleThroughQueue = []

def lined (lane : Lane) : List Nat → Lane
  | [] => lane
  | tag :: rest =>
    { lane with
      inFlight := true
      pendingSettlements := [{ tag, settlement := .ack }]
      settlementQueue := rest.map fun tag => (tag, .ack) }

def linedThrough (lane : Lane) (through : Through) (rest : List Nat) : Lane :=
  { lane with
    inFlight := true
    pendingSettleThroughs := [{ through }]
    settlementQueue := rest.map fun tag => (tag, .ack) }

def raised (lane : Lane) (ackedPrefix : Nat) : Lane := { lane with ledger := { lane.ledger with ackedPrefix } }

theorem Idle.after (idle : lane.Idle) (tags : List Nat) : (lane.acked tags).Idle := { idle with }

theorem Idle.drain (idle : lane.Idle) (tags : List Nat) :
    ({ lane with settlementQueue := tags.map fun tag => (tag, .ack) } : Lane).drainSettlementQueue =
      lane.lined tags := by
  obtain ⟨free, noSettlement, noThrough, noQueue, noThroughQueue⟩ := idle
  cases tags with
  | nil =>
    have same : ({ lane with settlementQueue := [] } : Lane) = lane := by rw [← noQueue]
    change ({ lane with settlementQueue := [] } : Lane).drainSettlementQueue = lane
    rw [same]
    unfold drainSettlementQueue
    rw [noQueue, noThroughQueue]
  | cons tag rest =>
    simp only [drainSettlementQueue, List.map_cons, launchSettlement, noSettlement]
    rfl

theorem Idle.succeed_lined (idle : lane.Idle) (tag : Nat) (rest : List Nat) :
    (lane.lined (tag :: rest)).succeed sub = some (.ack tag false, (lane.acked [tag]).lined rest) := by
  have tokens : ((lane.setSettling tag false).setState tag .acked).tokens = (lane.acked [tag]).tokens := by
    funext other
    by_cases here : other = tag
    · subst here
      simp only [setSettling, setState, changeToken, acked, Function.update_self, List.mem_singleton, if_true,
        Option.map_map]
      rfl
    · simp only [setSettling, setState, changeToken, acked, Function.update_of_ne here, List.mem_singleton, here,
        if_false]
  have outstanding : lane.outstanding.filter (fun other => !(Frame.ack tag false).covers other) =
      (lane.acked [tag]).outstanding := by
    refine List.filter_congr fun other _ => ?_
    simp [Frame.covers]
  have pending : lane.ledger.pending.erase tag = (lane.acked [tag]).ledger.pending := by
    have same : lane.ledger.pending.filter (· ≠ tag) = lane.ledger.pending.filter (· ∉ [tag]) :=
      Table.filter_congr fun other _ => by simp
    exact same
  rw [← (idle.after [tag]).drain rest]
  refine congrArg (fun lane : Lane => some (Frame.ack tag false, lane.drainSettlementQueue)) ?_
  obtain ⟨free, noSettlement, noThrough, noQueue, noThroughQueue⟩ := idle
  unfold acked at tokens outstanding pending ⊢
  dsimp only at tokens outstanding pending
  simp only [answerState, Frame.outcome, State.isTerminal, conclude, beginSettlement, if_true, lined, transmit,
    setProgress, retireSettlement, releaseBytes, settle]
  simp only [← tokens, ← outstanding, ← pending, List.map_singleton, List.sum_singleton, free, noSettlement]
  rfl

theorem Idle.succeed_through (idle : lane.Idle) (rest : List Nat)
    (outstanding : ∀ tag ∈ lane.outstanding, tag ≤ through.target ↔ tag ∈ through.affected)
    (pending : ∀ tag ∈ lane.ledger.pending.keys,
      lane.ledger.ackedPrefix < tag ∧ tag ≤ through.target ↔ tag ∈ through.affected) :
    (lane.linedThrough through rest).succeed sub = some (.ack through.target true,
      ((lane.acked through.affected).raised through.target).lined rest) := by
  have left : lane.outstanding.filter (fun tag => !(Frame.ack through.target true).covers tag) =
      (lane.acked through.affected).outstanding := by
    refine List.filter_congr fun tag member => ?_
    simp only [Frame.covers, outstanding tag member, decide_not]
  have open_ : lane.ledger.pending.filter
      (fun tag => !(lane.ledger.ackedPrefix < tag && tag ≤ through.target)) =
      (lane.acked through.affected).ledger.pending := by
    have same : lane.ledger.pending.filter
        (fun tag => !(lane.ledger.ackedPrefix < tag && tag ≤ through.target)) =
        lane.ledger.pending.filter (· ∉ through.affected) := by
      refine Table.filter_congr fun tag member => ?_
      simp only [← Bool.decide_and, pending tag member, decide_not]
    exact same
  have ready : ((lane.acked through.affected).raised through.target).Idle := { idle with }
  rw [← ready.drain rest]
  unfold succeed linedThrough
  dsimp only
  rw [idle.noSettlement]
  refine congrArg (fun lane : Lane => some (Frame.ack through.target true, lane.drainSettlementQueue)) ?_
  simp only [answerState, State.throughTerminal, State.throughAcked, State.throughState, beginThrough, if_true,
    markAffected_eq, releaseAffected_eq]
  unfold acked raised at *
  dsimp only at left open_
  simp only [← left, ← open_, idle.free, idle.noSettlement, idle.noThrough]
  rfl

theorem succeedAll_succ {next : Lane} {frame : Frame} (succeeds : lane.succeed sub = some (frame, next))
    (count : Nat) : succeedAll sub (count + 1) lane =
      (frame :: (succeedAll sub count next).1, (succeedAll sub count next).2) := by
  rw [succeedAll, succeeds]

theorem Idle.succeedAll_lined (idle : lane.Idle) (tags : List Nat) :
    succeedAll sub tags.length (lane.lined tags) = (tags.map fun tag => .ack tag false, lane.acked tags) := by
  induction tags generalizing lane with
  | nil => exact congrArg (Prod.mk []) acked_nil.symm
  | cons tag rest ih =>
    rw [List.length_cons, succeedAll_succ (idle.succeed_lined tag rest), ih (idle.after [tag]), acked_append]
    rfl

theorem lined_throughs (tags : List Nat) : (lane.lined tags).throughs = lane.throughs := by
  cases tags <;> rfl

theorem Idle.throughs (idle : lane.Idle) : lane.throughs = [] := by
  unfold Lane.throughs
  rw [idle.noThrough, idle.noThroughQueue]
  rfl

theorem Idle.singles (idle : lane.Idle) : lane.singles = [] := by
  unfold Lane.singles
  rw [idle.noSettlement, idle.noQueue]
  rfl

theorem Idle.lined_singles (idle : lane.Idle) (tags : List Nat) : (lane.lined tags).singles = tags := by
  cases tags with
  | nil => exact idle.singles
  | cons tag rest =>
    unfold lined Lane.singles
    rw [List.map_map]
    exact congrArg (tag :: ·) (List.map_id rest)

theorem Idle.settleStaged_lined (idle : lane.Idle) (tags : List Nat) :
    (lane.lined tags).settleStaged sub = (tags.map fun tag => .ack tag false, lane.acked tags) := by
  unfold settleStaged
  rw [idle.lined_singles, lined_throughs, idle.throughs]
  exact idle.succeedAll_lined tags

theorem Idle.ackOne (idle : lane.Idle) (tag : Nat) : lane.ackOne sub tag = lane.acked [tag] := by
  have launched : lane.launchSettlement (tag, .ack) = lane.lined [tag] := by
    unfold launchSettlement lined
    rw [idle.noSettlement]
    refine congrArg (fun queue => ({ lane with
      inFlight := true, pendingSettlements := [{ tag, settlement := .ack }],
      settlementQueue := queue } : Lane)) idle.noQueue
  unfold Lane.ackOne
  rw [launched, idle.settleStaged_lined]

theorem Idle.ackEach (idle : lane.Idle) :
    lane.ackEach sub = ({ lane with ackedBatch := .empty } : Lane).acked lane.acknowledged := by
  have each : ∀ (tags : List Nat) (lane : Lane), lane.Idle →
      tags.foldl (Lane.ackOne sub) lane = lane.acked tags := by
    intro tags
    induction tags with
    | nil => exact fun lane _ => acked_nil.symm
    | cons tag rest ih =>
      intro lane idle
      rw [List.foldl_cons, idle.ackOne, ih _ (idle.after [tag]), acked_append]
      rfl
  exact each _ _ { idle with }

theorem foldl_enqueue_lined {first : Nat} (rest tags : List Nat) :
    (tags.map fun tag => (tag, Settlement.ack)).foldl enqueueSettlement (lane.lined (first :: rest)) =
      lane.lined (first :: rest ++ tags) := by
  induction tags generalizing rest with
  | nil => simp
  | cons tag more ih =>
    have queued : (lane.lined (first :: rest)).enqueueSettlement (tag, .ack) =
        lane.lined (first :: (rest ++ [tag])) := by
      unfold enqueueSettlement lined
      simp
    rw [List.map_cons, List.foldl_cons, queued, ih]
    simp

theorem Idle.foldl_enqueue (idle : lane.Idle) (tags : List Nat) :
    (tags.map fun tag => (tag, Settlement.ack)).foldl enqueueSettlement lane = lane.lined tags := by
  cases tags with
  | nil => rfl
  | cons tag rest =>
    have launched : lane.enqueueSettlement (tag, .ack) = lane.lined [tag] := by
      unfold enqueueSettlement launchSettlement lined
      rw [idle.free, idle.noSettlement]
      exact congrArg (fun queue => ({ lane with
        inFlight := true, pendingSettlements := [{ tag, settlement := .ack }],
        settlementQueue := queue } : Lane)) idle.noQueue
    rw [List.map_cons, List.foldl_cons, launched]
    exact foldl_enqueue_lined [] rest

def emptied (lane : Lane) : Lane := { lane with ackedBatch := .empty }

theorem Idle.emptied (idle : lane.Idle) : lane.emptied.Idle := { idle with }

theorem nothing_recorded (empty : lane.ackedBatch.entries = []) :
    lane.ackedRun = [] ∧ lane.stragglers = [] ∧ lane.emptied = lane := by
  have batch : lane.ackedBatch = .empty := by
    cases recorded : lane.ackedBatch with
    | mk entries sorted =>
      rw [recorded] at empty
      cases empty
      rfl
  refine ⟨?_, ?_, ?_⟩
  · unfold ackedRun
    rw [batch]
    cases lane.ledger.pending.after lane.ledger.ackedPrefix <;> rfl
  · unfold stragglers
    rw [batch]
    rfl
  · unfold Lane.emptied
    rw [← batch]

theorem Idle.flushAcked_eq (idle : lane.Idle) : lane.flushAcked = match lane.ackedRun.getLast? with
      | some target => lane.emptied.linedThrough { target, affected := lane.ackedRun } lane.stragglers
      | none => lane.emptied.lined lane.stragglers := by
  by_cases empty : lane.ackedBatch.entries = []
  · obtain ⟨run, stragglers, same⟩ := nothing_recorded empty
    unfold flushAcked
    rw [run, stragglers, same, empty]
    simp [lined]
  · unfold flushAcked
    rw [if_neg (by simpa [idle.free] using empty)]
    dsimp only
    cases lane.ackedRun.getLast? with
    | none => exact idle.emptied.foldl_enqueue _
    | some target =>
      unfold linedThrough Lane.emptied launchSettleThrough
      dsimp only
      rw [idle.noThrough, idle.noQueue]
      rfl

def flushFrames (lane : Lane) : List Frame :=
  (lane.ackedRun.getLast?.map fun target => Frame.ack target true).toList ++
    lane.stragglers.map fun tag => .ack tag false

theorem flushFrames_cumulative : (lane.flushFrames.filter (!·.single)).length ≤ 1 := by
  have singles : (lane.stragglers.map fun tag => Frame.ack tag false).filter (!·.single) = [] := by
    simp [Frame.single]
  unfold flushFrames
  rw [List.filter_append, singles, List.append_nil]
  refine (List.length_filter_le _ _).trans ?_
  cases lane.ackedRun.getLast? with
  | none => exact Nat.zero_le 1
  | some target => exact le_rfl

theorem acknowledged_eq {throughs : List Through} (balanced : Balanced lane.ledger lane.arrived throughs) :
    lane.acknowledged = lane.ackedRun ++ lane.stragglers := by
  refine ((Table.keys_sorted _).filter _).eq_of_mem_iff ?_ fun tag => ?_
  · refine List.pairwise_append.mpr ⟨ackedRun_sorted, stragglers_sorted, fun low first high second => ?_⟩
    have beyond := (mem_stragglers second).2.2
    cases last : lane.ackedRun.getLast? with
    | none =>
      rw [List.getLast?_eq_none_iff.mp last] at first
      cases first
    | some final =>
      rw [last] at beyond
      exact lt_of_le_of_lt (ackedRun_le_last last first) beyond
  · rw [List.mem_filter, List.mem_append, List.contains_iff_mem]
    constructor
    · rintro ⟨recorded, pending⟩
      rcases balanced.recorded_staged recorded pending with straggler | ⟨through, staged, member⟩
      · exact .inr straggler
      · obtain ⟨-, run⟩ := flushThrough_eq_some.mp (Option.mem_toList.mp staged)
        exact .inl (run ▸ member)
    · rintro (run | straggler)
      · exact ⟨(mem_ackedRun run).1, (mem_ackedRun run).2.1⟩
      · exact ⟨(mem_stragglers straggler).1, (mem_stragglers straggler).2.1⟩

theorem flushFrames_acknowledged {throughs : List Through}
    (balanced : Balanced lane.ledger lane.arrived throughs) :
    ∀ frame ∈ lane.flushFrames, ∃ tag ∈ lane.acknowledged, ∃ multiple, frame = .ack tag multiple := by
  intro frame member
  rw [acknowledged_eq balanced]
  rcases List.mem_append.mp member with cumulative | single
  · obtain ⟨target, last, rfl⟩ := Option.map_eq_some_iff.mp (Option.mem_toList.mp cumulative)
    exact ⟨target, List.mem_append_left _ (List.mem_of_getLast? last), true, rfl⟩
  · obtain ⟨tag, straggler, rfl⟩ := List.mem_map.mp single
    exact ⟨tag, List.mem_append_right _ straggler, false, rfl⟩

theorem Idle.flush_settled {throughs : List Through} (idle : lane.Idle)
    (balanced : Balanced lane.ledger lane.arrived throughs)
    (held : ∀ tag ∈ lane.outstanding, tag ∈ lane.ledger.pending.keys) :
    lane.flushAcked.settleStaged sub = (lane.flushFrames,
      (lane.emptied.acked lane.acknowledged).raised
        (lane.ackedRun.getLast?.getD lane.ledger.ackedPrefix)) := by
  rw [idle.flushAcked_eq, acknowledged_eq balanced]
  unfold flushFrames
  cases last : lane.ackedRun.getLast? with
  | none =>
    dsimp only
    rw [List.getLast?_eq_none_iff.mp last, idle.emptied.settleStaged_lined]
    rfl
  | some target =>
    have covers : Covers lane.ledger lane.arrived { target, affected := lane.ackedRun } :=
      balanced.covers_flush (flushThrough_eq_some.mpr ⟨last, rfl⟩)
    have outstanding : ∀ tag ∈ lane.emptied.outstanding, tag ≤ target ↔ tag ∈ lane.ackedRun := fun tag member =>
      ⟨covers.all tag (held tag member), covers.upTo tag⟩
    have pending : ∀ tag ∈ lane.emptied.ledger.pending.keys,
        lane.emptied.ledger.ackedPrefix < tag ∧ tag ≤ target ↔ tag ∈ lane.ackedRun := fun tag member =>
      ⟨fun within => covers.all tag member within.2, fun run => ⟨balanced.above tag member, covers.upTo tag run⟩⟩
    have succeeds := @Idle.succeed_through sub lane.emptied { target, affected := lane.ackedRun } idle.emptied
      lane.stragglers outstanding pending
    have ready : ((lane.emptied.acked lane.ackedRun).raised target).Idle := { idle.emptied.after lane.ackedRun with }
    have count : (lane.emptied.linedThrough { target, affected := lane.ackedRun } lane.stragglers).singles.length +
        (lane.emptied.linedThrough { target, affected := lane.ackedRun } lane.stragglers).throughs.length =
        lane.stragglers.length + 1 := by
      unfold Lane.singles Lane.throughs linedThrough
      simp [idle.emptied.noSettlement, idle.emptied.noThroughQueue]
    unfold settleStaged
    rw [count, succeedAll_succ succeeds, ready.succeedAll_lined, ← acked_append]
    rfl

end Lane

variable {sha256 : Bytes → Bytes} {settings : Settings} {sub : Subscription} {s : State}

namespace State

/-- Nothing waits for freed bytes or for the hand-off queue. -/
structure Resting (s : State) : Prop where
  unparked : s.parked = []
  unfailed : s.sourceErrors = []
  unbuffered : ∀ id, (s.lanes id).buffer = []

theorem Resting.modify (resting : s.Resting) {id : String} {change : Lane → Lane}
    (same : (change (s.lanes id)).buffer = (s.lanes id).buffer) : (s.modify id change).Resting := by
  refine ⟨resting.unparked, resting.unfailed, fun name => ?_⟩
  by_cases here : name = id
  · subst here
    rw [lanes_modify_self, same]
    exact resting.unbuffered name
  · rw [lanes_modify_other (Ne.symm here)]
    exact resting.unbuffered name

theorem Resting.of_front {t : State} (resting : s.Resting) (same : t.front = s.front) : t.Resting where
  unparked := (congrArg (fun front => front.shelf.parked) same).trans resting.unparked
  unfailed := (congrArg Front.sourceErrors same).trans resting.unfailed
  unbuffered := fun id => (congrFun (congrArg (fun front => front.shelf.buffer) same) id).trans (resting.unbuffered id)

theorem Resting.stops (resting : s.Resting) :
    ∃ next, s.dispatchOnce settings = (next, false) ∧ next.lanes = s.lanes := by
  unfold dispatchOnce
  rw [resting.unfailed]
  dsimp only
  split
  · exact ⟨s, rfl, rfl⟩
  · rw [resting.unbuffered]
    exact ⟨_, rfl, rfl⟩

theorem Resting.dispatched (resting : s.Resting) :
    ((s.drainPending settings).dispatch settings).lanes = s.lanes := by
  have drained : s.drainPending settings = s := by
    unfold drainPending
    rw [resting.unparked, drainParked, ← resting.unparked]
  obtain ⟨next, stops, same⟩ := @Resting.stops settings s resting
  unfold dispatch
  rw [drained, drained]
  dsimp only
  rw [dispatchBound, dispatchLoop, stops]
  exact same

theorem lanes_afterArm : s.afterArm.lanes sub.id = s.lanes sub.id := congrArg View.lane view_afterArm

theorem Resting.completeSettlement (resting : s.Resting) {index tag : Nat}
    {result : Outcome} (terminal : isTerminal result = true) :
    (s.completeSettlement settings sub index tag result).lanes sub.id =
      ((s.lanes sub.id).beginSettlement index tag result).endSettlement sub tag result := by
  have freed : (((s.modify sub.id fun lane => lane.retireSettlement index).recordOutcome result).modify sub.id
      fun lane => lane.releaseBytes (lane.sizeOf tag)).Resting := by
    have retired : (s.modify sub.id fun lane => lane.retireSettlement index).Resting := resting.modify rfl
    exact (retired.of_front (front_recordOutcome result)).modify rfl
  rw [completeSettlement_eq]
  refine endedSettlement_acts.lane.trans (congrArg (fun lane : Lane => lane.endSettlement sub tag result) ?_)
  unfold reusedSettlement Lane.beginSettlement
  rw [if_pos terminal, if_pos terminal, freed.dispatched, lanes_modify_self, lanes_recordOutcome, lanes_modify_self]

theorem Resting.completeSettleThrough (resting : s.Resting) {index : Nat} {through : Through}
    {result : Outcome} (terminal : throughTerminal result = true) :
    (s.completeSettleThrough settings sub index through result).lanes sub.id =
      ((s.lanes sub.id).beginThrough index through result).endThrough through result := by
  have freed : (((s.modify sub.id fun lane => lane.retireSettleThrough index).modify sub.id fun lane =>
      lane.releaseAffected through.affected).countedThrough through result).Resting := by
    have retired : (s.modify sub.id fun lane => lane.retireSettleThrough index).Resting := resting.modify rfl
    have released : ((s.modify sub.id fun lane => lane.retireSettleThrough index).modify sub.id fun lane =>
        lane.releaseAffected through.affected).Resting :=
      retired.modify (Lane.releaseAffected_buffer through.affected)
    refine released.of_front ?_
    unfold countedThrough
    split <;> rfl
  have counted : ∀ u : State, (u.countedThrough through result).lanes sub.id = u.lanes sub.id := fun u =>
    congrArg View.lane view_countedThrough
  rw [completeSettleThrough_eq]
  refine endedThrough_acts.lane.trans (congrArg (fun lane : Lane => lane.endThrough through result) ?_)
  unfold reusedThrough Lane.beginThrough
  rw [if_pos terminal, if_pos terminal, freed.dispatched, counted, lanes_modify_self, lanes_modify_self]

end State

section Steps

/-! While nothing else waits, an operation that succeeds is two steps of the actor: the answer of the
broker, and the completion. -/

variable {frame : Frame} (found : settings.runtime sub.id = some sub)
  (selecting : s.stage = .select) (resting : s.Resting)

include found selecting resting

theorem settlement_steps {future : SettlementFuture} {rest : List SettlementFuture}
    (here : (s.lanes sub.id).pendingSettlements = future :: rest) (framed : future.frame = some frame) :
    ∃ t u, step sha256 settings s (.perform sub.id 0 (.ok ())) = some t ∧
      step sha256 settings t (.settled sub.id 0) = some u ∧
      some (frame, u.lanes sub.id) = (s.lanes sub.id).succeed sub := by
  let t := s.modify sub.id fun lane => (lane.transmit frame true).setProgress 0 future
    (.finished (answerState frame.outcome (.ok ())))
  have quiet : t.Resting := resting.modify (Lane.transmit_buffer frame true)
  have lane : t.lanes sub.id = ((s.lanes sub.id).transmit frame true).setProgress 0 future
      (.finished (answerState frame.outcome (.ok ()))) := State.lanes_modify_self _
  have listed : (t.lanes sub.id).pendingSettlements[0]? =
      some { future with progress := .finished (answerState frame.outcome (.ok ())) } := by
    rw [lane]
    cases frame <;> simp [Lane.setProgress, Lane.transmit, here]
  have completed := @State.Resting.completeSettlement settings sub t quiet 0 future.tag
    (answerState frame.outcome (.ok ())) rfl
  refine ⟨t, (t.completeSettlement settings sub 0 future.tag (answerState frame.outcome (.ok ()))).afterArm,
    ?_, ?_, ?_⟩
  · simp only [step, here, List.getElem?_cons_zero, Option.bind_some, framed, selecting]
    rfl
  · have stage : t.stage = .select := selecting
    simp only [step, found, Option.bind_some, listed, stage]
  · rw [State.lanes_afterArm, completed, lane]
    unfold Lane.succeed
    rw [here]
    dsimp only
    rw [framed]
    rfl

theorem through_steps {future : ThroughFuture} {rest : List ThroughFuture}
    (alone : (s.lanes sub.id).pendingSettlements = [])
    (here : (s.lanes sub.id).pendingSettleThroughs = future :: rest) (unanswered : future.result = none) :
    ∃ t u, step sha256 settings s (.performThrough sub.id 0 (.ok ())) = some t ∧
      step sha256 settings t (.throughSettled sub.id 0) = some u ∧
      some (.ack future.through.target true, u.lanes sub.id) = (s.lanes sub.id).succeed sub := by
  let t := s.modify sub.id fun lane => (lane.transmit (.ack future.through.target true) true).setResult 0 future
    (answerState .acked (.ok ()))
  have quiet : t.Resting := resting.modify (Lane.transmit_buffer _ true)
  have lane : t.lanes sub.id = ((s.lanes sub.id).transmit (.ack future.through.target true) true).setResult 0
      future (answerState .acked (.ok ())) := State.lanes_modify_self _
  have listed : (t.lanes sub.id).pendingSettleThroughs[0]? =
      some { future with result := some (answerState .acked (.ok ())) } := by
    rw [lane]
    simp [Lane.setResult, Lane.transmit, here]
  have completed := @State.Resting.completeSettleThrough settings sub t quiet 0 future.through
    (answerState .acked (.ok ())) rfl
  refine ⟨t, (t.completeSettleThrough settings sub 0 future.through (answerState .acked (.ok ()))).afterArm,
    ?_, ?_, ?_⟩
  · simp only [step, here, List.getElem?_cons_zero, Option.bind_some, unanswered, selecting]
    rfl
  · have stage : t.stage = .select := selecting
    simp only [step, found, Option.bind_some, listed, stage]
  · rw [State.lanes_afterArm, completed, lane]
    unfold Lane.succeed
    rw [alone, here]

end Steps

/-- The success of a staged operation, as flushes are compared by it, is what two steps of the actor
do: the first puts the frame on the wire, the second is its completion. -/
theorem success_is_two_steps {frame : Frame} {lane : Lane} (found : settings.runtime sub.id = some sub)
    (selecting : s.stage = .select) (resting : s.Resting)
    (unanswered : ∀ future ∈ (s.lanes sub.id).pendingSettleThroughs, future.result = none)
    (succeeds : (s.lanes sub.id).succeed sub = some (frame, lane)) :
    ∃ answered completed t u, answered.marks s sub.id = some (.frame frame true) ∧
      step sha256 settings s answered = some t ∧ step sha256 settings t completed = some u ∧
      u.lanes sub.id = lane := by
  have same {frame' : Frame} {u : State}
      (does : some (frame', u.lanes sub.id) = (s.lanes sub.id).succeed sub) :
      frame' = frame ∧ u.lanes sub.id = lane := Prod.mk.inj (Option.some.inj (does.trans succeeds))
  cases settlements : (s.lanes sub.id).pendingSettlements with
  | cons future rest =>
    have framed : ∃ frame, future.frame = some frame := by
      unfold Lane.succeed at succeeds
      rw [settlements] at succeeds
      obtain ⟨frame, framed, -⟩ := Option.map_eq_some_iff.mp succeeds
      exact ⟨frame, framed⟩
    obtain ⟨frame', framed⟩ := framed
    obtain ⟨t, u, answers, completes, does⟩ :=
      @settlement_steps sha256 settings sub s frame' found selecting resting future rest settlements framed
    obtain ⟨rfl, lane⟩ := same does
    refine ⟨_, _, t, u, ?_, answers, completes, lane⟩
    simp [Event.marks, settlements, framed, reached]
  | nil =>
    cases throughs : (s.lanes sub.id).pendingSettleThroughs with
    | cons future rest =>
      obtain ⟨t, u, answers, completes, does⟩ := @through_steps sha256 settings sub s found selecting
        resting future rest settlements throughs (unanswered future (by simp [throughs]))
      obtain ⟨rfl, lane⟩ := same does
      refine ⟨_, _, t, u, ?_, answers, completes, lane⟩
      simp [Event.marks, throughs, reached]
    | nil =>
      unfold Lane.succeed at succeeds
      rw [settlements, throughs] at succeeds
      cases succeeds

def cumulativeInFlight : State where
  lanes _ := { pendingSettleThroughs := [{ through := { target := 2, affected := [1, 2] } }], outstanding := [1, 2, 3] }
  scheduler := {}
  stage := .select

theorem cumulative_ack_in_two_steps : ∃ answered completed t u,
    step id jobsOnly cumulativeInFlight answered = some t ∧ step id jobsOnly t completed = some u ∧
    (u.lanes jobs.id).outstanding = [3] := by
  obtain ⟨answered, completed, t, u, -, first, second, lane⟩ := @success_is_two_steps id jobsOnly jobs
    cumulativeInFlight _ _ rfl rfl ⟨rfl, rfl, fun _ => rfl⟩ (by decide) rfl
  exact ⟨answered, completed, t, u, first, second, by rw [lane]; decide⟩

theorem Kept.idle {v : View} (kept : Kept sub v) (settled : v.finishing = none) (free : v.lane.inFlight = false) :
    v.lane.Idle := by
  obtain ⟨noSettlement, noThrough⟩ := kept.solo.flown.idle free
  obtain ⟨noQueue, noThroughQueue⟩ := kept.solo.still settled free
  exact ⟨free, noSettlement, noThrough, noQueue, noThroughQueue⟩

/-- On a channel with no settlement in flight whose outstanding tags are all in the ledger, a flush
and the completion of its frames leave what acknowledging each recorded and pending tag alone would
leave, up to the settled prefix. One frame at most is cumulative, every frame is for a recorded and
pending tag, those tags leave the broker and the ledger and have their tokens acknowledged, and no
other tag is touched. -/
theorem flush_acks_each (known : settings.Knows sub) (reached : Reachable (machine sha256 settings) s)
    (free : (s.lanes sub.id).inFlight = false)
    (held : ∀ tag ∈ (s.lanes sub.id).outstanding, tag ∈ (s.lanes sub.id).ledger.pending.keys) :
    let lane := s.lanes sub.id
    let frames := (lane.flushAcked.settleStaged sub).1
    let flushed := (lane.flushAcked.settleStaged sub).2
    flushed.raised lane.ledger.ackedPrefix = lane.ackEach sub ∧
    (flushed.singles = [] ∧ flushed.throughs = []) ∧
    (frames.filter (!·.single)).length ≤ 1 ∧
    (∀ frame ∈ frames, ∃ tag ∈ lane.acknowledged, ∃ multiple, frame = .ack tag multiple) ∧
    (∀ tag, tag ∈ flushed.outstanding ↔ tag ∈ lane.outstanding ∧ tag ∉ lane.acknowledged) ∧
    (∀ tag, tag ∈ flushed.ledger.pending.keys ↔ tag ∈ lane.ledger.pending.keys ∧ tag ∉ lane.acknowledged) ∧
    ∀ tag, flushed.tokens tag =
      if tag ∈ lane.acknowledged then (lane.tokens tag).map Lane.ackedToken else lane.tokens tag := by
  have kept := kept_of_reaches known reached
  have idle : (s.lanes sub.id).Idle := kept.idle rfl free
  have balanced : Balanced (s.lanes sub.id).ledger (s.lanes sub.id).arrived _ := kept.booked.balanced
  dsimp only
  rw [idle.flush_settled balanced held, idle.ackEach]
  dsimp only
  have after := idle.emptied.after (s.lanes sub.id).acknowledged
  refine ⟨rfl, ⟨after.singles, after.throughs⟩, Lane.flushFrames_cumulative,
    Lane.flushFrames_acknowledged balanced, fun tag => ?_, fun tag => ?_, fun tag => rfl⟩
  · change tag ∈ (s.lanes sub.id).outstanding.filter (· ∉ (s.lanes sub.id).acknowledged) ↔ _
    rw [List.mem_filter, decide_eq_true_iff]
  · change tag ∈ ((s.lanes sub.id).ledger.pending.filter (· ∉ (s.lanes sub.id).acknowledged)).keys ↔ _
    rw [Table.mem_keys_filter, decide_eq_true_iff]

/-- Acks of the first, the second and the fourth of four deliveries: one cumulative frame and a single
one leave the third. -/
theorem four_deliveries_acked_but_third : ∃ s, Reachable (machine id jobsOnly) s ∧
    (s.lanes "jobs").inFlight = false ∧ (s.lanes "jobs").acknowledged = [1, 2, 4] ∧
    ((s.lanes "jobs").flushAcked.settleStaged jobs).1 = [.ack 2 true, .ack 4 false] ∧
    ((s.lanes "jobs").flushAcked.settleStaged jobs).2.raised (s.lanes "jobs").ledger.ackedPrefix =
      (s.lanes "jobs").ackEach jobs := by
  obtain ⟨s, reached, free, held, recorded, frames⟩ := exists_reachable (machine id jobsOnly) rfl
    (arrivals [{ tag := 1 }, { tag := 2 }, { tag := 3 }, { tag := 4 }] 4 ++
      deciding 1 .ack ++ deciding 4 .ack ++ deciding 2 .ack ++ [.control, .control, .control])
    (fun s => (s.lanes "jobs").inFlight = false ∧
      (∀ tag ∈ (s.lanes "jobs").outstanding, tag ∈ (s.lanes "jobs").ledger.pending.keys) ∧
      (s.lanes "jobs").acknowledged = [1, 2, 4] ∧
      ((s.lanes "jobs").flushAcked.settleStaged jobs).1 = [.ack 2 true, .ack 4 false])
    (by decide +kernel)
  exact ⟨s, reached, free, recorded, frames, (flush_acks_each jobs_known reached free held).1⟩

/-- A flush beside a settlement in flight leaves the recorded acks for later: the second delivery
stays outstanding, whereas its acknowledgement would have taken it from the broker. -/
theorem recorded_ack_waits_for_settlement : ∃ s, Reachable (machine id jobsOnly) s ∧
    (∀ tag ∈ (s.lanes "jobs").outstanding, tag ∈ (s.lanes "jobs").ledger.pending.keys) ∧
    (s.lanes "jobs").acknowledged = [2] ∧
    ((s.lanes "jobs").flushAcked.settleStaged jobs).1 = [.reject 1 false] ∧
    ((s.lanes "jobs").flushAcked.settleStaged jobs).2.outstanding = [2] ∧
    ((s.lanes "jobs").ackEach jobs).outstanding = [] := by
  exact exists_reachable (machine id jobsOnly) rfl
    (arrivals [{ tag := 1 }, { tag := 2 }] 2 ++ deciding 1 (.reject false) ++ deciding 2 .ack ++
      [.control, .control])
    _ (by decide +kernel)

end RabbitRs.Consumer
