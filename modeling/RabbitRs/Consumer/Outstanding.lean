import Mathlib.Data.List.Perm.Basic
import RabbitRs.Consumer.Discipline

/-!
Every frame the actor puts on a channel is for a tag the broker holds outstanding there.
-/

namespace RabbitRs.Consumer

open StepMachine
open Ordered (Table)

variable {sub : Subscription} {capacity : Nat} {v w : View}

def Frame.tag : Frame → Nat
  | .ack tag _ => tag
  | .reject tag _ => tag

def Frame.single : Frame → Bool
  | .ack _ multiple => !multiple
  | .reject _ _ => true

theorem Frame.covers_of_single {frame : Frame} (single : frame.single = true) (tag : Nat) :
    frame.covers tag = true ↔ tag = frame.tag := by
  cases frame with
  | ack own multiple =>
    cases multiple with
    | false => simp [Frame.covers, Frame.tag]
    | true => cases single
  | reject own requeue => simp [Frame.covers, Frame.tag]

/-! ### Tasks -/

def concludes (sub : Subscription) (tag : Nat) : Outcome → Option Frame
  | .ok _ => none
  | .error error =>
    match error.kind with
    | .maxAttempts | .invalidDelay => some (spawnPoisonSettlement sub.hasDeadLetter tag).1
    | _ => none

theorem spawnPoisonSettlement_frame (hasDeadLetter : Bool) (tag : Nat) :
    (spawnPoisonSettlement hasDeadLetter tag).1.tag = tag ∧
      (spawnPoisonSettlement hasDeadLetter tag).1.single = true := by
  cases hasDeadLetter <;> exact ⟨rfl, rfl⟩

theorem settlePoison_frame {identity : Option ChannelIdentity} {tag : Nat} {frame : Frame}
    (spawned : sub.settlePoison identity tag = some frame) : frame.tag = tag ∧ frame.single = true := by
  unfold Subscription.settlePoison at spawned
  split at spawned
  · cases spawned
    exact spawnPoisonSettlement_frame _ _
  · cases spawned

theorem concludes_frame {tag : Nat} {result : Outcome} {frame : Frame}
    (spawned : concludes sub tag result = some frame) : frame.tag = tag ∧ frame.single = true := by
  unfold concludes at spawned
  split at spawned
  · cases spawned
  · split at spawned
    · cases spawned
      exact spawnPoisonSettlement_frame _ _
    · cases spawned
      exact spawnPoisonSettlement_frame _ _
    · cases spawned

namespace Lane

variable {lane other : Lane} {tag index : Nat} {result : Outcome} {through : Through}

theorem tasks_of_offDesk (same : lane.offDesk = other.offDesk) : lane.tasks = other.tasks := by
  have parts := congrArg Lane.tasks same
  exact parts

theorem tasks_of_offTokens (same : lane.offTokens = other.offTokens) : lane.tasks = other.tasks := by
  have parts := congrArg Lane.tasks same
  exact parts

theorem spawn_tasks (frame : Frame) : (lane.spawn frame).tasks = lane.tasks ++ [frame] := by
  cases frame <;> rfl

theorem discard_tasks (d : Delivery) : (lane.discard sub d).tasks =
    lane.tasks ++ (sub.settlePoison (some sub.identity) d.tag).toList := by
  unfold discard settlePoison
  cases sub.settlePoison (some sub.identity) d.tag with
  | none => exact (List.append_nil _).symm
  | some frame => exact spawn_tasks frame

theorem conclude_tasks :
    (lane.conclude sub tag result).tasks = lane.tasks ++ (concludes sub tag result).toList := by
  cases result with
  | ok terminal => exact (List.append_nil _).symm
  | error error =>
    obtain ⟨kind, message, source⟩ := error
    cases kind
    case maxAttempts | invalidDelay => exact spawn_tasks _
    all_goals exact (List.append_nil _).symm

theorem drainSettlementQueue_tasks : lane.drainSettlementQueue.tasks = lane.tasks :=
  tasks_of_offDesk drainSettlementQueue_offDesk

theorem endSettlement_tasks : (lane.endSettlement sub tag result).tasks =
    lane.tasks ++ (concludes sub tag result).toList := by
  rw [endSettlement_eq, drainSettlementQueue_tasks, concluded, conclude_tasks]
  congr 1
  change (if State.isTerminal result then lane.settle tag else lane).tasks = lane.tasks
  split <;> rfl

theorem endThrough_tasks : (lane.endThrough through result).tasks = lane.tasks := by
  rw [endThrough_eq, drainSettlementQueue_tasks, concludedThrough,
    tasks_of_offTokens (markAffected_offTokens _ _)]
  split <;> rfl

theorem closeThrough_tasks : (lane.closeThrough index through result).tasks = lane.tasks := by
  rw [closeThrough_eq, drainSettlementQueue_tasks]
  have marked := @markAffected_offTokens (lane.retireSettleThrough index) through.affected (closeState result)
  exact (tasks_of_offTokens marked).trans rfl

theorem beginSettlement_tasks : (lane.beginSettlement index tag result).tasks = lane.tasks := by
  unfold beginSettlement
  dsimp only
  split <;> rfl

theorem beginThrough_tasks : (lane.beginThrough index through result).tasks = lane.tasks := by
  unfold beginThrough
  dsimp only
  split
  · have parts := congrArg Lane.tasks
      (@releaseAffected_offBytes (lane.retireSettleThrough index) through.affected)
    exact parts
  · rfl

theorem beginSettlement_outstanding : (lane.beginSettlement index tag result).outstanding = lane.outstanding := by
  unfold beginSettlement
  dsimp only
  split <;> rfl

theorem beginThrough_outstanding : (lane.beginThrough index through result).outstanding = lane.outstanding := by
  refine (congrArg Core.outstanding (beginThrough_core index through result)).trans ?_
  split
  · have parts := congrArg Lane.outstanding
      (@releaseAffected_offBytes (lane.retireSettleThrough index) through.affected)
    exact parts
  · rfl

theorem endSettlement_outstanding : (lane.endSettlement sub tag result).outstanding = lane.outstanding := by
  refine (congrArg Core.outstanding (endSettlement_core sub tag result)).trans ?_
  split <;> rfl

theorem endThrough_outstanding : (lane.endThrough through result).outstanding = lane.outstanding := by
  refine (congrArg Core.outstanding (endThrough_core through result)).trans ?_
  split <;> rfl

theorem transmit_tasks (frame : Frame) (reached : Bool) : (lane.transmit frame reached).tasks = lane.tasks := by
  cases reached <;> cases frame <;> rfl

theorem acceptSettlement_tasks {settlement : Settlement} :
    (lane.acceptSettlement tag settlement).tasks = lane.tasks := by
  refine (tasks_of_offDesk (enqueueSettlement_offDesk _)).trans ?_
  split <;> rfl

theorem acceptThrough_tasks : (lane.acceptThrough through).tasks = lane.tasks := by
  rw [acceptThrough_eq, tasks_of_offDesk (enqueueSettleThrough_offDesk _)]
  have claimed := @claimAll_offTokens (lane.setSettling through.target true) through.affected
  exact (tasks_of_offTokens claimed).trans rfl

end Lane

/-! ### Frames sent -/

def answeredBy : Outcome → Bool
  | .ok _ => true
  | .error error => error.kind = .transport || error.kind = .staleGeneration

inductive View.Executed (v : View) (tag : Nat) : Prop where
  | single (future : SettlementFuture) (result : Outcome) :
      future ∈ v.lane.pendingSettlements → future.progress = .finished result → answeredBy result = true →
      future.tag = tag → Executed v tag
  | through (future : ThroughFuture) : future ∈ v.lane.pendingSettleThroughs → future.result ≠ none →
      tag ≤ future.through.target → Executed v tag
  | ending (result : Outcome) : v.finishing = some (.settlement tag result) →
      answeredBy result = true → Executed v tag
  | endingThrough (through : Through) (result : Outcome) :
      v.finishing = some (.through through result) → tag ≤ through.target → Executed v tag

theorem isTerminal_of_answeredBy {result : Outcome} (answered : answeredBy result = true) :
    State.isTerminal result = true := by
  cases result with
  | ok state => rfl
  | error error =>
    obtain ⟨kind, message, source⟩ := error
    cases kind
    all_goals first | rfl | cases answered

theorem concludes_of_answeredBy {tag : Nat} {result : Outcome}
    (answered : answeredBy result = true) : concludes sub tag result = none := by
  cases result with
  | ok state => rfl
  | error error =>
    obtain ⟨kind, message, source⟩ := error
    cases kind
    all_goals first | rfl | cases answered

theorem isTerminal_of_concludes {tag : Nat} {result : Outcome} {frame : Frame}
    (spawned : concludes sub tag result = some frame) : State.isTerminal result = true := by
  cases result with
  | ok state => rfl
  | error error =>
    obtain ⟨kind, message, source⟩ := error
    cases kind
    all_goals first | rfl | cases spawned

theorem answeredBy_answerState (success : DeliveryState) (answer : Except TransportError Unit) :
    answeredBy (answerState success answer) = true := by
  cases answer <;> rfl

inductive View.Due (v : View) (tag : Nat) : Prop where
  | single : tag ∈ v.singles → Due v tag
  | target (through : Through) : through ∈ v.throughs → through.target = tag → Due v tag
  | held (d : Delivery) : d ∈ v.lane.buffer ++ v.parked ++ v.incoming → d.tag = tag → Due v tag
  | pending : v.winding = false → tag ∈ v.lane.ledger.pending.keys → Due v tag

structure Unspent (v : View) : Prop where
  increasing : (v.throughs.map (·.target)).Pairwise (· < ·)
  bounded : ∀ tag ∈ v.lane.outstanding, tag ≤ v.lane.lastTag
  single : ∀ frame ∈ v.lane.tasks, frame.single = true
  nodup : (v.lane.tasks.map (·.tag)).Nodup
  tasks : ∀ frame ∈ v.lane.tasks, frame.tag ∈ v.lane.outstanding
  due : ∀ tag, v.Due tag → tag ∉ v.lane.tasks.map (·.tag) ∧ (tag ∈ v.lane.outstanding ∨ v.Executed tag)

namespace Unspent

variable (unspent : Unspent v)

include unspent

theorem keep (increasing : (w.throughs.map (·.target)).Pairwise (· < ·)) (tasks : w.lane.tasks = v.lane.tasks)
    (outstanding : w.lane.outstanding = v.lane.outstanding) (last : w.lane.lastTag = v.lane.lastTag)
    (due : ∀ tag, w.Due tag → v.Due tag) (executed : ∀ tag, w.Due tag → v.Executed tag → w.Executed tag) :
    Unspent w where
  increasing := increasing
  bounded := by
    rw [outstanding, last]
    exact unspent.bounded
  single := tasks ▸ unspent.single
  nodup := tasks ▸ unspent.nodup
  tasks := by
    rw [tasks, outstanding]
    exact unspent.tasks
  due tag member := by
    obtain ⟨free, held⟩ := unspent.due tag (due tag member)
    rw [tasks, outstanding]
    exact ⟨free, held.imp_right (executed tag member)⟩

theorem spawn {frame : Frame} (single : frame.single = true)
    (increasing : (w.throughs.map (·.target)).Pairwise (· < ·))
    (tasks : w.lane.tasks = v.lane.tasks ++ [frame])
    (outstanding : w.lane.outstanding = v.lane.outstanding) (last : w.lane.lastTag = v.lane.lastTag)
    (was : v.Due frame.tag) (unsent : ¬ v.Executed frame.tag) (gone : ¬ w.Due frame.tag)
    (due : ∀ tag, w.Due tag → v.Due tag) (executed : ∀ tag, w.Due tag → v.Executed tag → w.Executed tag) :
    Unspent w := by
  obtain ⟨fresh, held⟩ := unspent.due _ was
  have free := held.resolve_right unsent
  refine ⟨increasing, ?_, ?_, ?_, ?_, ?_⟩
  · rw [outstanding, last]
    exact unspent.bounded
  · rw [tasks]
    intro other member
    rcases List.mem_append.mp member with older | newest
    · exact unspent.single other older
    · rw [List.mem_singleton.mp newest]
      exact single
  · rw [tasks, List.map_append]
    refine List.nodup_append.mpr ⟨unspent.nodup, List.nodup_singleton _, ?_⟩
    intro tag member other same equal
    have own : other = frame.tag := List.mem_singleton.mp same
    exact fresh (own ▸ equal ▸ member)
  · rw [tasks, outstanding]
    intro other member
    rcases List.mem_append.mp member with older | newest
    · exact unspent.tasks other older
    · rw [List.mem_singleton.mp newest]
      exact free
  · intro tag member
    obtain ⟨apart, held⟩ := unspent.due tag (due tag member)
    rw [tasks, outstanding, List.map_append, List.mem_append, not_or]
    refine ⟨⟨apart, fun same => ?_⟩, held.imp_right (executed tag member)⟩
    have own : tag = frame.tag := List.mem_singleton.mp same
    exact gone (own ▸ member)

end Unspent

/-! ### Deliveries -/

theorem View.Executed.mono {tag : Nat} (executed : v.Executed tag)
    (singles : v.lane.pendingSettlements ⊆ w.lane.pendingSettlements)
    (throughs : v.lane.pendingSettleThroughs ⊆ w.lane.pendingSettleThroughs)
    (finishing : w.finishing = v.finishing) : w.Executed tag := by
  cases executed with
  | single future result member finished answered same =>
    exact .single future result (singles member) finished answered same
  | through future member answered upTo => exact .through future (throughs member) answered upTo
  | ending result under answered => exact .ending result (finishing ▸ under) answered
  | endingThrough through result under upTo => exact .endingThrough through result (finishing ▸ under) upTo

theorem View.Executed.of_desk {tag : Nat} (executed : v.Executed tag) (desk : w.lane.desk = v.lane.desk)
    (finishing : w.finishing = v.finishing) : w.Executed tag := by
  have futures : w.lane.pendingSettlements = v.lane.pendingSettlements := congrArg Desk.pendingSettlements desk
  refine executed.mono ?_ ?_ finishing
  · rw [futures]
    exact List.Subset.refl _
  · rw [Lane.futures_of_desk desk]
    exact List.Subset.refl _

theorem View.Executed.handed {tag : Nat} (executed : v.Executed tag) (claimed : Claimed v) :
    ∃ handed ∈ v.handed, tag ≤ handed := by
  cases executed with
  | single future result member _ _ same =>
    refine ⟨tag, claimed.singles tag ?_, le_rfl⟩
    exact List.mem_append_right _ (List.mem_append_left _ (same ▸ List.mem_map_of_mem member))
  | through future member _ upTo =>
    refine ⟨_, claimed.throughs future.through ?_, upTo⟩
    exact List.mem_append_right _ (List.mem_append_left _ (List.mem_map_of_mem member))
  | ending result under _ =>
    exact ⟨tag, claimed.singles tag (by simp [View.singles, under, Finishing.single?]), le_rfl⟩
  | endingThrough through result under upTo =>
    exact ⟨_, claimed.throughs through (by simp [View.throughs, under, Finishing.through?]), upTo⟩

theorem Kept.held_unsent {d : Delivery} (kept : Kept sub v) (held : d ∈ v.lane.buffer ++ v.parked ++ v.incoming) :
    ¬ v.Executed d.tag := by
  intro executed
  obtain ⟨tag, handed, upTo⟩ := executed.handed kept.claimed
  have less := kept.sequenced.handed_lt handed held
  omega

theorem Kept.held_once {d : Delivery} {before after : List Delivery} (kept : Kept sub v)
    (queues : v.lane.buffer ++ v.parked ++ v.incoming = before ++ d :: after) :
    d.tag ∉ v.handed ∧ ∀ a ∈ before ++ after, a.tag ≠ d.tag := by
  have ahead := kept.sequenced.ahead
  rw [queues, List.map_append, List.map_cons] at ahead
  obtain ⟨-, held, apart⟩ := List.pairwise_append.mp ahead
  obtain ⟨-, later, below⟩ := List.pairwise_append.mp held
  obtain ⟨above, -⟩ := List.pairwise_cons.mp later
  refine ⟨fun member => ?_, fun a member => ?_⟩
  · exact lt_irrefl _ (apart _ member _ (List.mem_append_right _ List.mem_cons_self))
  · rcases List.mem_append.mp member with earlier | further
    · exact ne_of_lt (below _ (List.mem_map_of_mem earlier) _ List.mem_cons_self)
    · exact ne_of_gt (above _ (List.mem_map_of_mem further))

theorem View.Due.of_flow {tag : Nat} (flow : Flow sub capacity v w) (due : w.Due tag)
    (held : ∀ a ∈ w.lane.buffer ++ w.parked ++ w.incoming, a ∈ v.lane.buffer ++ v.parked ++ v.incoming)
    (pending : ∀ tag ∈ w.lane.ledger.pending.keys, tag ∈ v.lane.ledger.pending.keys ∨
      ∃ a ∈ v.lane.buffer ++ v.parked ++ v.incoming, a.tag = tag) : v.Due tag := by
  cases due with
  | single member => exact .single (View.singles_of_desk flow.desk flow.same_finishing ▸ member)
  | target through member same =>
    exact .target through (View.throughs_of_desk flow.desk flow.same_finishing ▸ member) same
  | held d member same => exact .held d (held d member) same
  | pending live member =>
    rcases pending tag member with older | ⟨a, among, same⟩
    · exact .pending (flow.same_winding ▸ live) older
    · exact .held a among same

theorem Flow.outstanding (flow : Flow sub capacity v w) :
    w.lane.outstanding = v.lane.outstanding ∧ w.lane.lastTag = v.lane.lastTag := by
  have discarded : ∀ {lane : Lane} {d : Delivery}, (lane.discard sub d).outstanding = lane.outstanding ∧
      (lane.discard sub d).lastTag = lane.lastTag := by
    intro lane d
    exact ⟨congrArg Core.outstanding (Lane.discard_core sub d), congrArg Stock.lastTag (Lane.discard_stock sub d)⟩
  cases flow
  case refuse | unparkOversized | poison => exact discarded
  all_goals exact ⟨rfl, rfl⟩

theorem Unspent.flow (unspent : Unspent v) (flow : Flow sub capacity v w) (tasks : w.lane.tasks = v.lane.tasks)
    (due : ∀ tag, w.Due tag → v.Due tag) : Unspent w := by
  obtain ⟨outstanding, last⟩ := flow.outstanding
  refine unspent.keep ?_ tasks outstanding last due fun tag _ executed =>
    executed.of_desk flow.desk flow.same_finishing
  rw [View.throughs_of_desk flow.desk flow.same_finishing]
  exact unspent.increasing

theorem Unspent.discard (unspent : Unspent v) (kept : Kept sub v) (flow : Flow sub capacity v w) {d : Delivery} {before after : List Delivery}
    (queues : v.lane.buffer ++ v.parked ++ v.incoming = before ++ d :: after)
    (left : w.lane.buffer ++ w.parked ++ w.incoming = before ++ after)
    (tasks : w.lane.tasks = v.lane.tasks ++ (sub.settlePoison (some sub.identity) d.tag).toList)
    (pending : ∀ tag ∈ w.lane.ledger.pending.keys, tag ≠ d.tag ∧ (tag ∈ v.lane.ledger.pending.keys ∨
      ∃ a ∈ v.lane.buffer ++ v.parked ++ v.incoming, a.tag = tag)) : Unspent w := by
  have due : ∀ tag, w.Due tag → v.Due tag := by
    intro tag due
    refine due.of_flow flow (fun a member => ?_) fun tag member => (pending tag member).2
    rw [left] at member
    rw [queues]
    exact List.mem_append.mpr ((List.mem_append.mp member).imp_right fun later => List.mem_cons_of_mem d later)
  cases spawned : sub.settlePoison (some sub.identity) d.tag with
  | none =>
    rw [spawned, Option.toList_none, List.append_nil] at tasks
    exact unspent.flow flow tasks due
  | some frame =>
    rw [spawned] at tasks
    obtain ⟨own, single⟩ := settlePoison_frame spawned
    obtain ⟨outstanding, last⟩ := flow.outstanding
    obtain ⟨unhanded, once⟩ := kept.held_once queues
    have member : d ∈ v.lane.buffer ++ v.parked ++ v.incoming := by simp [queues]
    refine unspent.spawn single ?_ tasks outstanding last (own ▸ .held d member rfl)
      (own ▸ kept.held_unsent member) ?_ due fun tag _ executed =>
    executed.of_desk flow.desk flow.same_finishing
    · rw [View.throughs_of_desk flow.desk flow.same_finishing]
      exact unspent.increasing
    · rw [own]
      intro gone
      cases gone with
      | single inside =>
        rw [View.singles_of_desk flow.desk flow.same_finishing] at inside
        exact unhanded (kept.claimed.singles _ inside)
      | target through inside same =>
        rw [View.throughs_of_desk flow.desk flow.same_finishing] at inside
        exact unhanded (same ▸ kept.claimed.throughs through inside)
      | held a inside same =>
        rw [left] at inside
        exact once a inside same
      | pending _ inside => exact (pending _ inside).1 rfl

theorem Lane.discard_buffer {lane : Lane} (d : Delivery) : (lane.discard sub d).buffer = lane.buffer :=
  congrArg Stock.buffer (discard_stock sub d)

theorem Lane.mem_discard {lane : Lane} {d : Delivery} {tag : Nat}
    (member : tag ∈ (lane.discard sub d).ledger.pending.keys) :
    tag ∈ lane.ledger.pending.keys ∧ tag ≠ d.tag := by
  rw [ledger_of_books (discard_books sub d)] at member
  exact Table.mem_keys_erase.mp member

theorem Flow.unspent (late : sub.earlyAck = false) (flow : Flow sub capacity v w) (kept : Kept sub v)
    (unspent : Unspent v) : Unspent w := by
  have moved := flow
  cases flow
  case park d rest front _ =>
    refine unspent.flow moved rfl fun tag due => due.of_flow moved ?_ ?_
    · simp [front, Lane.receive]
    · intro tag member
      rcases Table.mem_keys_insert.mp member with rfl | older
      · exact .inr ⟨d, by simp [front], rfl⟩
      · exact .inl older
  case enroll d rest front idle _ =>
    refine unspent.flow moved rfl fun tag due => due.of_flow moved ?_ ?_
    · simp [front, idle, Lane.enroll, Lane.receive]
    · intro tag member
      rcases Table.mem_keys_insert.mp member with rfl | older
      · exact .inr ⟨d, by simp [front], rfl⟩
      · exact .inl older
  case refuse d rest front _ =>
    have queues : v.lane.buffer ++ v.parked ++ v.incoming = (v.lane.buffer ++ v.parked) ++ d :: rest := by
      rw [front]
    refine unspent.discard kept moved queues ?_ (Lane.discard_tasks d) fun tag member => ?_
    · exact congrArg (· ++ v.parked ++ rest) (Lane.discard_buffer d)
    · obtain ⟨among, other⟩ := Lane.mem_discard member
      exact ⟨other, .inl ((Table.mem_keys_insert.mp among).resolve_left other)⟩
  case unpark d rest front _ =>
    refine unspent.flow moved rfl fun tag due => due.of_flow moved ?_ fun tag => .inl
    simp [front, Lane.enroll]
  case unparkOversized d rest front _ =>
    have queues : v.lane.buffer ++ v.parked ++ v.incoming = v.lane.buffer ++ d :: (rest ++ v.incoming) := by
      rw [front, List.append_assoc]
      rfl
    refine unspent.discard kept moved queues ?_ (Lane.discard_tasks d) fun tag member => ?_
    · rw [← List.append_assoc]
      exact congrArg (· ++ rest ++ v.incoming) (Lane.discard_buffer d)
    · obtain ⟨among, other⟩ := Lane.mem_discard member
      exact ⟨other, .inl among⟩
  case poison d rest front _ _ =>
    have queues : v.lane.buffer ++ v.parked ++ v.incoming = [] ++ d :: (rest ++ v.parked ++ v.incoming) := by
      rw [front]
      rfl
    refine unspent.discard kept moved queues ?_ (Lane.discard_tasks d) fun tag member => ?_
    · exact congrArg (· ++ v.parked ++ v.incoming) (Lane.discard_buffer d)
    · obtain ⟨among, other⟩ := Lane.mem_discard member
      exact ⟨other, .inl among⟩
  case earlyAck early _ _ | handEarly early _ => cases late.symm.trans early
  case tokenize d rest front _ _ =>
    refine unspent.flow moved rfl fun tag due => due.of_flow moved (fun a member => member) ?_
    exact fun tag member => .inl (Lane.tokenize_keys ▸ member)
  case hand d rest front _ _ =>
    refine unspent.flow moved rfl fun tag due => due.of_flow moved (fun a member => ?_) ?_
    · rw [front]
      exact List.mem_cons_of_mem d member
    · exact fun tag member => .inl (Lane.tokenize_keys ▸ member)

/-! ### Quiet moves -/

theorem Stages.increasing (stages : Stages v w) (unspent : Unspent v) :
    (w.throughs.map (·.target)).Pairwise (· < ·) := by
  cases stages with
  | fewer _ throughs _ _ => exact unspent.increasing.sublist (throughs.map _)
  | ack _ _ _ _ throughs _ _ _ => exact throughs ▸ unspent.increasing
  | flush _ _ _ throughs _ =>
    rw [throughs]
    cases v.lane.flushThrough with
    | none => exact .nil
    | some through => exact List.pairwise_singleton _ _

theorem View.Due.of_quiet {tag : Nat} (stages : Stages v w) (same : Unstirred v w) (writes : Writes v w)
    (winding : w.winding = false → v.winding = false) (due : w.Due tag) : v.Due tag := by
  have buffer : w.lane.buffer = v.lane.buffer := congrArg Stock.buffer same.stock
  cases due with
  | held d member own =>
    rw [buffer, same.parked, same.incoming] at member
    exact .held d member own
  | pending live member => exact .pending (winding live) (writes.pending tag member)
  | single member =>
    cases stages with
    | fewer singles _ _ _ => exact .single (singles.subset member)
    | ack _ _ _ singles _ _ _ _ => exact .single (singles ▸ member)
    | flush ready _ singles _ _ =>
      rw [singles] at member
      exact .pending ready.2 (Lane.mem_stragglers member).2.1
  | target through member own =>
    cases stages with
    | fewer _ throughs _ _ => exact .target through (throughs.subset member) own
    | ack _ _ _ _ throughs _ _ _ => exact .target through (throughs ▸ member) own
    | flush ready _ _ throughs _ =>
      rw [throughs, Option.mem_toList, Lane.flushThrough_eq_some] at member
      exact .pending ready.2 (own ▸ (Lane.mem_ackedRun (List.mem_of_getLast? member.1)).2.1)

namespace View.Executed

variable {tag index : Nat}

theorem of_single {future : SettlementFuture} (executed : v.Executed tag) (solo : Solo v)
    (found : v.lane.pendingSettlements[index]? = some future) :
    future.tag = tag ∧ ∃ result, future.progress = .finished result ∧ answeredBy result = true := by
  obtain ⟨-, -, one, nothing⟩ := solo.flown.of_single found
  have unfinished := solo.unfinished found
  cases executed with
  | single other result member finished answered same =>
    rw [one, List.mem_singleton] at member
    subst member
    exact ⟨same, result, finished, answered⟩
  | through other member _ _ =>
    rw [nothing] at member
    cases member
  | ending _ under _ | endingThrough _ _ under _ => cases unfinished.symm.trans under

theorem of_through {future : ThroughFuture} (executed : v.Executed tag) (solo : Solo v)
    (found : v.lane.pendingSettleThroughs[index]? = some future) :
    future.result ≠ none ∧ tag ≤ future.through.target := by
  obtain ⟨-, -, none, one⟩ := solo.flown.of_through found
  have unfinished := solo.unfinishedThrough found
  cases executed with
  | single _ _ member _ _ _ =>
    rw [none] at member
    cases member
  | through other member answered upTo =>
    rw [one, List.mem_singleton] at member
    subst member
    exact ⟨answered, upTo⟩
  | ending _ under _ | endingThrough _ _ under _ => cases unfinished.symm.trans under

theorem of_finishing {finishing : Finishing} (executed : v.Executed tag) (solo : Solo v)
    (under : v.finishing = some finishing) :
    (∃ result, finishing = .settlement tag result ∧ answeredBy result = true) ∨
      ∃ through result, finishing = .through through result ∧ tag ≤ through.target := by
  have free := solo.vacated (by simp [under])
  obtain ⟨none, nothing⟩ := solo.flown.idle free
  cases executed with
  | single _ _ member _ _ _ =>
    rw [none] at member
    cases member
  | through _ member _ _ =>
    rw [nothing] at member
    cases member
  | ending result here answered =>
    cases under.symm.trans here
    exact .inl ⟨result, rfl, answered⟩
  | endingThrough through result here upTo =>
    cases under.symm.trans here
    exact .inr ⟨through, result, rfl, upTo⟩

end View.Executed

section Completions

variable {tag : Nat} {through : Through}

theorem Disciplined.not_due (disciplined : Disciplined v) (kept : Kept sub v)
    (departs : Departs (some tag) none v w) (same : Unstirred v w)
    (erased : w.winding = false → tag ∉ w.lane.ledger.pending.keys) : ¬ w.Due tag := by
  have staged : tag ∈ v.singles := departs.singles ▸ List.mem_cons_self
  have buffer : w.lane.buffer = v.lane.buffer := congrArg Stock.buffer same.stock
  intro due
  cases due with
  | single member => exact departs.gone disciplined.nodup member
  | target through member own => exact disciplined.apart through (departs.throughs ▸ member) (own ▸ staged)
  | held d member own =>
    rw [buffer, same.parked, same.incoming] at member
    have less := kept.sequenced.handed_lt (kept.claimed.singles tag staged) member
    omega
  | pending live member => exact erased live member

theorem Unspent.not_due (unspent : Unspent v) (kept : Kept sub v) (disciplined : Disciplined v)
    (departs : Departs none (some through) v w) (underway : through ∈ v.underway) (same : Unstirred v w)
    (erased : w.winding = false → ∀ tag ∈ w.lane.ledger.pending.keys, through.target < tag)
    (upTo : tag ≤ through.target) : ¬ w.Due tag := by
  have staged : through ∈ v.throughs := View.underway_mem underway
  have buffer : w.lane.buffer = v.lane.buffer := congrArg Stock.buffer same.stock
  intro due
  cases due with
  | single member =>
    have less := disciplined.front through underway tag (departs.singles ▸ member)
    omega
  | target other member own =>
    have ordered := unspent.increasing
    rw [departs.throughs] at ordered
    have less : through.target < other.target :=
      (List.pairwise_cons.mp ordered).1 other.target (List.mem_map_of_mem member)
    omega
  | held d member own =>
    rw [buffer, same.parked, same.incoming] at member
    have less := kept.sequenced.handed_lt (kept.claimed.throughs through staged) member
    omega
  | pending live member =>
    have less := erased live tag member
    omega

end Completions

theorem Solo.unsent_of_idle {tag : Nat} (solo : Solo v) (ready : v.Ready) (free : v.lane.inFlight = false) :
    ¬ v.Executed tag := by
  obtain ⟨none, nothing⟩ := solo.flown.idle free
  intro executed
  cases executed with
  | single _ _ member _ _ _ =>
    rw [none] at member
    cases member
  | through _ member _ _ =>
    rw [nothing] at member
    cases member
  | ending _ under _ | endingThrough _ _ under _ => cases ready.1.symm.trans under

theorem Unspent.deliver {d : Delivery} (unspent : Unspent v) (acked : sub.noAck = false)
    (next : d.tag = v.lane.lastTag + 1) :
    Unspent { v with
      incoming := v.incoming ++ [d]
      lane := { v.lane with
        lastTag := d.tag
        outstanding := if sub.noAck then v.lane.outstanding else v.lane.outstanding ++ [d.tag] } } := by
  rw [if_neg (by simp [acked])]
  have longer : ∀ tag ∈ v.lane.outstanding, tag ∈ v.lane.outstanding ++ [d.tag] :=
    fun tag member => List.mem_append_left _ member
  refine ⟨unspent.increasing, ?_, unspent.single, unspent.nodup, ?_, ?_⟩
  · intro tag member
    rcases List.mem_append.mp member with older | newest
    · have bound := unspent.bounded tag older
      dsimp only
      omega
    · exact le_of_eq (List.mem_singleton.mp newest)
  · exact fun frame member => longer _ (unspent.tasks frame member)
  · intro tag due
    have before : v.Due tag ∨ tag = d.tag := by
      cases due with
      | single member => exact .inl (.single member)
      | target through member own => exact .inl (.target through member own)
      | held a member own =>
        dsimp only at member
        rw [← List.append_assoc] at member
        rcases List.mem_append.mp member with older | newest
        · exact .inl (.held a older own)
        · exact .inr (List.mem_singleton.mp newest ▸ own.symm)
      | pending live member => exact .inl (.pending live member)
    rcases before with was | rfl
    · obtain ⟨free, held⟩ := unspent.due tag was
      exact ⟨free, held.imp (longer tag) fun executed =>
        executed.mono (List.Subset.refl _) (List.Subset.refl _) rfl⟩
    · refine ⟨fun spawned => ?_, .inl (List.mem_append_right _ List.mem_cons_self)⟩
      obtain ⟨frame, member, own⟩ := List.mem_map.mp spawned
      have bound := unspent.bounded _ (unspent.tasks frame member)
      omega

theorem Quiet.unspent (late : sub.earlyAck = false) (acked : sub.noAck = false) (move : Quiet sub capacity v w)
    (kept : Kept sub v) (answered : Answered v) (disciplined : Disciplined v) (unspent : Unspent v) :
    Unspent w := by
  have stages := move.stages kept.solo
  have increasing := stages.increasing unspent
  have winding := move.winding_mono
  have written := move.writes kept.booked kept.sequenced kept.solo kept.claimed
  rcases move.stirs with flow | ⟨d, sends⟩ | same
  · exact flow.unspent late kept unspent
  · cases move
    case flow flow => exact flow.unspent late kept unspent
    case deliver next => exact unspent.deliver acked next
    all_goals exact absurd sends.incoming (by simp)
  rcases written with flow | writes
  · exact flow.unspent late kept unspent
  have due := fun tag => @View.Due.of_quiet _ _ tag stages same writes winding
  have last : w.lane.lastTag = v.lane.lastTag := congrArg Stock.lastTag same.stock
  cases move
  case flow flow => exact flow.unspent late kept unspent
  case deliver => exact absurd same.incoming (by simp)
  case acceptAck =>
    refine unspent.keep increasing rfl rfl last due fun tag _ executed => ?_
    exact executed.mono (List.Subset.refl _) (List.Subset.refl _) rfl
  case flush ready =>
    refine unspent.keep increasing (Lane.tasks_of_offDesk Lane.flushAcked_offDesk)
      (congrArg Core.outstanding Lane.flushAcked_core) last due fun tag _ executed => ?_
    obtain ⟨-, -, same | ⟨free, -⟩⟩ := Lane.flushAcked_desk kept.solo.flown (kept.solo.still ready.1)
    · exact executed.of_desk same rfl
    · exact absurd executed (kept.solo.unsent_of_idle ready free)
  case progress found releases =>
    refine unspent.keep increasing rfl rfl last due fun tag _ executed => ?_
    obtain ⟨-, result, finished, -⟩ := executed.of_single kept.solo found
    cases releases with
    | publish started | unpublished _ started => cases finished.symm.trans started
    | unconfirmed _ publishing => cases finished.symm.trans publishing
  case confirm found publishing =>
    refine unspent.keep increasing rfl rfl last due fun tag _ executed => ?_
    obtain ⟨-, result, finished, -⟩ := executed.of_single kept.solo found
    cases finished.symm.trans publishing
  case beginSettlement index future result _ _ found finished =>
    refine unspent.keep increasing Lane.beginSettlement_tasks Lane.beginSettlement_outstanding last due
      fun tag _ executed => ?_
    obtain ⟨rfl, other, ended, sent⟩ := executed.of_single kept.solo found
    cases finished.symm.trans ended
    exact .ending result rfl sent
  case beginThrough index future result _ _ found finished =>
    refine unspent.keep increasing Lane.beginThrough_tasks Lane.beginThrough_outstanding last due
      fun tag _ executed => ?_
    obtain ⟨-, upTo⟩ := executed.of_through kept.solo found
    exact .endingThrough future.through result rfl upTo
  case endSettlement tag result under =>
    have departs := @Solo.ended sub v kept.solo tag result under
    have gone : State.isTerminal result = true →
        ¬ View.Due { v with lane := v.lane.endSettlement sub tag result, finishing := none } tag := by
      intro terminal
      refine disciplined.not_due kept departs same fun _ member => ?_
      rw [Lane.ledger_of_books ((Lane.endSettlement_books _ _ _).trans (if_pos terminal))] at member
      exact (Table.mem_keys_erase.mp member).2 rfl
    have executed : ∀ other, View.Due { v with lane := v.lane.endSettlement sub tag result, finishing := none } other →
        ¬ v.Executed other := by
      intro other again executed
      rcases executed.of_finishing kept.solo under with ⟨_, own, sent⟩ | ⟨_, _, own, -⟩
      · cases own
        exact gone (isTerminal_of_answeredBy sent) again
      · cases own
    have tasks := @Lane.endSettlement_tasks sub v.lane tag result
    cases spawned : concludes sub tag result with
    | none =>
      rw [spawned, Option.toList_none, List.append_nil] at tasks
      exact unspent.keep increasing tasks Lane.endSettlement_outstanding last due
        fun other again sent => absurd sent (executed other again)
    | some frame =>
      rw [spawned] at tasks
      obtain ⟨rfl, single⟩ := concludes_frame spawned
      refine unspent.spawn single increasing tasks Lane.endSettlement_outstanding last
        (.single (departs.singles ▸ List.mem_cons_self)) (fun sent => ?_) (gone (isTerminal_of_concludes spawned)) due
        fun other again sent => absurd sent (executed other again)
      rcases sent.of_finishing kept.solo under with ⟨_, own, sent⟩ | ⟨_, _, own, -⟩
      · cases own
        cases (concludes_of_answeredBy sent).symm.trans spawned
      · cases own
  case endThrough through result under =>
    have underway := View.underway_finishing under
    refine unspent.keep increasing Lane.endThrough_tasks Lane.endThrough_outstanding last due
      fun tag again executed => ?_
    rcases executed.of_finishing kept.solo under with ⟨_, own, -⟩ | ⟨_, _, own, upTo⟩
    · cases own
    · cases own
      refine absurd again
        (unspent.not_due kept disciplined (kept.solo.endedThrough under) underway same (fun _ tag member => ?_) upTo)
      have terminal := answered.terminal under
      have staged := View.underway_mem underway
      rw [Lane.ledger_of_books ((Lane.endThrough_books _ _).trans (if_pos terminal))] at member
      obtain ⟨pending, outside⟩ := (kept.booked.balanced.mem_settleThrough staged).mp member
      exact not_le.mp fun reach => outside ((kept.booked.balanced.covers through staged).all tag pending reach)
  case closeSettlement index future result closing found finished =>
    refine unspent.keep increasing Lane.drainSettlementQueue_tasks
      (congrArg Core.outstanding Lane.drainSettlementQueue_core) last due fun tag again executed => ?_
    obtain ⟨rfl, -⟩ := executed.of_single kept.solo found
    refine absurd again (disciplined.not_due kept (kept.solo.closed found) same fun live => ?_)
    cases live.symm.trans closing
  case closeThrough index future result closing found _ =>
    refine unspent.keep increasing Lane.closeThrough_tasks
      (congrArg Core.outstanding (Lane.closeThrough_core index future.through result)) last due
      fun tag again executed => ?_
    obtain ⟨-, upTo⟩ := executed.of_through kept.solo found
    have underway := kept.solo.underway_found found
    refine absurd again
      (unspent.not_due kept disciplined (kept.solo.closedThrough found) underway same (fun live => ?_) upTo)
    cases live.symm.trans closing
  case dropFutures closing =>
    refine unspent.keep increasing rfl rfl last due fun tag again executed => ?_
    cases executed with
    | single future result member finished sent own =>
      obtain ⟨index, found⟩ := List.getElem?_of_mem member
      subst own
      refine absurd again (disciplined.not_due kept (kept.solo.dropped found) same fun live => ?_)
      cases live.symm.trans closing
    | through future member sent upTo =>
      obtain ⟨index, found⟩ := List.getElem?_of_mem member
      have underway := kept.solo.underway_found found
      refine absurd again
        (unspent.not_due kept disciplined (kept.solo.droppedThrough found) underway same (fun live => ?_) upTo)
      cases live.symm.trans closing
    | ending result under sent => exact .ending result under sent
    | endingThrough through result under upTo => exact .endingThrough through result under upTo
  all_goals
    refine unspent.keep increasing rfl rfl last due fun tag _ executed => ?_
    exact executed.of_desk rfl rfl

/-! ### Marked moves -/

/-- What is taken up or sent with care: a decision about a tag that is pending and not staged already,
and a cumulative acknowledgement that reaches no tag a task is to settle. -/
def Lane.Careful (lane : Lane) : Mark → Prop
  | .settle tag _ => lane.Free tag
  | .through whole => ∀ through ∈ lane.throughs, whole.target ∉ through.affected
  | .frame (.ack target true) _ => ∀ frame ∈ lane.tasks, target < frame.tag
  | .frame _ _ => True

theorem Lane.Careful.considerate {lane : Lane} {mark : Mark} (careful : lane.Careful mark) :
    lane.Considerate mark := by
  cases mark with
  | settle tag settlement => exact careful
  | through whole | frame frame reached => trivial

theorem SettlementFuture.frame_spec {future : SettlementFuture} {frame : Frame} (sends : future.frame = some frame) :
    frame.tag = future.tag ∧ frame.single = true ∧ ∀ result, future.progress ≠ .finished result := by
  unfold SettlementFuture.frame at sends
  split at sends
  · rename_i started _
    cases sends
    exact ⟨rfl, rfl, fun result finished => by cases started.symm.trans finished⟩
  · rename_i started _
    cases sends
    exact ⟨rfl, rfl, fun result finished => by cases started.symm.trans finished⟩
  · rename_i started _
    split at sends
    · cases sends
      exact ⟨rfl, rfl, fun result finished => by cases started.symm.trans finished⟩
    · cases sends
  · rename_i confirmed
    cases sends
    exact ⟨rfl, rfl, fun result finished => by cases confirmed.symm.trans finished⟩
  · cases sends

section Frames

variable {future : SettlementFuture} {whole : ThroughFuture} {frame : Frame} {index tag : Nat}

theorem Solo.unsent (solo : Solo v) (found : v.lane.pendingSettlements[index]? = some future)
    (sends : future.frame = some frame) : ¬ v.Executed tag := by
  intro executed
  obtain ⟨-, result, finished, -⟩ := executed.of_single solo found
  exact (SettlementFuture.frame_spec sends).2.2 result finished

theorem Solo.unsentThrough (solo : Solo v) (found : v.lane.pendingSettleThroughs[index]? = some whole)
    (waiting : whole.result = none) : ¬ v.Executed tag := by
  intro executed
  exact (executed.of_through solo found).1 waiting

theorem Lane.mem_deduct {lane : Lane} {reached : Bool} (member : tag ∈ lane.outstanding)
    (spared : frame.covers tag = false) : tag ∈ lane.deduct frame reached := by
  unfold deduct
  split
  · exact List.mem_filter.mpr ⟨member, by simp [spared]⟩
  · exact member

theorem Lane.of_mem_deduct {lane : Lane} {reached : Bool} (member : tag ∈ lane.deduct frame reached) :
    tag ∈ lane.outstanding := by
  unfold deduct at member
  split at member
  · exact (List.mem_filter.mp member).1
  · exact member

theorem Unspent.send (unspent : Unspent v) {reached : Bool}
    (increasing : (w.throughs.map (·.target)).Pairwise (· < ·)) (tasks : w.lane.tasks = v.lane.tasks)
    (outstanding : w.lane.outstanding = v.lane.deduct frame reached) (last : w.lane.lastTag = v.lane.lastTag)
    (spared : ∀ task ∈ v.lane.tasks, frame.covers task.tag = false) (due : ∀ tag, w.Due tag → v.Due tag)
    (unsent : ∀ tag, ¬ v.Executed tag) (executed : ∀ tag, frame.covers tag = true → w.Executed tag) :
    Unspent w where
  increasing := increasing
  bounded tag member := by
    rw [outstanding] at member
    rw [last]
    exact unspent.bounded tag (Lane.of_mem_deduct member)
  single := tasks ▸ unspent.single
  nodup := tasks ▸ unspent.nodup
  tasks task member := by
    rw [tasks] at member
    rw [outstanding]
    exact Lane.mem_deduct (unspent.tasks task member) (spared task member)
  due tag again := by
    obtain ⟨free, held⟩ := unspent.due tag (due tag again)
    rw [tasks, outstanding]
    refine ⟨free, ?_⟩
    cases covered : frame.covers tag with
    | true => exact .inr (executed tag covered)
    | false => exact .inl (Lane.mem_deduct (held.resolve_right (unsent tag)) covered)

theorem eraseIdx_apart {Value Key : Type*} {values : List Value} {key : Value → Key} {value other : Value}
    (nodup : (values.map key).Nodup) (found : values[index]? = some value)
    (member : other ∈ values.eraseIdx index) : key other ≠ key value := by
  obtain ⟨inside, rfl⟩ := List.getElem?_eq_some_iff.mp found
  have perm := (List.getElem_cons_eraseIdx_perm inside).map key
  have split := perm.nodup_iff.mpr nodup
  rw [List.map_cons, List.nodup_cons] at split
  exact fun same => split.1 (same ▸ List.mem_map_of_mem member)

theorem Unspent.task (unspent : Unspent v) {reached : Bool} (found : v.lane.tasks[index]? = some frame)
    (increasing : (w.throughs.map (·.target)).Pairwise (· < ·)) (tasks : w.lane.tasks = v.lane.tasks.eraseIdx index)
    (outstanding : w.lane.outstanding = v.lane.deduct frame reached) (last : w.lane.lastTag = v.lane.lastTag)
    (due : ∀ tag, w.Due tag → v.Due tag) (executed : ∀ tag, v.Executed tag → w.Executed tag) : Unspent w := by
  have sublist := List.eraseIdx_sublist v.lane.tasks index
  have member := List.mem_of_getElem? found
  have spared : ∀ tag, tag ≠ frame.tag → frame.covers tag = false := by
    intro tag other
    rw [← Bool.not_eq_true, Frame.covers_of_single (unspent.single frame member)]
    exact other
  refine ⟨increasing, ?_, ?_, ?_, ?_, ?_⟩
  · rw [outstanding, last]
    exact fun tag among => unspent.bounded tag (Lane.of_mem_deduct among)
  · rw [tasks]
    exact fun task among => unspent.single task (sublist.subset among)
  · rw [tasks]
    exact unspent.nodup.sublist (sublist.map _)
  · rw [tasks, outstanding]
    intro task among
    exact Lane.mem_deduct (unspent.tasks task (sublist.subset among))
      (spared _ (eraseIdx_apart unspent.nodup found among))
  · intro tag again
    obtain ⟨free, held⟩ := unspent.due tag (due tag again)
    rw [tasks, outstanding]
    refine ⟨fun inside => free ((sublist.map _).subset inside), held.imp (fun here => ?_) (executed tag)⟩
    exact Lane.mem_deduct here (spared tag fun same => free (same ▸ List.mem_map_of_mem member))

end Frames

theorem Marked.pending {mark : Mark} (move : Marked v mark w) (careful : v.lane.Considerate mark) :
    (∀ tag ∈ mark.single?, v.winding = false ∧ tag ∈ v.lane.ledger.pending.keys) ∧
      ∀ through ∈ mark.through?, v.winding = false ∧ through.target ∈ v.lane.ledger.pending.keys := by
  cases move
  case settle ready _ _ _ =>
    refine ⟨fun tag own => ?_, nofun⟩
    cases own
    exact ⟨ready.2, careful.1⟩
  case through ready _ _ _ above valid _ =>
    refine ⟨nofun, fun through own => ?_⟩
    cases own
    obtain ⟨members, last⟩ := Lane.validatePrefix_ok valid
    exact ⟨ready.2, ((members _).mp (last above)).1⟩
  all_goals exact ⟨nofun, nofun⟩

theorem View.Due.of_marked {mark : Mark} {tag : Nat} (move : Marked v mark w) (solo : Solo v)
    (careful : v.lane.Considerate mark) (due : w.Due tag) : v.Due tag := by
  obtain ⟨singles, throughs, -⟩ := move.stages solo
  obtain ⟨single, whole⟩ := move.pending careful
  have same := move.unstirred
  have buffer : w.lane.buffer = v.lane.buffer := congrArg Stock.buffer same.stock
  cases due with
  | single member =>
    rw [singles] at member
    rcases List.mem_append.mp member with older | newest
    · exact .single older
    · obtain ⟨live, pending⟩ := single tag (Option.mem_toList.mp newest)
      exact .pending live pending
  | target through member own =>
    rw [throughs] at member
    rcases List.mem_append.mp member with older | newest
    · exact .target through older own
    · obtain ⟨live, pending⟩ := whole through (Option.mem_toList.mp newest)
      exact .pending live (own ▸ pending)
  | held d member own =>
    rw [buffer, same.parked, same.incoming] at member
    exact .held d member own
  | pending live member =>
    exact .pending (move.same_winding ▸ live) (Lane.ledger_of_books move.books ▸ member)

theorem Lane.acceptSettlement_grows {lane : Lane} {tag : Nat} {settlement : Settlement} :
    lane.pendingSettlements ⊆ (lane.acceptSettlement tag settlement).pendingSettlements ∧
      lane.pendingSettleThroughs ⊆ (lane.acceptSettlement tag settlement).pendingSettleThroughs := by
  have desk := @takenUp_desk lane tag settlement
  have singles : (lane.takenUp tag settlement).pendingSettlements = lane.pendingSettlements :=
    congrArg Desk.pendingSettlements desk
  rw [acceptSettlement_eq, ← singles, ← futures_of_desk desk]
  unfold enqueueSettlement
  split
  · exact ⟨List.Subset.refl _, List.Subset.refl _⟩
  · exact ⟨List.subset_append_left _ _, List.Subset.refl _⟩

theorem Lane.acceptThrough_grows {lane : Lane} {through : Through} :
    lane.pendingSettlements ⊆ (lane.acceptThrough through).pendingSettlements ∧
      lane.pendingSettleThroughs ⊆ (lane.acceptThrough through).pendingSettleThroughs := by
  have desk := @takenUpThrough_desk lane through
  have singles : (lane.takenUpThrough through).pendingSettlements = lane.pendingSettlements :=
    congrArg Desk.pendingSettlements desk
  rw [acceptThrough_staged, ← singles, ← futures_of_desk desk]
  unfold enqueueSettleThrough
  split
  · exact ⟨List.Subset.refl _, List.Subset.refl _⟩
  · exact ⟨List.Subset.refl _, List.subset_append_left _ _⟩

theorem Frame.covers_through {target tag : Nat} : (Frame.ack target true).covers tag = true ↔ tag ≤ target := by
  simp [Frame.covers]

theorem Marked.unspent {mark : Mark} (move : Marked v mark w) (careful : v.lane.Careful mark) (kept : Kept sub v)
    (unspent : Unspent v) : Unspent w := by
  have due := fun tag => @View.Due.of_marked _ _ _ tag move kept.solo careful.considerate
  have last : w.lane.lastTag = v.lane.lastTag := congrArg Stock.lastTag move.unstirred.stock
  obtain ⟨-, throughs, -⟩ := move.stages kept.solo
  have pending := (move.pending careful.considerate).2
  cases move
  case settle tag settlement rest _ _ _ _ =>
    rw [show (Mark.settle tag settlement).through? = none from rfl, Option.toList_none, List.append_nil] at throughs
    refine unspent.keep (throughs ▸ unspent.increasing) Lane.acceptSettlement_tasks
      (congrArg Core.outstanding (Lane.acceptSettlement_core tag settlement)) last due fun other _ executed => ?_
    exact executed.mono Lane.acceptSettlement_grows.1 Lane.acceptSettlement_grows.2 rfl
  case through whole rest ready _ _ _ _ _ _ =>
    have staged : v.throughs = v.lane.throughs := by
      rw [View.throughs, ready.1]
      rfl
    refine unspent.keep ?_ Lane.acceptThrough_tasks
      (congrArg Core.outstanding (Lane.acceptThrough_core whole)) last due fun other _ executed => ?_
    · rw [throughs, List.map_append]
      refine List.pairwise_append.mpr ⟨unspent.increasing, List.pairwise_singleton _ _, ?_⟩
      intro target member other own
      obtain rfl : other = whole.target := by simpa [Mark.through?] using own
      obtain ⟨through, among, rfl⟩ := List.mem_map.mp member
      have covers := kept.booked.balanced.covers through among
      exact not_le.mp fun upTo => careful through (staged ▸ among) (covers.all _ (pending whole rfl).2 upTo)
    · exact executed.mono Lane.acceptThrough_grows.1 Lane.acceptThrough_grows.2 rfl
  case perform index future frame answer found sends =>
    obtain ⟨own, single, -⟩ := SettlementFuture.frame_spec sends
    have same : v.throughs = View.throughs { v with
        lane := (v.lane.transmit frame (reached answer)).setProgress index future
          (.finished (answerState frame.outcome answer)) } := by
      rw [throughs]
      exact (List.append_nil _).symm
    have staged : future.tag ∈ v.singles :=
      List.mem_append_right _ (List.mem_append_left _ (List.mem_map_of_mem (List.mem_of_getElem? found)))
    have futures : (v.lane.transmit frame (reached answer)).pendingSettlements = v.lane.pendingSettlements :=
      congrArg Desk.pendingSettlements (Lane.transmit_desk _ _)
    refine unspent.send (same ▸ unspent.increasing) (Lane.transmit_tasks _ _)
      (congrArg Core.outstanding (Lane.transmit_core frame (reached answer))) last ?_ due
      (fun tag => kept.solo.unsent found sends) fun tag covered => ?_
    · intro task member
      rw [← Bool.not_eq_true, Frame.covers_of_single single, own]
      exact fun equal => (unspent.due _ (.single staged)).1 (equal ▸ List.mem_map_of_mem member)
    · rw [Frame.covers_of_single single, own] at covered
      obtain ⟨inside, -⟩ := List.getElem?_eq_some_iff.mp found
      refine .single { future with progress := .finished (answerState frame.outcome answer) } _ ?_ rfl
        (answeredBy_answerState _ _) covered.symm
      rw [Lane.setProgress, futures]
      exact List.mem_set inside _
  case performThrough index future answer found waiting =>
    have same : v.throughs = View.throughs { v with
        lane := (v.lane.transmit (.ack future.through.target true) (reached answer)).setResult index future
          (answerState .acked answer) } := by
      rw [throughs]
      exact (List.append_nil _).symm
    have futures : (v.lane.transmit (.ack future.through.target true) (reached answer)).pendingSettleThroughs =
        v.lane.pendingSettleThroughs := Lane.futures_of_desk (Lane.transmit_desk _ _)
    refine unspent.send (same ▸ unspent.increasing) (Lane.transmit_tasks _ _)
      (congrArg Core.outstanding (Lane.transmit_core _ (reached answer))) last ?_ due
      (fun tag => kept.solo.unsentThrough found waiting) fun tag covered => ?_
    · intro task member
      rw [← Bool.not_eq_true, Frame.covers_through, not_le]
      exact careful task member
    · obtain ⟨inside, -⟩ := List.getElem?_eq_some_iff.mp found
      refine .through { future with result := some (answerState .acked answer) } ?_ (by simp)
        (Frame.covers_through.mp covered)
      rw [Lane.setResult, futures]
      exact List.mem_set inside _
  case task index frame answer found =>
    have same : v.throughs = View.throughs { v with
        lane := { v.lane.transmit frame (reached answer) with tasks := v.lane.tasks.eraseIdx index } } := by
      rw [throughs]
      exact (List.append_nil _).symm
    refine unspent.task found (same ▸ unspent.increasing) rfl
      (congrArg Core.outstanding (Lane.transmit_core frame (reached answer))) last due fun tag executed => ?_
    exact executed.of_desk (Lane.transmit_desk _ _) rfl

theorem Marked.outstanding {frame : Frame} {reached : Bool} (move : Marked v (.frame frame reached) w)
    (kept : Kept sub v) (unspent : Unspent v) : frame.tag ∈ v.lane.outstanding := by
  cases move
  case perform index future answer found sends =>
    have staged : future.tag ∈ v.singles :=
      List.mem_append_right _ (List.mem_append_left _ (List.mem_map_of_mem (List.mem_of_getElem? found)))
    rw [(SettlementFuture.frame_spec sends).1]
    exact (unspent.due _ (.single staged)).2.resolve_right (kept.solo.unsent found sends)
  case performThrough index future answer found waiting =>
    have staged : future.through ∈ v.throughs :=
      List.mem_append_right _ (List.mem_append_left _ (List.mem_map_of_mem (List.mem_of_getElem? found)))
    exact (unspent.due _ (.target future.through staged rfl)).2.resolve_right
      (kept.solo.unsentThrough found waiting)
  case task index answer found => exact unspent.tasks frame (List.mem_of_getElem? found)

end RabbitRs.Consumer
