import RabbitRs.Consumer.Outstanding

/-!
What was decided for the tags of a channel: every settlement that is staged or spawned carries out a
decision of the embedder or of the poison policy.
-/

namespace RabbitRs.Consumer

open StepMachine
open Ordered (Table)

variable {sub : Subscription} {capacity : Nat} {v w : View}

namespace Lane

variable (lane : Lane)

/-- The actor decided how this delivery ends. -/
def Chose (tag : Nat) : Prop := tag ∈ lane.ackChosen ∨ tag ∈ lane.rejectChosen

/-- The frame carries out a decision. -/
def Chosen : Frame → Prop
  | .ack tag _ => tag ∈ lane.ackChosen
  | .reject tag _ => tag ∈ lane.rejectChosen

def staged : List SettlementFuture :=
  lane.pendingSettlements ++ lane.settlementQueue.map fun params => { tag := params.1, settlement := params.2 }

variable {lane} {other : Lane} {tag index : Nat} {result : Outcome} {through : Through}

theorem Chosen.chose {frame : Frame} (chosen : lane.Chosen frame) : lane.Chose frame.tag := by
  cases frame with
  | ack => exact .inl chosen
  | reject => exact .inr chosen

theorem choices_of_offDesk (same : lane.offDesk = other.offDesk) : lane.choices = other.choices := by
  have parts := congrArg choices same
  exact parts

theorem choices_of_offTokens (same : lane.offTokens = other.offTokens) : lane.choices = other.choices := by
  have parts := congrArg choices same
  exact parts

theorem choices_of_offBytes (same : lane.offBytes = other.offBytes) : lane.choices = other.choices := by
  have parts := congrArg choices same
  exact parts

theorem discard_arrived (d : Delivery) : (lane.discard sub d).arrived = lane.arrived :=
  congrArg Stock.arrived (discard_stock sub d)

theorem discard_choices (d : Delivery) : (lane.discard sub d).choices =
    ((sub.settlePoison (some sub.identity) d.tag).elim lane lane.spawn).choices := by
  unfold discard settlePoison
  cases sub.settlePoison (some sub.identity) d.tag with
  | none => rfl
  | some frame => cases frame <;> rfl

theorem conclude_choices : (lane.conclude sub tag result).choices =
    ((concludes sub tag result).elim lane lane.spawn).choices := by
  cases result with
  | ok terminal => rfl
  | error error =>
    obtain ⟨kind, message, source⟩ := error
    cases kind
    case maxAttempts | invalidDelay => cases sub.hasDeadLetter <;> rfl
    all_goals rfl

theorem endSettlement_choices : (lane.endSettlement sub tag result).choices =
    ((concludes sub tag result).elim lane lane.spawn).choices := by
  rw [endSettlement_eq, choices_of_offDesk drainSettlementQueue_offDesk, concluded, conclude_choices]
  have same : ((if State.isTerminal result then lane.settle tag else lane).setSettling tag false).choices =
      lane.choices := by
    split <;> rfl
  cases concludes sub tag result with
  | none => exact same
  | some frame =>
    cases frame <;> split <;> rfl

theorem endThrough_choices : (lane.endThrough through result).choices = lane.choices := by
  rw [endThrough_eq, choices_of_offDesk drainSettlementQueue_offDesk, concludedThrough,
    choices_of_offTokens (markAffected_offTokens _ _)]
  split <;> rfl

theorem closeThrough_choices : (lane.closeThrough index through result).choices = lane.choices := by
  rw [closeThrough_eq, choices_of_offDesk drainSettlementQueue_offDesk]
  have marked := @markAffected_offTokens (lane.retireSettleThrough index) through.affected (closeState result)
  exact (choices_of_offTokens marked).trans rfl

theorem closeSettlement_choices : (lane.closeSettlement index tag result).choices = lane.choices := by
  rw [closeSettlement_eq, choices_of_offDesk drainSettlementQueue_offDesk]
  rfl

theorem beginSettlement_choices : (lane.beginSettlement index tag result).choices = lane.choices := by
  unfold beginSettlement
  dsimp only
  split <;> rfl

theorem beginThrough_choices : (lane.beginThrough index through result).choices = lane.choices := by
  unfold beginThrough
  dsimp only
  split
  · exact (choices_of_offBytes (releaseAffected_offBytes through.affected)).trans rfl
  · rfl

end Lane

/-- What a silent move decides: nothing, a poison settlement, or one ack. -/
inductive Decides (v w : View) : Prop where
  | nothing : w.lane.choices = v.lane.choices → Decides v w
  | spawns {frame : Frame} : frame.single = true → frame.tag ∈ w.lane.arrived.map (·.tag) →
      w.lane.choices = (v.lane.spawn frame).choices → Decides v w
  | acks {tag : Nat} : w.lane.choices = (v.lane.chooseAck [tag]).choices → Decides v w

theorem Decides.of_option {frame : Option Frame} (choices : w.lane.choices = (frame.elim v.lane v.lane.spawn).choices)
    (spawned : ∀ one ∈ frame, one.single = true ∧ one.tag ∈ w.lane.arrived.map (·.tag)) : Decides v w := by
  cases frame with
  | none => exact .nothing choices
  | some one => exact .spawns (spawned one rfl).1 (spawned one rfl).2 choices

theorem Decides.discard (lane : Lane) (d : Delivery) (here : w.lane = lane.discard sub d)
    (choices : lane.choices = v.lane.choices) (received : d ∈ lane.arrived) : Decides v w := by
  have arrived : w.lane.arrived = lane.arrived := by
    rw [here]
    exact Lane.discard_arrived d
  have spawned := @Lane.discard_choices sub lane d
  refine @Decides.of_option v w (sub.settlePoison (some sub.identity) d.tag) ?_ fun frame settles => ?_
  · rw [here, spawned]
    cases sub.settlePoison (some sub.identity) d.tag with
    | none => exact choices
    | some frame =>
      injection choices with acks rejects reached tasks
      cases frame <;>
        simp only [Option.elim, Lane.choices, Lane.spawn, Lane.chooseAck, Lane.chooseReject, acks, rejects, reached, tasks]
  · obtain ⟨own, single⟩ := settlePoison_frame settles
    rw [own, arrived]
    exact ⟨single, List.mem_map_of_mem received⟩

theorem Flow.decides (late : sub.earlyAck = false) (flow : Flow sub capacity v w) (sequenced : Sequenced sub v) :
    Decides v w := by
  have held := fun d => sequenced.held_received d
  cases flow
  case refuse d rest front _ =>
    exact .discard { v.lane.receive d with bufferedBytes := (v.lane.receive d).bufferedBytes + d.size } d
      rfl rfl (List.mem_append_right _ List.mem_cons_self)
  case unparkOversized d rest front _ =>
    exact .discard { v.lane with bufferedBytes := v.lane.bufferedBytes + d.size } d rfl rfl (held d (List.mem_append_right _ (front ▸ List.mem_cons_self)))
  case poison d rest front _ _ =>
    exact .discard { v.lane with buffer := rest } d rfl rfl
      (held d (List.mem_append_left _ (front ▸ List.mem_cons_self)))
  case earlyAck early _ _ | handEarly early _ => cases early.symm.trans late
  all_goals exact .nothing rfl

theorem Flow.received (flow : Flow sub capacity v w) :
    v.lane.arrived.map (·.tag) ⊆ w.lane.arrived.map (·.tag) := by
  have longer : ∀ d : Delivery, v.lane.arrived.map (·.tag) ⊆ (v.lane.arrived ++ [d]).map (·.tag) := by
    intro d
    rw [List.map_append]
    exact List.subset_append_left _ _
  cases flow
  case park d _ _ _ | enroll d _ _ _ _ => exact longer d
  case refuse d _ _ _ =>
    change _ ⊆ ((Lane.discard _ sub d).arrived.map (·.tag))
    rw [Lane.discard_arrived]
    exact longer d
  case unparkOversized d _ _ _ | poison d _ _ _ _ =>
    change _ ⊆ ((Lane.discard _ sub d).arrived.map (·.tag))
    rw [Lane.discard_arrived]
    exact List.Subset.refl _
  all_goals exact List.Subset.refl _

theorem Quiet.received (move : Quiet sub capacity v w) :
    v.lane.arrived.map (·.tag) ⊆ w.lane.arrived.map (·.tag) := by
  rcases move.stirs with flow | ⟨d, sends⟩ | same
  · exact flow.received
  · have arrived : w.lane.arrived = v.lane.arrived := congrArg Stock.arrived sends.stock
    exact arrived ▸ List.Subset.refl _
  · have arrived : w.lane.arrived = v.lane.arrived := congrArg Stock.arrived same.stock
    exact arrived ▸ List.Subset.refl _

theorem Quiet.decides (late : sub.earlyAck = false) (move : Quiet sub capacity v w) (kept : Kept sub v) :
    Decides v w := by
  cases move
  case flow flow => exact flow.decides late kept.sequenced
  case acceptAck | confirm => exact .acks rfl
  case flush => exact .nothing (Lane.choices_of_offDesk Lane.flushAcked_offDesk)
  case beginSettlement => exact .nothing Lane.beginSettlement_choices
  case beginThrough => exact .nothing Lane.beginThrough_choices
  case endSettlement tag result under =>
    refine .of_option Lane.endSettlement_choices fun frame spawned => ?_
    have arrived : (v.lane.endSettlement sub tag result).arrived = v.lane.arrived :=
      congrArg Stock.arrived (Lane.endSettlement_stock sub tag result)
    obtain ⟨own, single⟩ := concludes_frame spawned
    rw [own, arrived]
    exact ⟨single, kept.sequenced.handed_received tag
      (kept.claimed.singles tag (by simp [View.singles, under, Finishing.single?]))⟩
  case endThrough => exact .nothing Lane.endThrough_choices
  case closeSettlement => exact .nothing Lane.closeSettlement_choices
  case closeThrough => exact .nothing Lane.closeThrough_choices
  all_goals exact .nothing rfl

/-- Decisions are never withdrawn, and each new task carries one out. -/
structure Chooses (v w : View) : Prop where
  acks : v.lane.ackChosen ⊆ w.lane.ackChosen
  rejects : v.lane.rejectChosen ⊆ w.lane.rejectChosen
  reached : w.lane.rejectReached = v.lane.rejectReached
  tasks : v.lane.tasks ⊆ w.lane.tasks
  spawned : ∀ frame ∈ w.lane.tasks, frame ∈ v.lane.tasks ∨
    w.lane.Chosen frame ∧ frame.single = true ∧ frame.tag ∈ w.lane.arrived.map (·.tag)
  rejected : ∀ tag ∈ w.lane.rejectChosen, tag ∈ v.lane.rejectChosen ∨ ∃ requeue, .reject tag requeue ∈ w.lane.tasks

theorem Decides.chooses (decides : Decides v w) : Chooses v w := by
  cases decides with
  | nothing choices =>
    injection choices with acks rejects reached tasks
    refine ⟨?_, ?_, reached, ?_, ?_, ?_⟩
    · rw [acks]
      exact List.Subset.refl _
    · rw [rejects]
      exact List.Subset.refl _
    · rw [tasks]
      exact List.Subset.refl _
    · rw [tasks]
      exact fun frame member => .inl member
    · rw [rejects]
      exact fun tag member => .inl member
  | acks choices =>
    injection choices with acks rejects reached tasks
    refine ⟨?_, ?_, reached, ?_, ?_, ?_⟩
    · rw [acks]
      exact List.subset_append_left _ _
    · rw [rejects]
      exact List.Subset.refl _
    · rw [tasks]
      exact List.Subset.refl _
    · rw [tasks]
      exact fun frame member => .inl member
    · rw [rejects]
      exact fun tag member => .inl member
  | @spawns frame single received choices =>
    have spawned : w.lane.tasks = v.lane.tasks ++ [frame] := by
      have tasks := congrArg Choices.tasks choices
      exact tasks.trans (Lane.spawn_tasks frame)
    have last : frame ∈ w.lane.tasks := by simp [spawned]
    have fresh : ∀ chosen : w.lane.Chosen frame, ∀ task ∈ w.lane.tasks, task ∈ v.lane.tasks ∨
        w.lane.Chosen task ∧ task.single = true ∧ task.tag ∈ w.lane.arrived.map (·.tag) := by
      intro chosen task member
      rw [spawned] at member
      rcases List.mem_append.mp member with older | newest
      · exact .inl older
      · obtain rfl := List.mem_singleton.mp newest
        exact .inr ⟨chosen, single, received⟩
    have longer : v.lane.tasks ⊆ w.lane.tasks := by
      rw [spawned]
      exact List.subset_append_left _ _
    cases frame with
    | ack tag multiple =>
      injection choices with acks rejects reached tasks
      refine ⟨?_, ?_, reached, longer, fresh ?_, ?_⟩
      · rw [acks]
        exact List.subset_append_left _ _
      · rw [rejects]
        exact List.Subset.refl _
      · rw [Lane.Chosen, acks]
        exact List.mem_append_right _ List.mem_cons_self
      · rw [rejects]
        exact fun tag member => .inl member
    | reject tag requeue =>
      injection choices with acks rejects reached tasks
      refine ⟨?_, ?_, reached, longer, fresh ?_, ?_⟩
      · rw [acks]
        exact List.Subset.refl _
      · rw [rejects]
        exact List.subset_append_left _ _
      · rw [Lane.Chosen, rejects]
        exact List.mem_append_right _ List.mem_cons_self
      · rw [rejects]
        intro other member
        rcases List.mem_append.mp member with older | newest
        · exact .inl older
        · obtain rfl := List.mem_singleton.mp newest
          exact .inr ⟨requeue, last⟩

namespace Lane

variable {lane other : Lane} {index : Nat} {params : Nat × Settlement} {through : Through}

theorem staged_of_desk (same : lane.desk = other.desk) : lane.staged = other.staged := by
  injection same with _ futures _ queue
  rw [staged, staged, futures, queue]

theorem singles_eq_staged : lane.singles = lane.staged.map (·.tag) := by
  simp [singles, staged, Function.comp_def]

theorem drainSettlementQueue_staged : lane.drainSettlementQueue.staged = lane.staged := by
  unfold drainSettlementQueue staged
  split
  · rename_i front
    simp [launchSettlement, front]
  · rfl
  · rfl

theorem enqueueSettlement_staged (still : lane.inFlight = false → lane.Clear) :
    (lane.enqueueSettlement params).staged = lane.staged ++ [{ tag := params.1, settlement := params.2 }] := by
  unfold enqueueSettlement staged
  split
  · simp
  · rename_i free
    have clear := still (Bool.not_eq_true _ ▸ free)
    simp [launchSettlement, clear.1]

theorem enqueueSettleThrough_staged : (lane.enqueueSettleThrough through).staged = lane.staged := by
  unfold enqueueSettleThrough
  split <;> rfl

theorem foldl_enqueueSettlement_staged (many : List (Nat × Settlement))
    (still : lane.inFlight = false → lane.Clear) : (many.foldl enqueueSettlement lane).staged =
      lane.staged ++ many.map fun params => { tag := params.1, settlement := params.2 } := by
  induction many generalizing lane with
  | nil => simp
  | cons params rest ih =>
    have busy : (lane.enqueueSettlement params).inFlight = true := enqueueSettlement_busy
    rw [List.foldl_cons, ih (by simp [busy]), enqueueSettlement_staged still]
    simp

theorem flushAcked_staged (flown : lane.Flown) (still : lane.inFlight = false → lane.Clear) :
    lane.flushAcked.staged = lane.staged ∨ lane.staged = [] ∧
      lane.flushAcked.staged = lane.stragglers.map fun tag => { tag, settlement := .ack } := by
  unfold flushAcked
  split
  · exact .inl rfl
  · rename_i idle
    rw [Bool.not_eq_true, Bool.or_eq_false_iff] at idle
    obtain ⟨none, -⟩ := flown.idle idle.1
    obtain ⟨queue, -⟩ := still idle.1
    have empty : lane.staged = [] := by simp [staged, none, queue]
    refine .inr ⟨empty, ?_⟩
    dsimp only
    split
    · simp [staged, launchSettleThrough, none, queue, Function.comp_def]
    · have staged := @foldl_enqueueSettlement_staged { lane with ackedBatch := .empty }
        (lane.stragglers.map fun tag => (tag, Settlement.ack)) still
      rw [staged]
      have cleared : Lane.staged { lane with ackedBatch := .empty } = lane.staged := rfl
      rw [cleared, empty, List.nil_append, List.map_map]
      rfl

end Lane

theorem Solo.retired_staged {future : SettlementFuture} {index : Nat} (solo : Solo v)
    (found : v.lane.pendingSettlements[index]? = some future) :
    v.lane.staged = future :: (v.lane.retireSettlement index).staged := by
  obtain ⟨rfl, -, one, -⟩ := solo.flown.of_single found
  simp [Lane.staged, Lane.retireSettlement, one]

theorem Solo.progressed_staged {future : SettlementFuture} {index : Nat} {lane : Lane} (progress : Progress)
    (solo : Solo v) (found : v.lane.pendingSettlements[index]? = some future) (desk : lane.desk = v.lane.desk) :
    (lane.setProgress index future progress).staged =
      { future with progress } :: (v.lane.retireSettlement index).staged := by
  obtain ⟨rfl, -, one, -⟩ := solo.flown.of_single found
  injection desk with _ futures _ queue
  simp [Lane.staged, Lane.setProgress, Lane.retireSettlement, futures, queue, one]

structure Lane.Backs (lane : Lane) (future : SettlementFuture) : Prop where
  frame : ∀ frame, future.frame = some frame → lane.Chosen frame
  answered : ∀ result, future.progress = .finished result → answeredBy result = true → lane.Chose future.tag

/-- The actor has wound up and dropped its futures. -/
structure View.Over (v : View) : Prop where
  winding : v.winding = true
  singles : v.lane.pendingSettlements = []
  throughs : v.lane.pendingSettleThroughs = []
  finishing : v.finishing = none

/-- Every settlement staged, answered or spawned is backed by a decision. -/
structure Backing (v : View) : Prop where
  wound : v.winding = true → v.finishing = none
  batch : ∀ tag ∈ v.lane.ackedBatch.keys, tag ∈ v.lane.ackChosen
  throughs : ∀ through ∈ v.throughs, through.affected ⊆ v.lane.ackChosen
  staged : ∀ future ∈ v.lane.staged, v.lane.Backs future
  finishing : ∀ tag result, v.finishing = some (.settlement tag result) → answeredBy result = true →
    v.lane.Chose tag
  tasks : ∀ frame ∈ v.lane.tasks,
    v.lane.Chosen frame ∧ frame.single = true ∧ frame.tag ∈ v.lane.arrived.map (·.tag)

/-- What a silent move does to staged rejects: they stay staged until the actor is over. -/
structure Restages (v w : View) : Prop where
  older : ∀ future ∈ w.lane.staged, future ∈ v.lane.staged ∨ w.lane.Backs future
  kept : ∀ future ∈ v.lane.staged, ∀ tag requeue, future.frame = some (.reject tag requeue) →
    future ∈ w.lane.staged ∨ w.Over
  finishing : ∀ tag result, w.finishing = some (.settlement tag result) →
    v.finishing = some (.settlement tag result) ∨
      ∃ future ∈ v.lane.staged, future.tag = tag ∧ future.progress = .finished result

namespace Restages

theorem of_staged (staged : w.lane.staged = v.lane.staged)
    (finishing : w.finishing = v.finishing ∨ ∀ tag result, w.finishing ≠ some (.settlement tag result)) :
    Restages v w := by
  refine ⟨?_, ?_, ?_⟩
  · rw [staged]
    exact fun future member => .inl member
  · rw [staged]
    exact fun future member _ _ _ => .inl member
  · intro tag result under
    rcases finishing with same | other
    · exact .inl (same ▸ under)
    · exact absurd under (other tag result)

theorem retired {future : SettlementFuture} {index : Nat} {result : Outcome}
    (solo : Solo v) (found : v.lane.pendingSettlements[index]? = some future)
    (finished : future.progress = .finished result)
    (staged : w.lane.staged = (v.lane.retireSettlement index).staged)
    (finishing : ∀ tag other, w.finishing = some (.settlement tag other) → tag = future.tag ∧ other = result) :
    Restages v w := by
  have first := solo.retired_staged found
  refine ⟨?_, ?_, ?_⟩
  · rw [staged, first]
    exact fun other member => .inl (List.mem_cons_of_mem _ member)
  · rw [staged, first]
    intro other member tag requeue sends
    rcases List.mem_cons.mp member with rfl | later
    · exact absurd finished ((SettlementFuture.frame_spec sends).2.2 result)
    · exact .inl later
  · intro tag other under
    obtain ⟨rfl, rfl⟩ := finishing tag other under
    exact .inr ⟨future, first ▸ List.mem_cons_self, rfl, finished⟩

theorem progressed {future : SettlementFuture} {index : Nat} {lane : Lane} {progress : Progress}
    (solo : Solo v) (found : v.lane.pendingSettlements[index]? = some future) (desk : lane.desk = v.lane.desk)
    (here : w.lane = lane.setProgress index future progress) (finishing : w.finishing = v.finishing)
    (backs : w.lane.Backs { future with progress }) (sent : ∀ tag requeue, future.frame ≠ some (.reject tag requeue)) :
    Restages v w := by
  have first := solo.retired_staged found
  have staged := solo.progressed_staged progress found desk
  rw [← here] at staged
  refine ⟨?_, ?_, fun tag result under => .inl (finishing ▸ under)⟩
  · rw [staged, first]
    intro other member
    rcases List.mem_cons.mp member with rfl | later
    · exact .inr backs
    · exact .inl (List.mem_cons_of_mem _ later)
  · rw [staged, first]
    intro other member tag requeue sends
    rcases List.mem_cons.mp member with rfl | later
    · exact absurd sends (sent tag requeue)
    · exact .inl (List.mem_cons_of_mem _ later)

end Restages

theorem Releases_frame {future : SettlementFuture} {progress : Progress} (releases : future.Releases progress) :
    future.frame = none ∧ SettlementFuture.frame { future with progress } = none ∧
      ∀ result, progress = .finished result → answeredBy result = false := by
  have unanswered : ∀ error : ConsumerError, error.kind ≠ .transport → error.kind ≠ .staleGeneration →
      answeredBy (.error error) = false := by
    intro error lost stale
    simp [answeredBy, lost, stale]
  cases releases with
  | publish started release delayed =>
    refine ⟨?_, rfl, fun result other => ?_⟩
    · simp [SettlementFuture.frame, started, release, delayed]
    · cases other
  | unpublished error started release delayed lost stale =>
    refine ⟨?_, rfl, fun result same => ?_⟩
    · simp [SettlementFuture.frame, started, release, delayed]
    · cases same
      exact unanswered error lost stale
  | unconfirmed error publishing lost stale =>
    refine ⟨?_, rfl, fun result same => ?_⟩
    · simp [SettlementFuture.frame, publishing]
    · cases same
      exact unanswered error lost stale

theorem Quiet.restages (move : Quiet sub capacity v w) (solo : Solo v) (backing : Backing v) : Restages v w := by
  cases move
  case flow flow => exact .of_staged (Lane.staged_of_desk flow.desk) (.inl flow.same_finishing)
  case flush ready =>
    rcases Lane.flushAcked_staged solo.flown (solo.still ready.1) with same | ⟨empty, staged⟩
    · exact .of_staged same (.inl rfl)
    · refine ⟨fun future member => ?_, fun future member => ?_, fun tag result under => .inl under⟩
      · rw [staged] at member
        obtain ⟨tag, straggler, rfl⟩ := List.mem_map.mp member
        have chosen := backing.batch tag (Lane.mem_stragglers straggler).1
        have acks : v.lane.flushAcked.ackChosen = v.lane.ackChosen :=
          congrArg Choices.ackChosen (Lane.choices_of_offDesk Lane.flushAcked_offDesk)
        refine .inr ⟨fun frame sends => ?_, fun result other => ?_⟩
        · cases sends
          rw [Lane.Chosen, acks]
          exact chosen
        · cases other
      · rw [empty] at member
        cases member
  case progress index future progress found releases =>
    obtain ⟨silent, still, unanswered⟩ := Releases_frame releases
    refine .progressed solo found rfl rfl rfl ⟨fun frame sends => ?_, fun result same sent => ?_⟩ fun tag requeue sends => ?_
    · cases still.symm.trans sends
    · cases (unanswered result same).symm.trans sent
    · cases silent.symm.trans sends
  case confirm index future found publishing =>
    have silent : future.frame = none := by simp [SettlementFuture.frame, publishing]
    have desk : (v.lane.chooseAck [future.tag]).desk = v.lane.desk := rfl
    refine .progressed solo found desk rfl rfl ⟨fun frame sends => ?_, fun result other => ?_⟩ fun tag requeue sends => ?_
    · cases sends
      exact List.mem_append_right _ List.mem_cons_self
    · cases other
    · cases silent.symm.trans sends
  case beginSettlement index future result _ _ found finished =>
    refine .retired solo found finished (Lane.staged_of_desk Lane.beginSettlement_desk) fun tag other under => ?_
    cases under
    exact ⟨rfl, rfl⟩
  case beginThrough =>
    refine .of_staged ((Lane.staged_of_desk Lane.beginThrough_desk).trans rfl) (.inr fun tag result other => ?_)
    cases other
  case endSettlement =>
    refine .of_staged ?_ (.inr fun tag result other => ?_)
    · rw [Lane.endSettlement_eq, Lane.drainSettlementQueue_staged, Lane.staged_of_desk Lane.concluded_desk]
    · cases other
  case endThrough =>
    refine .of_staged ?_ (.inr fun tag result other => ?_)
    · rw [Lane.endThrough_eq, Lane.drainSettlementQueue_staged, Lane.staged_of_desk Lane.concludedThrough_desk]
    · cases other
  case closeSettlement index future result _ found finished =>
    refine .retired solo found finished ?_ fun tag other under => ?_
    · rw [Lane.closeSettlement_eq, Lane.drainSettlementQueue_staged]
      rfl
    · cases (solo.unfinished found).symm.trans under
  case closeThrough index future result _ found _ =>
    refine .of_staged ?_ (.inl rfl)
    rw [Lane.closeThrough_eq, Lane.drainSettlementQueue_staged, Lane.staged_of_desk Lane.closedThrough_desk]
    rfl
  case dropFutures closing =>
    refine ⟨fun future member => ?_, fun _ _ _ _ _ => .inr ⟨closing, rfl, rfl, backing.wound closing⟩,
      fun tag result under => .inl under⟩
    exact .inl (List.mem_append_right _ member)
  all_goals exact .of_staged rfl (.inl rfl)

theorem Lane.Chosen.mono {frame : Frame} (chosen : v.lane.Chosen frame) (acks : v.lane.ackChosen ⊆ w.lane.ackChosen)
    (rejects : v.lane.rejectChosen ⊆ w.lane.rejectChosen) : w.lane.Chosen frame := by
  cases frame with
  | ack => exact acks chosen
  | reject => exact rejects chosen

theorem Lane.Chose.mono {tag : Nat} (chose : v.lane.Chose tag) (acks : v.lane.ackChosen ⊆ w.lane.ackChosen)
    (rejects : v.lane.rejectChosen ⊆ w.lane.rejectChosen) : w.lane.Chose tag :=
  chose.imp (fun member => acks member) fun member => rejects member

theorem Lane.Backs.mono {future : SettlementFuture} (backs : v.lane.Backs future)
    (acks : v.lane.ackChosen ⊆ w.lane.ackChosen) (rejects : v.lane.rejectChosen ⊆ w.lane.rejectChosen) :
    w.lane.Backs future :=
  ⟨fun frame sends => (backs.frame frame sends).mono acks rejects,
    fun result finished answered => (backs.answered result finished answered).mono acks rejects⟩

theorem Stages.recorded (stages : Stages v w) :
    ∀ tag ∈ w.lane.ackedBatch.keys, tag ∈ v.lane.ackedBatch.keys ∨ tag ∈ w.lane.ackChosen := by
  intro tag member
  cases stages with
  | fewer _ _ batch _ => exact .inl (batch ▸ member)
  | ack _ _ _ _ _ _ batch chosen =>
    rw [batch] at member
    rcases Table.mem_keys_insert.mp member with rfl | older
    · exact .inr chosen
    · exact .inl older
  | flush _ _ _ _ batch =>
    rw [batch, Table.keys_empty] at member
    cases member

theorem Quiet.wound (move : Quiet sub capacity v w) (wound : v.winding = true → v.finishing = none) :
    w.winding = true → w.finishing = none := by
  intro winding
  cases move
  case flow flow =>
    rw [flow.same_finishing]
    exact wound (flow.same_winding ▸ winding)
  case windUp unfinished => exact unfinished
  case beginSettlement _ live _ _ | beginThrough _ live _ _ => cases live.symm.trans winding
  case endSettlement | endThrough => rfl
  all_goals exact wound winding

theorem Quiet.backing (late : sub.earlyAck = false) (move : Quiet sub capacity v w) (kept : Kept sub v)
    (backing : Backing v) : Backing w := by
  have chooses := (move.decides late kept).chooses
  have restages := move.restages kept.solo backing
  have stages := move.stages kept.solo
  refine ⟨move.wound backing.wound, ?_, ?_, ?_, ?_, ?_⟩
  · intro tag member
    rcases stages.recorded tag member with older | chosen
    · exact chooses.acks (backing.batch tag older)
    · exact chosen
  · intro through member tag among
    rcases stages.prefixes through member with older | recorded
    · exact chooses.acks (backing.throughs through older among)
    · exact chooses.acks (backing.batch tag (recorded among))
  · intro future member
    rcases restages.older future member with older | backs
    · exact (backing.staged future older).mono chooses.acks chooses.rejects
    · exact backs
  · intro tag result under answered
    rcases restages.finishing tag result under with older | ⟨future, member, rfl, finished⟩
    · exact (backing.finishing tag result older answered).mono chooses.acks chooses.rejects
    · exact ((backing.staged future member).answered result finished answered).mono chooses.acks chooses.rejects
  · intro frame member
    rcases chooses.spawned frame member with older | newest
    · obtain ⟨chosen, single, received⟩ := backing.tasks frame older
      exact ⟨chosen.mono chooses.acks chooses.rejects, single, move.received received⟩
    · exact newest

theorem taken_frame {tag : Nat} {settlement : Settlement} (decision : settlement ≠ .ack) :
    (settlement.terminal = .rejected ∧
      ∃ requeue, SettlementFuture.frame { tag, settlement } = some (.reject tag requeue)) ∨
    settlement.terminal ≠ .rejected ∧ SettlementFuture.frame { tag, settlement } = none := by
  cases settlement with
  | ack => exact absurd rfl decision
  | reject requeue => exact .inl ⟨rfl, requeue, rfl⟩
  | release delay =>
    by_cases zero : delay = .zero
    · refine .inl ⟨by simp [Settlement.terminal, zero], true, by simp [SettlementFuture.frame, zero]⟩
    · refine .inr ⟨by simp [Settlement.terminal, zero], by simp [SettlementFuture.frame, zero]⟩

namespace Lane

variable {lane : Lane} {tag : Nat} {settlement : Settlement} {through : Through}

theorem acceptSettlement_choices : (lane.acceptSettlement tag settlement).choices =
    if settlement.terminal = .rejected then (lane.chooseReject tag).choices else lane.choices := by
  rw [acceptSettlement_eq, choices_of_offDesk (enqueueSettlement_offDesk _)]
  unfold takenUp
  dsimp only
  split <;> rfl

theorem acceptThrough_choices :
    (lane.acceptThrough through).choices = (lane.chooseAck through.affected).choices := by
  rw [acceptThrough_eq, choices_of_offDesk (enqueueSettleThrough_offDesk _)]
  have claimed := @claimAll_offTokens (lane.setSettling through.target true) through.affected
  injection choices_of_offTokens claimed with acks rejects reached tasks
  simp only [choices, chooseAck, acks, rejects, reached, tasks]
  rfl

theorem transmit_choices (frame : Frame) (reached : Bool) : (lane.transmit frame reached).ackChosen = lane.ackChosen ∧
    (lane.transmit frame reached).rejectChosen = lane.rejectChosen ∧
    lane.rejectReached ⊆ (lane.transmit frame reached).rejectReached ∧
    ∀ tag ∈ (lane.transmit frame reached).rejectReached, tag ∈ lane.rejectReached ∨
      reached = true ∧ ∃ requeue, frame = .reject tag requeue := by
  cases reached with
  | false => exact ⟨rfl, rfl, List.Subset.refl _, fun _ member => .inl member⟩
  | true =>
    cases frame with
    | ack => exact ⟨rfl, rfl, List.Subset.refl _, fun _ member => .inl member⟩
    | reject own requeue =>
      refine ⟨rfl, rfl, List.subset_append_left _ _, fun tag member => ?_⟩
      rcases List.mem_append.mp member with older | newest
      · exact .inl older
      · obtain rfl := List.mem_singleton.mp newest
        exact .inr ⟨rfl, requeue, rfl⟩

end Lane

/-- A frame on the wire takes its deliveries off the broker and decides nothing. -/
structure Carries (v w : View) (frame : Frame) (sent : Bool) : Prop where
  acks : w.lane.ackChosen = v.lane.ackChosen
  rejects : w.lane.rejectChosen = v.lane.rejectChosen
  grows : v.lane.rejectReached ⊆ w.lane.rejectReached
  reached : ∀ tag ∈ w.lane.rejectReached, tag ∈ v.lane.rejectReached ∨ sent = true ∧ ∃ requeue, frame = .reject tag requeue
  carried : ∀ tag requeue, frame = .reject tag requeue → sent = true → tag ∈ w.lane.rejectReached
  outstanding : w.lane.outstanding = v.lane.deduct frame sent

theorem Marked.carries {frame : Frame} {sent : Bool} (move : Marked v (.frame frame sent) w) :
    Carries v w frame sent := by
  have carried : ∀ {frame : Frame} {answer : Except TransportError Unit}, Carries v
      { v with lane := v.lane.transmit frame (reached answer) } frame (reached answer) := by
    intro frame answer
    obtain ⟨acks, rejects, grows, fresh⟩ := @Lane.transmit_choices v.lane frame (reached answer)
    refine ⟨acks, rejects, grows, fresh, fun tag requeue own sent => ?_,
      congrArg Core.outstanding (Lane.transmit_core frame (reached answer))⟩
    subst own
    rw [sent]
    exact List.mem_append_right _ List.mem_cons_self
  cases move
  all_goals exact ⟨carried.acks, carried.rejects, carried.grows, carried.reached, carried.carried, carried.outstanding⟩

theorem Marked.same_finishing {mark : Mark} (move : Marked v mark w) : w.finishing = v.finishing := by
  cases move <;> rfl

/-- What a mark takes from the staged settlements and the tasks. -/
inductive Takes (v w : View) : Mark → Prop where
  | decision {tag : Nat} {settlement : Settlement} : settlement ≠ .ack →
      w.lane.staged = v.lane.staged ++ [{ tag := tag, settlement := settlement }] → w.lane.tasks = v.lane.tasks →
      Takes v w (.settle tag settlement)
  | sends {frame : Frame} {sent : Bool} {future : SettlementFuture} {rest : List SettlementFuture}
      {result : Outcome} : future.frame = some frame → v.lane.staged = future :: rest →
      w.lane.staged = { future with progress := .finished result } :: rest → w.lane.tasks = v.lane.tasks →
      Takes v w (.frame frame sent)
  | through {through : Through} : w.lane.staged = v.lane.staged → w.lane.tasks = v.lane.tasks →
      Takes v w (.through through)
  | cumulative {target : Nat} {sent : Bool} : w.lane.staged = v.lane.staged →
      w.lane.tasks = v.lane.tasks → Takes v w (.frame (.ack target true) sent)
  | task {index : Nat} {frame : Frame} {sent : Bool} : w.lane.staged = v.lane.staged →
      v.lane.tasks[index]? = some frame → w.lane.tasks = v.lane.tasks.eraseIdx index → Takes v w (.frame frame sent)

theorem Marked.takes {mark : Mark} (move : Marked v mark w) (solo : Solo v) : Takes v w mark := by
  cases move
  case settle tag settlement _ ready _ decision _ =>
    have desk := @Lane.takenUp_desk v.lane tag settlement
    have still := (solo.of_desk (w := { v with lane := v.lane.takenUp tag settlement }) desk rfl).still ready.1
    refine .decision decision ?_ Lane.acceptSettlement_tasks
    rw [Lane.acceptSettlement_eq, Lane.enqueueSettlement_staged still, Lane.staged_of_desk desk]
  case through through _ _ _ _ _ _ _ _ =>
    refine .through ?_ Lane.acceptThrough_tasks
    rw [Lane.acceptThrough_staged, Lane.enqueueSettleThrough_staged, Lane.staged_of_desk Lane.takenUpThrough_desk]
  case perform index future frame answer found sends =>
    exact .sends sends (solo.retired_staged found)
      (solo.progressed_staged (.finished (answerState frame.outcome answer)) found (Lane.transmit_desk _ _))
      (Lane.transmit_tasks _ _)
  case performThrough index future answer _ _ =>
    have staged := Lane.staged_of_desk (@Lane.transmit_desk v.lane (.ack future.through.target true) (reached answer))
    exact .cumulative staged (Lane.transmit_tasks _ _)
  case task found => exact .task (Lane.staged_of_desk (Lane.transmit_desk _ _)) found rfl

theorem Marked.chooses {mark : Mark} (move : Marked v mark w) :
    v.lane.ackChosen ⊆ w.lane.ackChosen ∧ v.lane.rejectChosen ⊆ w.lane.rejectChosen ∧
      w.lane.tasks ⊆ v.lane.tasks ∧
      (∀ through ∈ mark.through?, through.affected ⊆ w.lane.ackChosen) ∧
      ∀ tag settlement, mark = .settle tag settlement → settlement.terminal = .rejected →
        tag ∈ w.lane.rejectChosen := by
  cases move
  case settle tag settlement rest _ _ _ _ =>
    have choices := @Lane.acceptSettlement_choices v.lane tag settlement
    split at choices
    · injection choices with acks rejects _ tasks
      refine ⟨?_, ?_, ?_, by rintro _ ⟨⟩, fun other one same _ => ?_⟩
      · rw [acks]
        exact List.Subset.refl _
      · rw [rejects]
        exact List.subset_append_left _ _
      · rw [tasks]
        exact List.Subset.refl _
      · cases same
        rw [rejects]
        exact List.mem_append_right _ List.mem_cons_self
    · rename_i other
      injection choices with acks rejects _ tasks
      refine ⟨?_, ?_, ?_, by rintro _ ⟨⟩, fun _ _ same rejected => ?_⟩
      · rw [acks]
        exact List.Subset.refl _
      · rw [rejects]
        exact List.Subset.refl _
      · rw [tasks]
        exact List.Subset.refl _
      · cases same
        exact absurd rejected other
  case through through _ _ _ _ _ _ _ _ =>
    injection @Lane.acceptThrough_choices v.lane through with acks rejects _ tasks
    refine ⟨?_, ?_, ?_, fun one own => ?_, by rintro _ _ ⟨⟩⟩
    · rw [acks]
      exact List.subset_append_left _ _
    · rw [rejects]
      exact List.Subset.refl _
    · rw [tasks]
      exact List.Subset.refl _
    · cases own
      rw [acks]
      exact List.subset_append_right _ _
  case perform frame answer _ _ =>
    obtain ⟨acks, rejects, -, -⟩ := @Lane.transmit_choices v.lane frame (reached answer)
    exact ⟨(List.Perm.of_eq acks.symm).subset, (List.Perm.of_eq rejects.symm).subset,
      (List.Perm.of_eq (Lane.transmit_tasks frame (reached answer))).subset, by rintro _ ⟨⟩, by rintro _ _ ⟨⟩⟩
  case performThrough future answer _ _ =>
    obtain ⟨acks, rejects, -, -⟩ :=
      @Lane.transmit_choices v.lane (.ack future.through.target true) (reached answer)
    exact ⟨(List.Perm.of_eq acks.symm).subset, (List.Perm.of_eq rejects.symm).subset,
      (List.Perm.of_eq (Lane.transmit_tasks _ (reached answer))).subset, by rintro _ ⟨⟩, by rintro _ _ ⟨⟩⟩
  case task index frame answer _ =>
    obtain ⟨acks, rejects, -, -⟩ := @Lane.transmit_choices v.lane frame (reached answer)
    exact ⟨(List.Perm.of_eq acks.symm).subset, (List.Perm.of_eq rejects.symm).subset, (List.eraseIdx_sublist _ _).subset, by rintro _ ⟨⟩, by rintro _ _ ⟨⟩⟩

theorem Marked.backing {mark : Mark} (move : Marked v mark w) (kept : Kept sub v) (backing : Backing v) :
    Backing w := by
  obtain ⟨acks, rejects, tasks, covered, rejected⟩ := move.chooses
  obtain ⟨-, throughs, batch⟩ := move.stages kept.solo
  have arrived : w.lane.arrived = v.lane.arrived := congrArg Stock.arrived move.unstirred.stock
  refine ⟨?_, ?_, ?_, ?_, ?_, ?_⟩
  · rw [move.same_finishing, move.same_winding]
    exact backing.wound
  · rw [batch]
    exact fun tag member => acks (backing.batch tag member)
  · intro through member
    rw [throughs] at member
    rcases List.mem_append.mp member with older | newest
    · exact List.Subset.trans (backing.throughs through older) acks
    · exact covered through (Option.mem_toList.mp newest)
  · intro future member
    cases move.takes kept.solo with
    | @decision tag settlement decided staged _ =>
      rw [staged] at member
      rcases List.mem_append.mp member with older | newest
      · exact (backing.staged future older).mono acks rejects
      · obtain rfl := List.mem_singleton.mp newest
        refine ⟨fun frame sends => ?_, fun result other => by cases other⟩
        rcases @taken_frame tag settlement decided with ⟨terminal, requeue, reject⟩ | ⟨-, silent⟩
        · cases reject.symm.trans sends
          exact rejected tag settlement rfl terminal
        · cases silent.symm.trans sends
    | @sends frame sent first rest result sends before staged _ =>
      rw [staged] at member
      rcases List.mem_cons.mp member with rfl | later
      · refine ⟨fun other none => ?_, fun _ _ _ => ?_⟩
        · cases none
        have backs := (backing.staged first (before ▸ List.mem_cons_self)).mono acks rejects
        have chose := (backs.frame frame sends).chose
        rwa [(SettlementFuture.frame_spec sends).1] at chose
      · exact (backing.staged future (before ▸ List.mem_cons_of_mem _ later)).mono acks rejects
    | through staged _ | cumulative staged _ | task staged _ _ =>
      exact (backing.staged future (staged ▸ member)).mono acks rejects
  · rw [move.same_finishing]
    intro tag result under answered
    exact (backing.finishing tag result under answered).mono acks rejects
  · rw [arrived]
    intro frame member
    obtain ⟨chosen, task⟩ := backing.tasks frame (tasks member)
    exact ⟨chosen.mono acks rejects, task⟩

end RabbitRs.Consumer
