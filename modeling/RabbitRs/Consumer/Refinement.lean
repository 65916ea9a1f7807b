import Mathlib.Data.List.Perm.Basic
import RabbitRs.Consumer.Dispatch

/-!
The actor refines its channels: what a step does to the view of a subscription is a path of quiet
moves, or one marked move.
-/

namespace RabbitRs.Consumer

variable {settings : Settings} {sub other : Subscription} {s t : State} {id : String}

namespace State

@[simp] theorem view_refuse (tag : Nat) (kind : ConsumerErrorKind) (message name : String) :
    (s.refuse name tag kind message).view id = s.view id := rfl

theorem handleCommand_other {command : Command} (foreign : command.laneCommand id = none) :
    (s.handleCommand settings command).view id = s.view id := by
  unfold handleCommand
  split
  · rename_i name tag settlement
    have ne : name ≠ id := fun same => by simp [Command.laneCommand, same] at foreign
    unfold handleSettle
    split
    · rfl
    · split <;> exact view_modify_other ne _
  · rename_i name tag
    have ne : name ≠ id := fun same => by simp [Command.laneCommand, same] at foreign
    unfold handleSettleThrough
    split
    · rfl
    · split
      · rfl
      · split
        · rfl
        · split
          · rfl
          · rfl
          · exact view_modify_other ne _
  · unfold handleSettleForeign
    split
    · rfl
    · split
      · rfl
      · split <;> rfl
  · rfl

section Own

variable {tag : Nat} {rest : List LaneCommand} {v : View} {capacity : Nat}

theorem handleSettle_moves {settlement : Settlement} (ready : v.Ready)
    (head : v.commands = .settle tag settlement :: rest) (here : s.view id = { v with commands := rest }) :
    Quiet sub capacity v ((s.handleSettle id tag settlement).view id) ∨
      ∃ mark, s.takesUp id (.settle id tag settlement) = some mark ∧
        Marked v mark ((s.handleSettle id tag settlement).view id) := by
  have lane : s.lanes id = v.lane := congrArg View.lane here
  unfold handleSettle
  split
  · rw [refuseSettling, view_refuse, here]
    exact .inl (.decline head)
  · rename_i free
    rw [Bool.not_eq_true] at free
    have unclaimed : (v.lane.tokens tag).any (·.settling) = false := by rwa [settling, lane] at free
    split
    · rw [view_modify_self, here, lane]
      exact .inl (.acceptAck head unclaimed)
    · rw [view_modify_self, here, lane]
      exact .inr ⟨_, if_pos ⟨rfl, nofun, free⟩, .settle ready head nofun unclaimed⟩
    · rw [view_modify_self, here, lane]
      exact .inr ⟨_, if_pos ⟨rfl, nofun, free⟩, .settle ready head nofun unclaimed⟩

theorem handleSettleThrough_moves (ready : v.Ready) (head : v.commands = .through tag :: rest)
    (here : s.view id = { v with commands := rest }) :
    Quiet sub capacity v ((s.handleSettleThrough id tag).view id) ∨
      ∃ mark, s.takesUp id (.settleThrough id tag) = some mark ∧
        Marked v mark ((s.handleSettleThrough id tag).view id) := by
  have lane : s.lanes id = v.lane := congrArg View.lane here
  have declined : Quiet sub capacity v (s.view id) := here ▸ .decline head
  unfold handleSettleThrough
  split
  · exact .inl declined
  · rename_i pending
    rw [Bool.not_eq_true] at pending
    split
    · exact .inl declined
    · rename_i free
      rw [Bool.not_eq_true] at free
      split
      · exact .inl declined
      · rename_i above
        rw [not_le] at above
        split
        · exact .inl declined
        · exact .inl declined
        · rename_i affected nonempty valid
          obtain ⟨first, others, rfl⟩ := List.exists_cons_of_ne_nil nonempty
          refine .inr ⟨.through { target := tag, affected := first :: others }, ?_, ?_⟩
          · simp only [takesUp, valid]
            exact if_pos ⟨trivial, pending, free, above⟩
          · rw [view_modify_self, here]
            simp only [settling, lane] at pending free above valid ⊢
            exact .through ready head pending free above valid nonempty

end Own

end State

inductive Concludes (sub : Subscription) (capacity : Nat) (v : View) (begun : Lane) (ended : Lane → Lane)
    (closed : Lane) : View → Prop where
  | live {w : View} : v.winding = false → w.finishing = none → Flows sub capacity { v with lane := begun } w →
      Concludes sub capacity v begun ended closed { w with lane := ended w.lane }
  | winding : v.winding = true → Concludes sub capacity v begun ended closed { v with lane := closed }

theorem Concludes.path {v w : View} {capacity : Nat} {begun closed : Lane} {ended : Lane → Lane}
    (concludes : Concludes sub capacity v begun ended closed w) (finishing : Finishing)
    (begins : v.winding = false → Quiet sub capacity v { v with lane := begun, finishing := some finishing })
    (ends : ∀ u : View, Quiet sub capacity { u with finishing := some finishing }
      { u with lane := ended u.lane, finishing := none })
    (closes : v.winding = true → Quiet sub capacity v { v with lane := closed }) : Path sub capacity v w := by
  cases concludes with
  | @live w live idle flows =>
    refine (Path.single (begins live)).trans ((flows.finishing (some finishing)).trans ?_)
    have ended := ends w
    rw [← idle] at ended
    exact Path.single ended
  | winding winding => exact Path.single (closes winding)

structure Acts (id : String) (s t : State) (change : Lane → Lane) : Prop where
  own : t.view id = { s.view id with lane := change (s.lanes id) }
  others : ∀ name, id ≠ name → t.view name = s.view name

namespace Acts

variable {change next : Lane → Lane} {u : State}

theorem lane (acts : Acts id s t change) : t.lanes id = change (s.lanes id) := congrArg View.lane acts.own

theorem modify : Acts id s (s.modify id change) change :=
  ⟨State.view_modify_self _, fun _ ne => State.view_modify_other ne _⟩

theorem andThen (first : Acts id s t change) (second : Acts id t u next) :
    Acts id s u fun lane => next (change lane) := by
  refine ⟨?_, fun name ne => (second.others name ne).trans (first.others name ne)⟩
  rw [second.own, first.own, first.lane]

theorem unseen (acts : Acts id s t change) (same : ∀ name, u.view name = t.view name) : Acts id s u change :=
  ⟨(same id).trans acts.own, fun name ne => (same name).trans (acts.others name ne)⟩

end Acts

def Completes (settings : Settings) (id : String) (begun ended : Lane → Lane) (s t : State) : Prop :=
  ∃ u v, Acts id s u begun ∧ Acts id v t ended ∧ ∀ sub, settings.Knows sub →
    Flows sub settings.earlyAckedCapacity (u.view sub.id) (v.view sub.id)

inductive Completion (settings : Settings) (id : String) (begun ended closed : Lane → Lane) (s t : State) : Prop where
  | live : s.stage.winding = false → Completes settings id begun ended s t → Completion settings id begun ended closed s t
  | winding : s.stage.winding = true → Acts id s t closed → Completion settings id begun ended closed s t

namespace State

theorem view_refuseThrough (through : Through) (result : Outcome) (name : String) :
    (s.refuseThrough name through result).view id = s.view id := by
  cases result <;> rfl

theorem conclude_acts {tag : Nat} {result : Outcome} :
    Acts sub.id s (s.concludeSettlement sub tag result) (·.conclude sub tag result) := by
  unfold concludeSettlement Lane.conclude
  cases result with
  | ok terminal => exact .modify
  | error error =>
    obtain ⟨kind, message, source⟩ := error
    cases kind
    case maxAttempts | invalidDelay => exact .unseen .modify fun name => by rw [view_refuse, view_recordPoison]
    all_goals exact .unseen .modify fun name => view_refuse ..

def reusedSettlement (s : State) (settings : Settings) (sub : Subscription) (tag : Nat)
    (result : Outcome) : State :=
  if isTerminal result then
    ((((s.recordOutcome result).modify sub.id fun lane =>
      lane.releaseBytes (lane.sizeOf tag)).drainPending settings).dispatch settings)
  else s

def endedSettlement (s : State) (sub : Subscription) (tag : Nat)
    (result : Outcome) : State :=
  let s := if isTerminal result then s.modify sub.id fun lane => lane.settle tag else s
  ((s.modify sub.id fun lane => lane.setSettling tag false).concludeSettlement sub tag result).modify sub.id
    fun lane => lane.drainSettlementQueue

theorem completeSettlement_eq (index tag : Nat) (result : Outcome) :
    s.completeSettlement settings sub index tag result =
      ((s.modify sub.id fun lane => lane.retireSettlement index).reusedSettlement settings sub tag
        result).endedSettlement sub tag result := by
  unfold completeSettlement reusedSettlement endedSettlement
  split <;> rfl

section Settlement

variable {tag index : Nat} {result : Outcome}

theorem endedSettlement_acts : Acts sub.id s (s.endedSettlement sub tag result) (·.endSettlement sub tag result) := by
  unfold endedSettlement Lane.endSettlement
  by_cases terminal : isTerminal result = true
  · simp only [if_pos terminal]
    exact ((Acts.modify.andThen .modify).andThen conclude_acts).andThen .modify
  · simp only [if_neg terminal]
    exact (Acts.modify.andThen conclude_acts).andThen .modify

theorem completeSettlement_completes :
    Completes settings sub.id (·.beginSettlement index tag result) (·.endSettlement sub tag result) s
      (s.completeSettlement settings sub index tag result) := by
  rw [completeSettlement_eq]
  unfold reusedSettlement Lane.beginSettlement
  by_cases terminal : isTerminal result = true
  · simp only [if_pos terminal]
    have recorded := Acts.unseen .modify fun name => @view_recordOutcome
      (s.modify sub.id fun lane => lane.retireSettlement index) name result
    exact ⟨_, _, recorded.andThen .modify, endedSettlement_acts,
      fun sub known => (drainPending_flows known).trans (dispatch_flows known)⟩
  · simp only [if_neg terminal]
    exact ⟨_, _, .modify, endedSettlement_acts, fun _ _ => Flows.refl _ _ _⟩

theorem closeSettlement_acts :
    Acts sub.id s (s.closeSettlement sub index tag result) (·.closeSettlement index tag result) := by
  unfold closeSettlement Lane.closeSettlement
  cases result with
  | ok terminal => exact (Acts.modify.andThen .modify).andThen .modify
  | error error => exact ((Acts.modify.andThen .modify).unseen fun name => view_refuse ..).andThen .modify

end Settlement

def countedThrough (s : State) (through : Through) (result : Outcome) : State :=
  if throughAcked result && !through.affected.isEmpty then s.recordAck else s

def reusedThrough (s : State) (settings : Settings) (sub : Subscription) (through : Through)
    (result : Outcome) : State :=
  if throughTerminal result then
    ((((s.modify sub.id fun lane => lane.releaseAffected through.affected).countedThrough through
      result).drainPending settings).dispatch settings)
  else s

def endedThrough (s : State) (sub : Subscription) (through : Through)
    (result : Outcome) : State :=
  let s := if throughTerminal result then
      s.modify sub.id fun lane => lane.settleThrough through (throughAcked result)
    else s
  ((s.modify sub.id fun lane => lane.markAffected through.affected (throughState result)).refuseThrough
    sub.id through result).modify sub.id fun lane => lane.drainSettlementQueue

theorem completeSettleThrough_eq (index : Nat) (through : Through)
    (result : Outcome) :
    s.completeSettleThrough settings sub index through result =
      ((s.modify sub.id fun lane => lane.retireSettleThrough index).reusedThrough settings sub through
        result).endedThrough sub through result := by
  unfold completeSettleThrough reusedThrough endedThrough
  split <;> rfl

section Through

variable {index : Nat} {through : Through} {result : Outcome}

theorem view_countedThrough : (s.countedThrough through result).view id = s.view id := by
  unfold countedThrough
  split <;> rfl

theorem endedThrough_acts : Acts sub.id s (s.endedThrough sub through result) (·.endThrough through result) := by
  unfold endedThrough Lane.endThrough
  by_cases terminal : throughTerminal result = true
  · simp only [if_pos terminal]
    exact ((Acts.modify.andThen .modify).unseen fun name => view_refuseThrough ..).andThen .modify
  · simp only [if_neg terminal]
    exact (Acts.modify.unseen fun name => view_refuseThrough ..).andThen .modify

theorem completeSettleThrough_completes :
    Completes settings sub.id (·.beginThrough index through result) (·.endThrough through result) s
      (s.completeSettleThrough settings sub index through result) := by
  rw [completeSettleThrough_eq]
  unfold reusedThrough Lane.beginThrough
  by_cases terminal : throughTerminal result = true
  · simp only [if_pos terminal]
    exact ⟨_, _, (Acts.modify.andThen .modify).unseen fun name => view_countedThrough, endedThrough_acts,
      fun sub known => (drainPending_flows known).trans (dispatch_flows known)⟩
  · simp only [if_neg terminal]
    exact ⟨_, _, .modify, endedThrough_acts, fun _ _ => Flows.refl _ _ _⟩

theorem closeThrough_acts :
    Acts sub.id s (s.closeSettleThrough sub index through result) (·.closeThrough index through result) := by
  unfold closeSettleThrough Lane.closeThrough
  cases result <;> exact ((Acts.modify.andThen .modify).unseen fun name => view_refuseThrough ..).andThen .modify

end Through

end State

variable {sha256 : Bytes → Bytes} {e : Event}

def Refines (settings : Settings) (sub : Subscription) (s : State) (e : Event) (t : State) : Prop :=
  Path sub settings.earlyAckedCapacity (s.view sub.id) (t.view sub.id) ∨
    ∃ mark, e.marks s sub.id = some mark ∧ Marked (s.view sub.id) mark (t.view sub.id)

theorem Refines.unmoved (same : t.view sub.id = s.view sub.id) : Refines settings sub s e t :=
  .inl (Path.of_eq same)

theorem Refines.quietly {v : View} (move : Quiet sub settings.earlyAckedCapacity (s.view sub.id) v)
    (same : t.view sub.id = v) : Refines settings sub s e t :=
  .inl ((Path.single move).trans (Path.of_eq same))

theorem view_afterArm : s.afterArm.view id = s.view id := by
  unfold State.afterArm
  split
  · rename_i stage
    simp only [State.view, stage]
    rfl
  · rfl

theorem Completes.afterArm {begun ended : Lane → Lane} (completes : Completes settings id begun ended s t) :
    Completes settings id begun ended s t.afterArm := by
  obtain ⟨u, v, begins, ends, flows⟩ := completes
  exact ⟨u, v, begins, ends.unseen fun _ => view_afterArm, flows⟩

theorem view_modify_others {name : String} {v : View} (change : Lane → Lane)
    (here : s.view id = v) (ne : name ≠ id) : (s.modify name change).view id = v := by
  rw [State.view_modify_other ne, here]

theorem Refines.modify {name : String} (change : Lane → Lane)
    (own : name = sub.id → Refines settings sub s e (s.modify sub.id change)) :
    Refines settings sub s e (s.modify name change) := by
  by_cases same : name = sub.id
  · subst same
    exact own rfl
  · exact .unmoved (State.view_modify_other same _)

theorem filterMap_eraseIdx {Value Part : Type*} {select : Value → Option Part} {values : List Value}
    {index : Nat} {value : Value} (found : values[index]? = some value) (skipped : select value = none) :
    (values.eraseIdx index).filterMap select = values.filterMap select := by
  induction values generalizing index with
  | nil => rfl
  | cons first rest ih =>
    cases index with
    | zero =>
      obtain rfl : first = value := by simpa using found
      rw [List.eraseIdx_zero, List.tail_cons, List.filterMap_cons, skipped]
    | succ index =>
      rw [List.eraseIdx_cons_succ, List.filterMap_cons, List.filterMap_cons, ih (by simpa using found)]

theorem send_views {index : Nat} (stepped : step sha256 settings s (.send index) = some t) :
    ∃ sending, s.sending[index]? = some sending ∧ ((sending.id ≠ sub.id ∧ t.view sub.id = s.view sub.id) ∨
      (sending.id = sub.id ∧ ∃ rest, (s.view sub.id).sending.Perm ((sending.tag, sending.settlement) :: rest) ∧
        (t.view sub.id = { s.view sub.id with
            sending := rest
            commands := (s.view sub.id).commands ++ [.settle sending.tag sending.settlement] } ∨
          ∃ state, (state = .pending ∨ state = .lost) ∧ t.view sub.id = { s.view sub.id with
            sending := rest
            lane := (s.lanes sub.id).setState sending.tag state }))) := by
  simp only [step, Option.map_eq_some_iff] at stepped
  obtain ⟨sending, found, rfl⟩ := stepped
  refine ⟨sending, found, ?_⟩
  have taken : s.sending.Perm (sending :: s.sending.eraseIdx index) := by
    obtain ⟨inside, rfl⟩ := List.getElem?_eq_some_iff.mp found
    exact (List.getElem_cons_eraseIdx_perm inside).symm
  by_cases same : sending.id = sub.id
  · have mine : (s.view sub.id).sending.Perm ((sending.tag, sending.settlement) ::
        (s.sending.eraseIdx index).filterMap (Sending.own sub.id)) := by
      have perm := taken.filterMap (Sending.own sub.id)
      rwa [List.filterMap_cons, Sending.own, if_pos same] at perm
    refine .inr ⟨same, _, mine, ?_⟩
    unfold State.finishSend
    rw [same]
    split
    · exact .inr ⟨.lost, .inr rfl, State.view_modify_self _⟩
    · split
      · exact .inr ⟨.pending, .inl rfl, State.view_modify_self _⟩
      · exact .inl (by simp [State.view, Command.laneCommand])
  · have unsent : (s.sending.eraseIdx index).filterMap (Sending.own sub.id) =
        s.sending.filterMap (Sending.own sub.id) :=
      filterMap_eraseIdx found (if_neg same)
    have skipped : ({ s with sending := s.sending.eraseIdx index } : State).view sub.id = s.view sub.id := by
      simp only [State.view, unsent]
    refine .inl ⟨same, ?_⟩
    unfold State.finishSend
    split
    · exact view_modify_others _ skipped same
    · split
      · exact view_modify_others _ skipped same
      · simp [State.view, Command.laneCommand, same, unsent]

theorem send_refines {index : Nat} (stepped : step sha256 settings s (.send index) = some t) :
    Refines settings sub s (.send index) t := by
  obtain ⟨sending, -, ⟨-, same⟩ | ⟨-, rest, mine, queued | ⟨state, given, lost⟩⟩⟩ := @send_views _ sub _ _ _ _ stepped
  · exact .unmoved same
  · exact .quietly (.send mine) queued
  · exact .quietly (.giveUp mine given) lost

theorem mem_popped {tag : Nat} (held : s.holds id tag = true) : tag ∈ (s.view id).popped.map (·.tag) := by
  obtain ⟨item, member, own⟩ := List.any_eq_true.mp held
  simp only [Bool.and_eq_true, beq_iff_eq] at own
  exact List.mem_map.mpr ⟨item, List.mem_filter.mpr ⟨member, by simp [own.1]⟩, own.2⟩

theorem claim_views {name : String} {tag : Nat} {settlement : Settlement}
    (stepped : step sha256 settings s (.claim name tag settlement) = some t) :
    (name ≠ sub.id ∧ t.view sub.id = s.view sub.id) ∨
    (name = sub.id ∧ tag ∈ (s.view sub.id).popped.map (·.tag) ∧
      ∃ token, (s.lanes sub.id).tokens tag = some token ∧ token.state = .pending ∧
        t.view sub.id = { s.view sub.id with
          lane := (s.lanes sub.id).setState tag settlement.terminal
          sending := (s.view sub.id).sending ++ [(tag, settlement)] }) := by
  simp only [step, Option.ite_none_right_eq_some, Option.some.injEq] at stepped
  obtain ⟨⟨held, pending⟩, rfl⟩ := stepped
  by_cases same : name = sub.id
  · subst same
    obtain ⟨token, found, state⟩ := (Option.any_eq_true _ _).mp pending
    refine .inr ⟨rfl, mem_popped held, token, found, by simpa using state, ?_⟩
    rw [State.view_modify_self]
    simp [State.view, Sending.own]
  · refine .inl ⟨same, ?_⟩
    rw [State.view_modify_other same]
    simp [State.view, Sending.own, same]

theorem claim_refines {name : String} {tag : Nat} {settlement : Settlement}
    (stepped : step sha256 settings s (.claim name tag settlement) = some t) :
    Refines settings sub s (.claim name tag settlement) t := by
  obtain ⟨-, same⟩ | ⟨-, popped, token, found, pending, claimed⟩ := @claim_views _ sub _ _ _ _ _ _ stepped
  · exact .unmoved same
  · exact .quietly (.claim settlement popped found pending) claimed

theorem settleThrough_refines {name : String} {tag : Nat}
    (stepped : step sha256 settings s (.settleThrough name tag) = some t) :
    Refines settings sub s (.settleThrough name tag) t := by
  simp only [step, State.enqueue, Option.ite_none_right_eq_some, Option.ite_none_left_eq_some,
    Option.some.injEq] at stepped
  obtain ⟨held, -, rfl⟩ := stepped
  by_cases same : name = sub.id
  · subst same
    refine .quietly (.request (mem_popped held)) ?_
    simp [State.view, Command.laneCommand]
  · refine .unmoved ?_
    simp [State.view, Command.laneCommand, same]

theorem pop_refines (stepped : step sha256 settings s .pop = some t) : Refines settings sub s .pop t := by
  simp only [step] at stepped
  split at stepped
  · cases stepped
  · rename_i item rest queued
    cases stepped
    by_cases same : item.subscription = sub.id
    · have front : (s.view sub.id).queue = item :: rest.filterMap (QueueItem.itemOf sub.id) := by
        simp [State.view, queued, QueueItem.itemOf, same]
      refine .quietly (.pop front) ?_
      simp [State.view, same]
    · refine .unmoved ?_
      simp [State.view, queued, QueueItem.itemOf, same]
  · rename_i error rest queued
    cases stepped
    refine .unmoved ?_
    simp [State.view, queued, List.filterMap_cons, QueueItem.itemOf]

theorem control_refines (stepped : step sha256 settings s .control = some t) :
    Refines settings sub s .control t := by
  have handled : ∃ command rest, s.control = command :: rest ∧ s.stage.winding = false ∧
      t = (({ s with control := rest } : State).handleCommand settings command).afterArm := by
    simp only [step] at stepped
    split at stepped
    all_goals first
      | (rename_i command rest stage control
         exact ⟨command, rest, control, by rw [stage]; rfl, (Option.some.inj stepped).symm⟩)
      | cases stepped
  obtain ⟨command, rest, control, live, rfl⟩ := handled
  have kept : ((({ s with control := rest } : State).handleCommand settings command).afterArm).view sub.id =
      (({ s with control := rest } : State).handleCommand settings command).view sub.id :=
    view_afterArm
  cases mine : command.laneCommand sub.id with
  | none =>
    refine .unmoved ?_
    rw [kept, State.handleCommand_other mine]
    simp [State.view, control, mine]
  | some laneCommand =>
    have head : (s.view sub.id).commands = laneCommand :: rest.filterMap (Command.laneCommand sub.id) := by
      simp [State.view, control, mine]
    have marks : Event.control.marks s sub.id = s.takesUp sub.id command := by
      simp [Event.marks, control]
    have ready : (s.view sub.id).Ready := ⟨rfl, live⟩
    unfold Refines
    rw [kept, marks]
    cases command with
    | settle name tag settlement =>
      simp only [Command.laneCommand, Option.ite_none_right_eq_some, Option.some.injEq] at mine
      obtain ⟨rfl, rfl⟩ := mine
      exact (State.handleSettle_moves ready head rfl).imp Path.single id
    | settleThrough name tag =>
      simp only [Command.laneCommand, Option.ite_none_right_eq_some, Option.some.injEq] at mine
      obtain ⟨rfl, rfl⟩ := mine
      exact (State.handleSettleThrough_moves ready head rfl).imp Path.single id
    | settleForeign token | prefetchStats => cases mine

theorem controlDry_refines (stepped : step sha256 settings s .controlDry = some t) :
    Refines settings sub s .controlDry t := by
  simp only [step] at stepped
  split at stepped
  · rename_i stage _
    cases stepped
    refine .unmoved ?_
    simp [State.view, stage, Stage.winding, Stage.ended]
  · rename_i stage _
    cases stepped
    have ready : (s.view sub.id).Ready := ⟨rfl, by rw [State.view, stage]; rfl⟩
    refine .inl ((Path.single (.flush ready)).trans ((Path.single (.windUp rfl)).trans (Path.of_eq ?_)))
    simp [State.view, State.flushAcked, stage, Stage.winding, Stage.ended]
  · cases stepped

theorem incomingDry_refines (stepped : step sha256 settings s .incomingDry = some t) :
    Refines settings sub s .incomingDry t := by
  simp only [step, Option.ite_none_right_eq_some, Option.some.injEq] at stepped
  obtain ⟨stage, rfl⟩ := stepped
  split
  · refine .quietly (.flush ⟨rfl, by rw [State.view, stage]; rfl⟩) ?_
    simp [State.view, State.flushAcked, stage, Stage.winding, Stage.ended]
  · refine .unmoved ?_
    simp [State.view, stage, Stage.winding, Stage.ended]

theorem startRelease_releases {future : SettlementFuture} {item : Item} {delay : Duration}
    (started : future.progress = .started) (release : future.settlement = .release delay)
    (delayed : delay ≠ .zero) (answer : Except PublishError Unit) :
    future.Releases (startRelease sha256 sub item delay answer) := by
  unfold startRelease
  split
  · rename_i error failed
    have kinds : error.kind ≠ .transport ∧ error.kind ≠ .staleGeneration := by
      unfold Subscription.delayedProperties at failed
      split at failed
      · cases failed
        exact ⟨nofun, nofun⟩
      · cases failed
        exact ⟨nofun, nofun⟩
      · split at failed
        · cases failed
          exact ⟨nofun, nofun⟩
        · split at failed
          · cases failed
            exact ⟨nofun, nofun⟩
          · split at failed
            · cases failed
              exact ⟨nofun, nofun⟩
            · cases failed
    exact .unpublished error started release delayed kinds.1 kinds.2
  · exact .unpublished _ started release delayed nofun nofun
  · exact .publish started release delayed

theorem publish_refines {name : String} {index : Nat} {answer : Except PublishError Unit}
    (stepped : step sha256 settings s (.publish name index answer) = some t) :
    Refines settings sub s (.publish name index answer) t := by
  simp only [step, Option.bind_eq_some_iff] at stepped
  obtain ⟨found, runtime, future, pending, stepped⟩ := stepped
  split at stepped
  · rename_i delay token started release _
    simp only [Option.ite_none_right_eq_some, Option.some.injEq] at stepped
    obtain ⟨⟨-, delayed⟩, rfl⟩ := stepped
    refine .modify _ fun same => ?_
    subst same
    exact .quietly (.progress _ pending (startRelease_releases started release delayed answer))
      (State.view_modify_self _)
  · cases stepped

theorem published_refines {name : String} {index : Nat} {answer : Except PublishError Bool}
    (stepped : step sha256 settings s (.published name index answer) = some t) :
    Refines settings sub s (.published name index answer) t := by
  simp only [step, Option.bind_eq_some_iff] at stepped
  obtain ⟨future, pending, stepped⟩ := stepped
  split at stepped
  · rename_i publishing
    simp only [Option.ite_none_right_eq_some, Option.some.injEq] at stepped
    obtain ⟨-, rfl⟩ := stepped
    refine .modify _ fun same => ?_
    subst same
    match answer with
    | .ok true => exact .quietly (.confirm pending publishing) (State.view_modify_self _)
    | .ok false =>
      have failed := SettlementFuture.Releases.unconfirmed
        { kind := .publish, message := "delayed release was not confirmed" } publishing nofun nofun
      exact .quietly (.progress _ pending failed) (State.view_modify_self _)
    | .error error =>
      have failed := SettlementFuture.Releases.unconfirmed
        { kind := .publish, message := error.message } publishing nofun nofun
      exact .quietly (.progress _ pending failed) (State.view_modify_self _)
  · cases stepped

theorem perform_refines {name : String} {index : Nat} {answer : Except TransportError Unit}
    (stepped : step sha256 settings s (.perform name index answer) = some t) :
    Refines settings sub s (.perform name index answer) t := by
  simp only [step, Option.bind_eq_some_iff, Option.ite_none_right_eq_some, Option.some.injEq] at stepped
  obtain ⟨future, pending, frame, next, -, rfl⟩ := stepped
  refine .modify _ fun same => ?_
  subst same
  refine .inr ⟨.frame frame (reached answer), by simp [Event.marks, pending, next], ?_⟩
  rw [State.view_modify_self]
  exact .perform answer pending next

theorem performThrough_refines {name : String} {index : Nat} {answer : Except TransportError Unit}
    (stepped : step sha256 settings s (.performThrough name index answer) = some t) :
    Refines settings sub s (.performThrough name index answer) t := by
  simp only [step, Option.bind_eq_some_iff] at stepped
  obtain ⟨future, pending, stepped⟩ := stepped
  split at stepped
  · rename_i unanswered
    simp only [Option.ite_none_right_eq_some, Option.some.injEq] at stepped
    obtain ⟨-, rfl⟩ := stepped
    refine .modify _ fun same => ?_
    subst same
    refine .inr ⟨.frame (.ack future.through.target true) (reached answer),
      by simp [Event.marks, pending], ?_⟩
    rw [State.view_modify_self]
    exact .performThrough answer pending unanswered
  · cases stepped

theorem runTask_refines {name : String} {index : Nat} {answer : Except TransportError Unit}
    (stepped : step sha256 settings s (.runTask name index answer) = some t) :
    Refines settings sub s (.runTask name index answer) t := by
  simp only [step, Option.bind_eq_some_iff, Option.ite_none_left_eq_some, Option.some.injEq] at stepped
  obtain ⟨frame, spawned, -, rfl⟩ := stepped
  refine .modify _ fun same => ?_
  subst same
  refine .inr ⟨.frame frame (reached answer), by simp [Event.marks, spawned], ?_⟩
  rw [State.view_modify_self]
  exact .task answer spawned

section Known

variable (known : settings.Knows sub)

include known

theorem deliver_refines {name : String} {d : Delivery}
    (stepped : step sha256 settings s (.deliver name d) = some t) :
    Refines settings sub s (.deliver name d) t := by
  simp only [step, Option.bind_eq_some_iff, Option.ite_none_right_eq_some, Option.some.injEq] at stepped
  obtain ⟨found, runtime, next, rfl⟩ := stepped
  by_cases same : name = sub.id
  · subst same
    obtain rfl := Option.some.inj (runtime.symm.trans known)
    refine .quietly (.deliver d next) ?_
    rw [State.view_modify_self]
    simp [State.view, arriving]
  · refine .unmoved ?_
    rw [State.view_modify_other same]
    simp [State.view, ofSub_cons_other _ _ same]

theorem incoming_flows (stepped : step sha256 settings s .incoming = some t) :
    Flows sub settings.earlyAckedCapacity (s.view sub.id) (t.view sub.id) := by
  have handled : ∃ name result rest, s.incoming = (name, result) :: rest ∧
      t = (({ s with incoming := rest } : State).handleIncoming settings name result).afterArm := by
    simp only [step] at stepped
    split at stepped
    case h_3 => cases stepped
    all_goals
      obtain ⟨-, stepped⟩ := Option.ite_none_right_eq_some.mp stepped
      exact ⟨_, _, _, ‹_›, (Option.some.inj stepped).symm⟩
  obtain ⟨name, result, rest, arrives, rfl⟩ := handled
  rw [view_afterArm]
  exact State.handleIncoming_flows known arrives

theorem notified_flows (stepped : step sha256 settings s .notified = some t) :
    Flows sub settings.earlyAckedCapacity (s.view sub.id) (t.view sub.id) := by
  simp only [step, Option.ite_none_right_eq_some, Option.some.injEq] at stepped
  obtain ⟨-, rfl⟩ := stepped
  rw [view_afterArm]
  exact @State.dispatch_flows settings sub { s with notified := false } known

theorem completion_views {begun ended closed : Lane → Lane} (runtime : settings.Knows other)
    (done : Completion settings other.id begun ended closed s t) :
    (other.id ≠ sub.id ∧ Flows sub settings.earlyAckedCapacity (s.view sub.id) (t.view sub.id)) ∨
    (other = sub ∧ Concludes sub settings.earlyAckedCapacity (s.view sub.id) (begun (s.lanes sub.id)) ended
      (closed (s.lanes sub.id)) (t.view sub.id)) := by
  by_cases same : other.id = sub.id
  · obtain rfl := known.unique runtime same
    refine .inr ⟨rfl, ?_⟩
    obtain ⟨live, u, v, begins, ends, flows⟩ | ⟨winding, acts⟩ := done
    · have flows := flows _ known
      rw [begins.own] at flows
      rw [ends.own]
      exact .live live rfl flows
    · rw [acts.own]
      exact .winding winding
  · refine .inl ⟨same, ?_⟩
    obtain ⟨-, u, v, begins, ends, flows⟩ | ⟨-, acts⟩ := done
    · rw [ends.others _ same, ← begins.others _ same]
      exact flows sub known
    · exact Flows.of_eq (acts.others _ same)

theorem settled_views {name : String} {index : Nat}
    (stepped : step sha256 settings s (.settled name index) = some t) :
    (name ≠ sub.id ∧ Flows sub settings.earlyAckedCapacity (s.view sub.id) (t.view sub.id)) ∨
    (name = sub.id ∧ ∃ future result, (s.lanes sub.id).pendingSettlements[index]? = some future ∧
      future.progress = .finished result ∧ Concludes sub settings.earlyAckedCapacity (s.view sub.id)
        ((s.lanes sub.id).beginSettlement index future.tag result) (·.endSettlement sub future.tag result)
        ((s.lanes sub.id).closeSettlement index future.tag result) (t.view sub.id)) := by
  simp only [step, Option.bind_eq_some_iff] at stepped
  obtain ⟨other, runtime, future, pending, stepped⟩ := stepped
  obtain rfl : other.id = name := Settings.runtime_id runtime
  have done : ∃ result, future.progress = .finished result ∧ Completion settings other.id
      (·.beginSettlement index future.tag result) (·.endSettlement other future.tag result)
      (·.closeSettlement index future.tag result) s t := by
    split at stepped
    · rename_i result finished stage
      cases stepped
      exact ⟨result, finished, .live (by rw [stage]; rfl) State.completeSettlement_completes.afterArm⟩
    · rename_i result finished stage
      cases stepped
      exact ⟨result, finished, .winding (by rw [stage]; rfl) State.closeSettlement_acts⟩
    · cases stepped
  obtain ⟨result, finished, done⟩ := done
  rcases completion_views known runtime done with other | ⟨rfl, concludes⟩
  · exact .inl other
  · exact .inr ⟨rfl, future, result, pending, finished, concludes⟩

theorem throughSettled_views {name : String} {index : Nat}
    (stepped : step sha256 settings s (.throughSettled name index) = some t) :
    (name ≠ sub.id ∧ Flows sub settings.earlyAckedCapacity (s.view sub.id) (t.view sub.id)) ∨
    (name = sub.id ∧ ∃ future result, (s.lanes sub.id).pendingSettleThroughs[index]? = some future ∧
      future.result = some result ∧ Concludes sub settings.earlyAckedCapacity (s.view sub.id)
        ((s.lanes sub.id).beginThrough index future.through result) (·.endThrough future.through result)
        ((s.lanes sub.id).closeThrough index future.through result) (t.view sub.id)) := by
  simp only [step, Option.bind_eq_some_iff] at stepped
  obtain ⟨other, runtime, future, pending, stepped⟩ := stepped
  obtain rfl : other.id = name := Settings.runtime_id runtime
  have done : ∃ result, future.result = some result ∧ Completion settings other.id
      (·.beginThrough index future.through result) (·.endThrough future.through result)
      (·.closeThrough index future.through result) s t := by
    split at stepped
    · rename_i result finished stage
      cases stepped
      exact ⟨result, finished, .live (by rw [stage]; rfl) State.completeSettleThrough_completes.afterArm⟩
    · rename_i result finished stage
      cases stepped
      exact ⟨result, finished, .winding (by rw [stage]; rfl) State.closeThrough_acts⟩
    · cases stepped
  obtain ⟨result, finished, done⟩ := done
  rcases completion_views known runtime done with other | ⟨rfl, concludes⟩
  · exact .inl other
  · exact .inr ⟨rfl, future, result, pending, finished, concludes⟩

theorem settled_refines {name : String} {index : Nat}
    (stepped : step sha256 settings s (.settled name index) = some t) :
    Refines settings sub s (.settled name index) t := by
  rcases settled_views known stepped with ⟨-, flows⟩ | ⟨-, future, result, found, finished, concludes⟩
  · exact .inl flows.path
  · refine .inl (concludes.path (.settlement future.tag result) (fun live => ?_) (fun _ => .endSettlement rfl)
      fun winding => .closeSettlement winding found finished)
    exact .beginSettlement rfl live found finished

theorem throughSettled_refines {name : String} {index : Nat}
    (stepped : step sha256 settings s (.throughSettled name index) = some t) :
    Refines settings sub s (.throughSettled name index) t := by
  rcases throughSettled_views known stepped with ⟨-, flows⟩ | ⟨-, future, result, found, finished, concludes⟩
  · exact .inl flows.path
  · refine .inl (concludes.path (.through future.through result) (fun live => ?_) (fun _ => .endThrough rfl)
      fun winding => .closeThrough winding found finished)
    exact .beginThrough rfl live found finished

end Known

theorem step_refines (known : settings.Knows sub) (stepped : step sha256 settings s e = some t) :
    Refines settings sub s e t := by
  cases e with
  | deliver name d => exact deliver_refines known stepped
  | sourceFailed name error =>
    cases stepped
    refine .unmoved ?_
    by_cases same : name = sub.id
    · simp [State.view, same, List.filterMap_cons, arriving]
    · simp [State.view, ofSub_cons_other _ _ same]
  | pop => exact pop_refines stepped
  | wake | drainErrors | close =>
    cases stepped
    exact .unmoved rfl
  | claim name tag settlement => exact claim_refines stepped
  | send index => exact send_refines stepped
  | settleThrough name tag => exact settleThrough_refines stepped
  | settleForeign token =>
    simp only [step, State.enqueue, Option.ite_none_left_eq_some, Option.some.injEq] at stepped
    obtain ⟨-, -, rfl⟩ := stepped
    exact .unmoved (by simp [State.view, Command.laneCommand])
  | prefetchStats =>
    simp only [step, State.enqueue, Option.ite_none_left_eq_some, Option.some.injEq] at stepped
    obtain ⟨-, rfl⟩ := stepped
    exact .unmoved (by simp [State.view, Command.laneCommand])
  | control => exact control_refines stepped
  | controlDry => exact controlDry_refines stepped
  | incoming => exact .inl (incoming_flows known stepped).path
  | incomingDry => exact incomingDry_refines stepped
  | notified => exact .inl (notified_flows known stepped).path
  | tick =>
    simp only [step, Option.ite_none_right_eq_some, Option.some.injEq] at stepped
    obtain ⟨-, rfl⟩ := stepped
    exact .unmoved view_afterArm
  | settled name index => exact settled_refines known stepped
  | throughSettled name index => exact throughSettled_refines known stepped
  | closing =>
    simp only [step, Option.ite_none_right_eq_some, Option.some.injEq] at stepped
    obtain ⟨⟨stage, -⟩, rfl⟩ := stepped
    exact .unmoved (by simp [State.view, stage, Stage.winding, Stage.ended])
  | expire =>
    simp only [step, Option.ite_none_right_eq_some, Option.some.injEq] at stepped
    obtain ⟨stage, rfl⟩ := stepped
    have winding : (s.view sub.id).winding = true := by
      change s.stage.winding = true
      rw [stage]
      rfl
    refine .quietly (.dropFutures winding) ?_
    simp [State.view, State.dropFutures, stage, Stage.winding, Stage.ended]
  | publish name index answer => exact publish_refines stepped
  | published name index answer => exact published_refines stepped
  | perform name index answer => exact perform_refines stepped
  | performThrough name index answer => exact performThrough_refines stepped
  | runTask name index answer => exact runTask_refines stepped

open StepMachine

theorem Path.keeps {property : View → Prop} {v w : View} {capacity : Nat} (path : Path sub capacity v w)
    (quiet : ∀ v w, property v → Quiet sub capacity v w → property w) (start : property v) :
    property w := by
  induction path with
  | refl => exact start
  | tail _ move ih => exact quiet _ _ ih move

def View.initial : View := ⟨{}, [], [], [], [], [], [], false, none, false⟩

theorem view_invariant {Allowed : State → Event → Prop} {property : View → Prop}
    (known : settings.Knows sub) (initial : property .initial)
    (quiet : ∀ v w, property v → Quiet sub settings.earlyAckedCapacity v w → property w)
    (marked : ∀ s e mark w, Allowed s e → e.marks s sub.id = some mark → property (s.view sub.id) →
      Marked (s.view sub.id) mark w → property w)
    (reached : Reaches (machine sha256 settings) Allowed s) : property (s.view sub.id) := by
  induction reached with
  | start first =>
    obtain rfl := first
    exact initial
  | next _ allowed stepped ih =>
    rcases step_refines known stepped with path | ⟨mark, marks, move⟩
    · exact path.keeps quiet ih
    · exact marked _ _ mark _ allowed marks ih move

/-- The runs of one channel by itself, with the decisions and frames of each, the last one first. -/
inductive Runs (sub : Subscription) (capacity : Nat) : List Mark → View → Prop where
  | start : Runs sub capacity [] .initial
  | quiet {marks : List Mark} {v w : View} : Runs sub capacity marks v → Quiet sub capacity v w →
      Runs sub capacity marks w
  | marked {marks : List Mark} {v w : View} {mark : Mark} : Runs sub capacity marks v → Marked v mark w →
      Runs sub capacity (mark :: marks) w

theorem Runs.path {capacity : Nat} {marks : List Mark} {v w : View} (runs : Runs sub capacity marks v)
    (path : Path sub capacity v w) : Runs sub capacity marks w :=
  path.keeps (fun _ _ before move => before.quiet move) runs

/-- Every run of the actor is, seen from one subscription, a run of its channel by itself, with decisions
and frames that the actor takes for it in that order. -/
theorem actor_runs_channel {Allowed : State → Event → Prop} {trace : List (State × Event)}
    (known : settings.Knows sub) (traced : Traced (machine sha256 settings) Allowed trace s) :
    ∃ marks, marks.Sublist (trace.filterMap fun taken => taken.2.marks taken.1 sub.id) ∧
      Runs sub settings.earlyAckedCapacity marks (s.view sub.id) := by
  induction traced with
  | start first =>
    obtain rfl := first
    exact ⟨[], .slnil, .start⟩
  | @next trace s t e _ _ stepped ih =>
    obtain ⟨marks, listed, runs⟩ := ih
    rcases step_refines known stepped with path | ⟨mark, marked, move⟩
    · refine ⟨marks, listed.trans ?_, runs.path path⟩
      rw [List.filterMap_cons]
      split
      · exact .refl _
      · exact List.sublist_cons_self _ _
    · refine ⟨mark :: marks, ?_, runs.marked move⟩
      simp only [List.filterMap_cons, marked]
      exact listed.cons_cons mark

/-- The mail is rejected between the arrival and the acknowledgement of a log. -/
theorem mail_runs_beside_logs : ∃ trace s,
    Traced (machine (fun bytes => bytes) mailAndLogs) (fun _ _ => True) trace s ∧
    (trace.filterMap fun taken => taken.2.marks taken.1 "mail") =
      [.frame (.reject 1 false) true, .settle 1 (.reject false)] ∧
    (trace.filterMap fun taken => taken.2.marks taken.1 "logs") = [.frame (.ack 1 true) true] ∧
    ∃ marks, marks.Sublist (trace.filterMap fun taken => taken.2.marks taken.1 "mail") ∧
      Runs { jobs with id := "mail", weight := 3, maxBufferedBytes := 10 } mailAndLogs.earlyAckedCapacity marks
        (s.view "mail") := by
  obtain ⟨trace, s, traced, mail, logs⟩ := exists_traced (machine (fun bytes => bytes) mailAndLogs) (fun _ _ => True) rfl
    ([.deliver "logs" { tag := 1 }, .deliver "mail" { tag := 1 }, .controlDry, .incoming, .incoming, .incomingDry,
      .pop, .pop, .claim "mail" 1 (.reject false), .claim "logs" 1 .ack, .send 0, .send 0] ++ handling 2 ++
      [.performThrough "logs" 0 (.ok ()), .perform "mail" 0 (.ok ())])
    (fun trace _ => (trace.filterMap fun taken => taken.2.marks taken.1 "mail") =
        [.frame (.reject 1 false) true, .settle 1 (.reject false)] ∧
      (trace.filterMap fun taken => taken.2.marks taken.1 "logs") = [.frame (.ack 1 true) true]) (by decide +kernel)
  have known : mailAndLogs.Knows { jobs with id := "mail", weight := 3, maxBufferedBytes := 10 } := rfl
  exact ⟨trace, s, traced, mail, logs, actor_runs_channel known traced⟩

end RabbitRs.Consumer
