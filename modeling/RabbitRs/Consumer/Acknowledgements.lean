import RabbitRs.Consumer.Choices
import RabbitRs.Consumer.Settlements

/-!
What an acknowledgement covers: every rejection decided is still under way or reached the broker,
and every tag the broker holds is on its way in, pending or decided.
-/

namespace RabbitRs.Consumer

open StepMachine
open Ordered (Table)

variable {sub : Subscription} {capacity : Nat} {v w : View}

inductive View.Rejecting (v : View) (tag : Nat) : Prop where
  | reached : tag ∈ v.lane.rejectReached → Rejecting v tag
  | staged {future : SettlementFuture} {requeue : Bool} : future ∈ v.lane.staged →
      future.frame = some (.reject tag requeue) → Rejecting v tag
  | task {requeue : Bool} : .reject tag requeue ∈ v.lane.tasks → Rejecting v tag
  | closed : v.Over → Rejecting v tag

structure Upheld (v : View) : Prop where
  rejects : ∀ tag ∈ v.lane.rejectChosen, v.Rejecting tag
  reached : ∀ tag ∈ v.lane.rejectReached, tag ∈ v.lane.arrived.map (·.tag) ∧ tag ∉ v.lane.outstanding
  accounted : ∀ tag ∈ v.lane.outstanding,
    tag ∈ v.incoming.map (·.tag) ∨ tag ∈ v.lane.ledger.pending.keys ∨ v.lane.Chose tag

theorem Quiet.closed (move : Quiet sub capacity v w) (gone : v.Over) : w.Over := by
  obtain ⟨winding, singles, throughs, finishing⟩ := gone
  cases move
  case flow flow =>
    have futures : w.lane.pendingSettlements = v.lane.pendingSettlements := congrArg Desk.pendingSettlements flow.desk
    exact ⟨flow.same_winding.trans winding, futures.trans singles, (Lane.futures_of_desk flow.desk).trans throughs,
      flow.same_finishing.trans finishing⟩
  case flush ready => cases winding.symm.trans ready.2
  case progress found _ | confirm found _ | beginSettlement found _ => simp [singles] at found
  case beginThrough found _ | closeThrough found _ => simp [throughs] at found
  case endSettlement under | endThrough under => cases finishing.symm.trans under
  case closeSettlement found _ => simp [singles] at found
  case windUp => exact ⟨rfl, singles, throughs, finishing⟩
  case dropFutures => exact ⟨winding, rfl, rfl, finishing⟩
  all_goals exact ⟨winding, singles, throughs, finishing⟩

theorem Lane.pending_of_books {lane other : Lane} {tag : Nat} (same : lane.books = other.books)
    (pending : tag ∈ other.ledger.pending.keys) : tag ∈ lane.ledger.pending.keys :=
  ledger_of_books same ▸ pending

theorem Lane.outstanding_of_core {lane other : Lane} {tag : Nat} (same : lane.core = other.core)
    (member : tag ∈ lane.outstanding) : tag ∈ other.outstanding := by
  have parts : lane.outstanding = other.outstanding := congrArg Core.outstanding same
  exact parts ▸ member

theorem Quiet.outstanding (move : Quiet sub capacity v w) : ∀ tag ∈ w.lane.outstanding,
    tag ∈ v.lane.outstanding ∨ v.lane.lastTag < tag ∧ tag ∈ w.incoming.map (·.tag) := by
  intro tag member
  cases move
  case flow flow => exact .inl (flow.outstanding.1 ▸ member)
  case deliver d next =>
    dsimp only at member
    split at member
    · exact .inl member
    · rcases List.mem_append.mp member with older | newest
      · exact .inl older
      · obtain rfl := List.mem_singleton.mp newest
        refine .inr ⟨by omega, ?_⟩
        rw [List.map_append]
        exact List.mem_append_right _ List.mem_cons_self
  case flush => exact .inl (Lane.outstanding_of_core Lane.flushAcked_core member)
  case beginSettlement => exact .inl (Lane.beginSettlement_outstanding ▸ member)
  case beginThrough => exact .inl (Lane.beginThrough_outstanding ▸ member)
  case endSettlement => exact .inl (Lane.endSettlement_outstanding ▸ member)
  case endThrough => exact .inl (Lane.endThrough_outstanding ▸ member)
  case closeSettlement index future result _ _ _ =>
    have closed := Lane.outstanding_of_core (@Lane.closeSettlement_core v.lane index future.tag result) member
    exact .inl closed
  case closeThrough index future result _ _ _ =>
    have closed := Lane.outstanding_of_core (@Lane.closeThrough_core v.lane index future.through result) member
    exact .inl closed
  all_goals exact .inl member

theorem isTerminal_cases {tag : Nat} {result : Outcome}
    (terminal : State.isTerminal result = true) :
    answeredBy result = true ∨ ∃ frame, concludes sub tag result = some frame := by
  cases result with
  | ok state => exact .inl rfl
  | error error =>
    obtain ⟨kind, message, source⟩ := error
    cases kind
    case transport | staleGeneration => exact .inl rfl
    case maxAttempts | invalidDelay => exact .inr ⟨_, rfl⟩
    all_goals cases terminal

theorem Lane.spawn_chose {lane : Lane} (frame : Frame) : (lane.spawn frame).Chose frame.tag := by
  cases frame with
  | ack => exact .inl (List.mem_append_right _ List.mem_cons_self)
  | reject => exact .inr (List.mem_append_right _ List.mem_cons_self)

theorem Lane.chose_of_choices {lane other : Lane} {tag : Nat} (same : lane.choices = other.choices)
    (chose : other.Chose tag) : lane.Chose tag := by
  injection same with acks rejects
  rw [Chose, acks, rejects]
  exact chose

theorem Lane.discard_accounts {lane : Lane} {d : Delivery} {tag : Nat} (acked : sub.noAck = false)
    (pending : tag ∈ lane.ledger.pending.keys) :
    tag ∈ (lane.discard sub d).ledger.pending.keys ∨ (lane.discard sub d).Chose tag := by
  rw [ledger_of_books (discard_books sub d)]
  by_cases own : tag = d.tag
  · subst own
    have spawned : sub.settlePoison (some sub.identity) d.tag =
        some (spawnPoisonSettlement sub.hasDeadLetter d.tag).1 := by
      simp [Subscription.settlePoison, acked]
    refine .inr (chose_of_choices (discard_choices d) ?_)
    rw [spawned, Option.elim_some]
    have chose := @spawn_chose lane (spawnPoisonSettlement sub.hasDeadLetter d.tag).1
    rwa [(spawnPoisonSettlement_frame _ _).1] at chose
  · exact .inl (Table.mem_keys_erase.mpr ⟨pending, own⟩)

theorem Flow.accounts (acked : sub.noAck = false) (flow : Flow sub capacity v w) {tag : Nat}
    (known : tag ∈ v.incoming.map (·.tag) ∨ tag ∈ v.lane.ledger.pending.keys) :
    tag ∈ w.incoming.map (·.tag) ∨ tag ∈ w.lane.ledger.pending.keys ∨ w.lane.Chose tag := by
  have received : ∀ {d : Delivery} {rest : List Delivery}, v.incoming = d :: rest →
      tag ∈ rest.map (·.tag) ∨ tag ∈ (v.lane.receive d).ledger.pending.keys := by
    intro d rest front
    rw [front, List.map_cons, List.mem_cons] at known
    rcases known with (rfl | later) | pending
    · exact .inr (Table.mem_keys_insert.mpr (.inl rfl))
    · exact .inl later
    · exact .inr (Table.mem_keys_insert.mpr (.inr pending))
  cases flow
  case park front _ | enroll front _ _ => exact (received front).imp_right .inl
  case refuse front _ => exact (received front).imp_right fun pending => Lane.discard_accounts acked pending
  case unparkOversized | poison => exact known.imp_right fun pending => Lane.discard_accounts acked pending
  case tokenize d _ _ _ _ | hand d _ _ _ _ =>
    have keys := @Lane.tokenize_keys v.lane (sub.handed d)
    exact known.imp_right fun pending => .inl (keys ▸ pending)
  all_goals exact known.imp_right .inl

theorem Quiet.accounts (acked : sub.noAck = false) (move : Quiet sub capacity v w) (kept : Kept sub v)
    (backing : Backing v) {tag : Nat}
    (known : tag ∈ v.incoming.map (·.tag) ∨ tag ∈ v.lane.ledger.pending.keys) :
    tag ∈ w.incoming.map (·.tag) ∨ tag ∈ w.lane.ledger.pending.keys ∨ w.lane.Chose tag := by
  cases move
  case flow flow => exact flow.accounts acked known
  case deliver d _ =>
    refine known.imp (fun older => ?_) .inl
    rw [List.map_append]
    exact List.mem_append_left _ older
  case flush =>
    exact known.imp_right fun pending => .inl (Lane.pending_of_books (Lane.books_of_core Lane.flushAcked_core) pending)
  case beginSettlement =>
    exact known.imp_right fun pending => .inl (Lane.pending_of_books (Lane.beginSettlement_books _ _ _) pending)
  case beginThrough =>
    exact known.imp_right fun pending => .inl (Lane.pending_of_books (Lane.beginThrough_books _ _ _) pending)
  case endSettlement own result under =>
    refine known.imp_right fun pending => ?_
    have books := @Lane.endSettlement_books v.lane sub own result
    split at books
    · rename_i terminal
      by_cases same : tag = own
      · subst same
        refine .inr (Lane.chose_of_choices Lane.endSettlement_choices ?_)
        rcases @isTerminal_cases sub tag result terminal with answered | ⟨frame, spawned⟩
        · rw [concludes_of_answeredBy answered]
          exact backing.finishing tag result under answered
        · rw [spawned, Option.elim_some]
          have chose := @Lane.spawn_chose v.lane frame
          rwa [(concludes_frame spawned).1] at chose
      · exact .inl (Lane.pending_of_books books (Table.mem_keys_erase.mpr ⟨pending, same⟩))
    · exact .inl (Lane.pending_of_books books pending)
  case endThrough through result under =>
    refine known.imp_right fun pending => ?_
    have staged : through ∈ v.throughs := by simp [View.throughs, under, Finishing.through?]
    have books := @Lane.endThrough_books v.lane through result
    by_cases covered : tag ∈ through.affected
    · exact .inr (Lane.chose_of_choices Lane.endThrough_choices (.inl (backing.throughs through staged covered)))
    · split at books
      · have left := (kept.booked.balanced.mem_settleThrough staged).mpr ⟨pending, covered⟩
        exact .inl (Lane.pending_of_books books left)
      · exact .inl (Lane.pending_of_books books pending)
  case closeSettlement index future result _ _ _ =>
    have books : (v.lane.closeSettlement index future.tag result).books = (v.lane.recordSettled [future.tag]).books :=
      congrArg Core.books (Lane.closeSettlement_core index future.tag result)
    exact known.imp_right fun pending => .inl (Lane.pending_of_books books pending)
  case closeThrough index future result _ _ _ =>
    have books : (v.lane.closeThrough index future.through result).books =
        (v.lane.recordSettled future.through.affected).books :=
      congrArg Core.books (Lane.closeThrough_core index future.through result)
    exact known.imp_right fun pending => .inl (Lane.pending_of_books books pending)
  all_goals exact known.imp_right .inl

theorem Sequenced.received_le (sequenced : Sequenced sub v) {tag : Nat} (received : tag ∈ v.lane.arrived.map (·.tag)) :
    tag ≤ v.lane.lastTag := by
  obtain ⟨d, member, rfl⟩ := List.mem_map.mp received
  exact sequenced.bounded d (List.mem_append_left _ member)

theorem Quiet.upheld (late : sub.earlyAck = false) (acked : sub.noAck = false) (move : Quiet sub capacity v w)
    (kept : Kept sub v) (backing : Backing v) (upheld : Upheld v) : Upheld w := by
  have chooses := (move.decides late kept).chooses
  have restages := move.restages kept.solo backing
  refine ⟨?_, ?_, ?_⟩
  · intro tag member
    rcases chooses.rejected tag member with older | ⟨requeue, task⟩
    · cases upheld.rejects tag older with
      | reached there => exact .reached (chooses.reached ▸ there)
      | staged among sends =>
        rcases restages.kept _ among _ _ sends with still | gone
        · exact .staged still sends
        · exact .closed gone
      | task among => exact .task (chooses.tasks among)
      | closed gone => exact .closed (move.closed gone)
    · exact .task task
  · intro tag member
    rw [chooses.reached] at member
    obtain ⟨received, gone⟩ := upheld.reached tag member
    refine ⟨move.received received, fun again => ?_⟩
    rcases move.outstanding tag again with older | ⟨newer, -⟩
    · exact gone older
    · exact absurd (kept.sequenced.received_le received) (by omega)
  · intro tag member
    rcases move.outstanding tag member with older | ⟨-, incoming⟩
    · rcases upheld.accounted tag older with incoming | pending | chose
      · exact move.accounts acked kept backing (.inl incoming)
      · exact move.accounts acked kept backing (.inr pending)
      · exact .inr (.inr (chose.mono chooses.acks chooses.rejects))
    · exact .inl incoming

def Frame.isReject : Frame → Bool
  | .ack _ _ => false
  | .reject _ _ => true

/-- What is taken up or sent with foresight: a decision about a tag that is pending and not staged
already, a rejection that gets through, and a cumulative acknowledgement that reaches no tag a task is
still to reject. -/
def Lane.Prudent (lane : Lane) : Mark → Prop
  | .settle tag _ => lane.Free tag
  | .through _ => True
  | .frame (.ack target true) _ => ∀ frame ∈ lane.tasks, frame.isReject = true → target < frame.tag
  | .frame (.ack _ false) _ => True
  | .frame (.reject _ _) sent => sent = true

theorem Lane.Prudent.considerate {lane : Lane} {mark : Mark} (prudent : lane.Prudent mark) :
    lane.Considerate mark := by
  cases mark with
  | settle tag settlement => exact prudent
  | through whole | frame frame reached => trivial

theorem Marked.closed {mark : Mark} (move : Marked v mark w) (gone : v.Over) : w.Over := by
  obtain ⟨winding, singles, throughs, finishing⟩ := gone
  cases move
  case settle ready _ _ _ | through ready _ _ _ _ _ _ => cases winding.symm.trans ready.2
  case perform found _ => simp [singles] at found
  case performThrough found _ => simp [throughs] at found
  case task frame answer found =>
    have desk := @Lane.transmit_desk v.lane frame (reached answer)
    have futures : (v.lane.transmit frame (reached answer)).pendingSettlements = v.lane.pendingSettlements :=
      congrArg Desk.pendingSettlements desk
    exact ⟨winding, futures.trans singles, (Lane.futures_of_desk desk).trans throughs, finishing⟩

theorem Marked.frame_received {frame : Frame} {sent : Bool} (move : Marked v (.frame frame sent) w)
    (kept : Kept sub v) (backing : Backing v) : frame.tag ∈ v.lane.arrived.map (·.tag) := by
  cases move
  case perform index future answer found sends =>
    rw [(SettlementFuture.frame_spec sends).1]
    refine kept.sequenced.handed_received _ (kept.claimed.singles _ ?_)
    exact List.mem_append_right _ (List.mem_append_left _ (List.mem_map_of_mem (List.mem_of_getElem? found)))
  case performThrough index future answer found _ =>
    refine kept.sequenced.handed_received _ (kept.claimed.throughs future.through ?_)
    exact List.mem_append_right _ (List.mem_append_left _ (List.mem_map_of_mem (List.mem_of_getElem? found)))
  case task index answer found => exact (backing.tasks frame (List.mem_of_getElem? found)).2.2

theorem mem_or_eraseIdx {Value : Type*} {values : List Value} {value other : Value} {index : Nat}
    (found : values[index]? = some value) (member : other ∈ values) : other = value ∨ other ∈ values.eraseIdx index := by
  obtain ⟨inside, rfl⟩ := List.getElem?_eq_some_iff.mp found
  exact List.mem_cons.mp ((List.getElem_cons_eraseIdx_perm inside).mem_iff.mpr member)

theorem View.Rejecting.marked {mark : Mark} {tag : Nat} (rejecting : v.Rejecting tag) (move : Marked v mark w)
    (prudent : v.lane.Prudent mark) (solo : Solo v) (grows : v.lane.rejectReached ⊆ w.lane.rejectReached) :
    w.Rejecting tag := by
  -- the frame that leaves is the rejection itself, and then it gets through
  have carried : ∀ {requeue : Bool} {sent : Bool}, mark = .frame (.reject tag requeue) sent → w.Rejecting tag := by
    rintro requeue sent rfl
    have through : sent = true := prudent
    exact .reached (move.carries.carried tag requeue rfl through)
  cases rejecting with
  | reached there => exact .reached (grows there)
  | closed gone => exact .closed (move.closed gone)
  | @staged future requeue among sends =>
    cases move.takes solo with
    | decision _ staged _ => exact .staged (staged ▸ List.mem_append_left _ among) sends
    | through staged _ | cumulative staged _ | task staged _ _ => exact .staged (staged ▸ among) sends
    | sends own before staged _ =>
      rw [before] at among
      rcases List.mem_cons.mp among with rfl | later
      · obtain rfl := Option.some.inj (sends.symm.trans own)
        exact carried rfl
      · exact .staged (staged ▸ List.mem_cons_of_mem _ later) sends
  | @task requeue among =>
    cases move.takes solo with
    | decision _ _ tasks | through _ tasks | cumulative _ tasks | sends _ _ _ tasks => exact .task (tasks ▸ among)
    | task _ found tasks =>
      rcases mem_or_eraseIdx found among with rfl | later
      · exact carried rfl
      · exact .task (tasks ▸ later)

theorem Marked.undisturbed {mark : Mark} (move : Marked v mark w) (decision : ∀ frame sent, mark ≠ .frame frame sent) :
    w.lane.outstanding = v.lane.outstanding ∧ w.lane.rejectReached = v.lane.rejectReached := by
  cases move
  case settle tag settlement _ _ _ _ _ =>
    refine ⟨congrArg Core.outstanding (Lane.acceptSettlement_core tag settlement), ?_⟩
    have choices := @Lane.acceptSettlement_choices v.lane tag settlement
    split at choices
    all_goals exact congrArg Choices.rejectReached choices
  case through through _ _ _ _ _ _ _ _ =>
    exact ⟨congrArg Core.outstanding (Lane.acceptThrough_core through),
      congrArg Choices.rejectReached Lane.acceptThrough_choices⟩
  all_goals exact absurd rfl (decision _ _)

theorem Marked.rejected {mark : Mark} (move : Marked v mark w) : ∀ tag ∈ w.lane.rejectChosen,
    tag ∈ v.lane.rejectChosen ∨ ∃ settlement, mark = .settle tag settlement ∧ settlement.terminal = .rejected := by
  intro tag member
  cases move
  case settle own settlement _ _ _ _ _ =>
    have choices := @Lane.acceptSettlement_choices v.lane own settlement
    split at choices
    · rename_i terminal
      have rejects : (v.lane.acceptSettlement own settlement).rejectChosen = v.lane.rejectChosen ++ [own] :=
        congrArg Choices.rejectChosen choices
      rcases List.mem_append.mp (rejects ▸ member) with older | newest
      · exact .inl older
      · obtain rfl := List.mem_singleton.mp newest
        exact .inr ⟨settlement, rfl, terminal⟩
    · have rejects : (v.lane.acceptSettlement own settlement).rejectChosen = v.lane.rejectChosen :=
        congrArg Choices.rejectChosen choices
      exact .inl (rejects ▸ member)
  case through through _ _ _ _ _ _ _ _ =>
    have rejects : (v.lane.acceptThrough through).rejectChosen = v.lane.rejectChosen :=
      congrArg Choices.rejectChosen Lane.acceptThrough_choices
    exact .inl (rejects ▸ member)
  all_goals exact .inl ((Lane.transmit_choices _ _).2.1 ▸ member)

theorem Marked.upheld {mark : Mark} (move : Marked v mark w) (prudent : v.lane.Prudent mark) (kept : Kept sub v)
    (backing : Backing v) (upheld : Upheld v) : Upheld w := by
  have arrived : w.lane.arrived = v.lane.arrived := congrArg Stock.arrived move.unstirred.stock
  obtain ⟨acks, rejects, -, -, -⟩ := move.chooses
  have history : v.lane.rejectReached ⊆ w.lane.rejectReached ∧ w.lane.outstanding ⊆ v.lane.outstanding ∧
      ∀ tag ∈ w.lane.rejectReached, tag ∈ w.lane.arrived.map (·.tag) ∧ tag ∉ w.lane.outstanding := by
    rw [arrived]
    by_cases sends : ∃ frame sent, mark = .frame frame sent
    · obtain ⟨frame, sent, rfl⟩ := sends
      have carries := move.carries
      refine ⟨carries.grows, fun tag member => ?_, fun tag member => ?_⟩
      · rw [carries.outstanding] at member
        exact Lane.of_mem_deduct member
      · rw [carries.outstanding]
        rcases carries.reached tag member with older | ⟨rfl, requeue, rfl⟩
        · obtain ⟨received, gone⟩ := upheld.reached tag older
          exact ⟨received, fun again => gone (Lane.of_mem_deduct again)⟩
        · refine ⟨move.frame_received kept backing, fun again => ?_⟩
          simp [Lane.deduct, Frame.covers] at again
    · obtain ⟨outstanding, reached⟩ := move.undisturbed fun frame sent own => sends ⟨frame, sent, own⟩
      rw [outstanding, reached]
      exact ⟨List.Subset.refl _, List.Subset.refl _, upheld.reached⟩
  obtain ⟨grows, fewer, reached⟩ := history
  refine ⟨?_, reached, ?_⟩
  · intro tag member
    rcases move.rejected tag member with older | ⟨settlement, rfl, terminal⟩
    · exact (upheld.rejects tag older).marked move prudent kept.solo grows
    · cases move.takes kept.solo with
      | decision decided staged _ =>
        rcases @taken_frame tag settlement decided with ⟨-, requeue, sends⟩ | ⟨other, -⟩
        · exact .staged (staged ▸ List.mem_append_right _ List.mem_cons_self) sends
        · exact absurd terminal other
  · intro tag member
    rw [move.unstirred.incoming, Lane.ledger_of_books move.books]
    exact (upheld.accounted tag (fewer member)).imp_right (Or.imp_right fun chose => chose.mono acks rejects)

/-- What an acknowledgement covers of what the broker holds was decided so; a cumulative one covers no
rejection that is still to reach the broker. -/
theorem Marked.acknowledges {target : Nat} {multiple sent : Bool} (move : Marked v (.frame (.ack target multiple) sent) w)
    (prudent : v.lane.Prudent (.frame (.ack target multiple) sent)) (kept : Kept sub v)
    (disciplined : Disciplined v) (backing : Backing v) (upheld : Upheld v) :
    (∀ tag ∈ v.lane.outstanding, (Frame.ack target multiple).covers tag = true → tag ∈ v.lane.ackChosen) ∧
      (multiple = true → ∀ tag ∈ v.lane.rejectChosen, tag ≤ target → tag ∈ v.lane.rejectReached) := by
  have alone : ∀ tag, (Frame.ack target multiple).single = true → target ∈ v.lane.ackChosen →
      (Frame.ack target multiple).covers tag = true → tag ∈ v.lane.ackChosen := by
    intro tag single chosen covered
    rw [(Frame.covers_of_single single tag).mp covered]
    exact chosen
  cases move
  case perform index future answer found sends =>
    obtain ⟨-, single, -⟩ := SettlementFuture.frame_spec sends
    have staged : future ∈ v.lane.staged := List.mem_append_left _ (List.mem_of_getElem? found)
    refine ⟨fun tag _ => alone tag single ((backing.staged future staged).frame _ sends), fun cumulative => ?_⟩
    subst cumulative
    cases single
  case task index answer found =>
    obtain ⟨chosen, single, -⟩ := backing.tasks _ (List.mem_of_getElem? found)
    refine ⟨fun tag _ => alone tag single chosen, fun cumulative => ?_⟩
    subst cumulative
    cases single
  case performThrough index future answer found waiting =>
    have underway := kept.solo.underway_found found
    have staged := View.underway_mem underway
    have covers := kept.booked.balanced.covers future.through staged
    have rejected : ∀ tag ∈ v.lane.rejectChosen, tag ≤ future.through.target → tag ∈ v.lane.rejectReached := by
      intro tag member upTo
      cases upheld.rejects tag member with
      | reached there => exact there
      | @staged single requeue among sends =>
        -- singles are sent before a cumulative acknowledgement starts
        have tags : tag ∈ v.singles := by
          have own := (SettlementFuture.frame_spec sends).1
          refine List.mem_append_right _ ?_
          rw [Lane.singles_eq_staged, show tag = single.tag from own]
          exact List.mem_map_of_mem among
        exact absurd (disciplined.front _ underway tag tags) (by omega)
      | @task requeue among => exact absurd (prudent _ among rfl) (by simpa [Frame.tag] using upTo)
      | closed gone => simp [gone.throughs] at found
    refine ⟨fun tag member covered => ?_, fun _ => rejected⟩
    have upTo := Frame.covers_through.mp covered
    rcases upheld.accounted tag member with incoming | pending | chosen | decided
    · obtain ⟨d, among, rfl⟩ := List.mem_map.mp incoming
      have ahead := kept.sequenced.handed_lt (kept.claimed.throughs _ staged) (List.mem_append_right _ among)
      omega
    · exact backing.throughs _ staged (covers.all tag pending upTo)
    · exact chosen
    · exact absurd member (upheld.reached tag (rejected tag decided upTo)).2

def Prudent (settings : Settings) (s : State) (e : Event) : Prop :=
  ∀ sub ∈ settings.subscriptions, ∀ mark ∈ e.marks s sub.id, (s.lanes sub.id).Prudent mark

instance (lane : Lane) (mark : Mark) : Decidable (lane.Prudent mark) :=
  match mark with
  | .settle tag _ => inferInstanceAs (Decidable (lane.Free tag))
  | .through _ => .isTrue trivial
  | .frame (.ack target true) _ =>
    inferInstanceAs (Decidable (∀ frame ∈ lane.tasks, frame.isReject = true → target < frame.tag))
  | .frame (.ack _ false) _ => .isTrue trivial
  | .frame (.reject _ _) sent => inferInstanceAs (Decidable (sent = true))

instance (settings : Settings) (s : State) (e : Event) : Decidable (Prudent settings s e) := by
  unfold Prudent
  infer_instance

structure Decided (sub : Subscription) (v : View) : Prop where
  kept : Kept sub v
  answered : Answered v
  disciplined : Disciplined v
  backing : Backing v
  upheld : Upheld v

theorem backing_initial : Backing .initial := by
  refine ⟨fun _ => rfl, ?_, ?_, ?_, ?_, ?_⟩
  · exact fun tag none => absurd none List.not_mem_nil
  · exact fun through none => absurd none List.not_mem_nil
  · exact fun future none => absurd none List.not_mem_nil
  · exact fun tag result none => absurd none.symm (Option.some_ne_none _)
  · exact fun frame none => absurd none List.not_mem_nil

theorem upheld_initial : Upheld .initial := by
  refine ⟨?_, ?_, ?_⟩
  all_goals exact fun tag none => absurd none List.not_mem_nil

variable {sha256 : Bytes → Bytes} {settings : Settings} {s t : State} {e : Event}

theorem decided_of_reaches (known : settings.Knows sub) (late : sub.earlyAck = false)
    (reached : Reaches (machine sha256 settings) (Prudent settings) s) : Decided sub (s.view sub.id) := by
  have acked := known.acked late
  refine view_invariant known ⟨kept_initial, answered_initial, disciplined_initial, backing_initial, upheld_initial⟩
    ?_ ?_ reached
  · rintro v w ⟨kept, answered, disciplined, backing, upheld⟩ move
    exact ⟨move.kept kept, move.answered answered, move.disciplined late kept answered disciplined,
      move.backing late kept backing, move.upheld late acked kept backing upheld⟩
  · rintro s e mark w prudent marks ⟨kept, answered, disciplined, backing, upheld⟩ move
    have care := prudent sub known.member mark marks
    exact ⟨move.kept kept, move.answered answered, move.disciplined care.considerate kept disciplined,
      move.backing kept backing, move.upheld care kept backing upheld⟩

/-- In a run of steps with foresight, an acknowledgement on a channel without early acknowledgements
covers, of what the broker holds, only tags that were decided to be acknowledged; and a cumulative one
covers no tag whose rejection is still to reach the broker. -/
theorem acks_cover_decided (known : settings.Knows sub) (late : sub.earlyAck = false)
    (reached : Reaches (machine sha256 settings) (Prudent settings) s) (prudent : Prudent settings s e)
    (stepped : (machine sha256 settings).step s e = some t) {target : Nat} {multiple sent : Bool}
    (sends : e.marks s sub.id = some (.frame (.ack target multiple) sent)) :
    (∀ tag ∈ (s.lanes sub.id).outstanding, (Frame.ack target multiple).covers tag = true →
      tag ∈ (s.lanes sub.id).ackChosen) ∧
    (multiple = true → ∀ tag ∈ (s.lanes sub.id).rejectChosen, tag ≤ target →
      tag ∈ (s.lanes sub.id).rejectReached) := by
  have decided := decided_of_reaches known late reached
  exact (frame_marked stepped sends).acknowledges (prudent sub known.member _ sends) decided.kept decided.disciplined
    decided.backing decided.upheld

/-- The first of three deliveries is poison and its rejection gets through; then the other two are
acknowledged with one frame. -/
theorem rejected_before_cumulative_ack : ∃ s, Reaches (machine id jobsOnly) (Prudent jobsOnly) s ∧
    (s.lanes "jobs").rejectChosen = [1] ∧ (s.lanes "jobs").outstanding = [2, 3] ∧
    Event.marks s "jobs" (.performThrough "jobs" 0 (.ok ())) = some (.frame (.ack 3 true) true) ∧
    (∀ tag ∈ (s.lanes "jobs").outstanding, (Frame.ack 3 true).covers tag = true →
      tag ∈ (s.lanes "jobs").ackChosen) ∧
    (true = true → ∀ tag ∈ (s.lanes "jobs").rejectChosen, tag ≤ 3 → tag ∈ (s.lanes "jobs").rejectReached) := by
  obtain ⟨s, reached, rejected, outstanding, sends, prudent, t, step, -⟩ :=
    exists_reached (machine id jobsOnly) (Prudent jobsOnly) rfl
      (arrivals [{ tag := 1, redelivered := true }, { tag := 2 }, { tag := 3 }] 2 ++
        .runTask "jobs" 0 (.ok ()) :: deciding 2 .ack ++ deciding 3 .ack ++ handling 2)
      (fun s => (s.lanes "jobs").rejectChosen = [1] ∧ (s.lanes "jobs").outstanding = [2, 3] ∧
        Event.marks s "jobs" (.performThrough "jobs" 0 (.ok ())) = some (.frame (.ack 3 true) true) ∧
        Prudent jobsOnly s (.performThrough "jobs" 0 (.ok ())) ∧
        ∃ t, (machine id jobsOnly).step s (.performThrough "jobs" 0 (.ok ())) = some t ∧ True)
      (by decide +kernel)
  exact ⟨s, reached, rejected, outstanding, sends,
    acks_cover_decided jobs_known rfl reached prudent step sends⟩

/-- The first of three deliveries is poison and rejected by a task. The other two are acknowledged up to
the last one before the task runs: the broker takes the first as acknowledged, which nobody decided. -/
theorem cumulative_ack_covers_rejected : ∃ s t, Reachable (machine id jobsOnly) s ∧
    (machine id jobsOnly).step s (.performThrough "jobs" 0 (.ok ())) = some t ∧
    Event.marks s "jobs" (.performThrough "jobs" 0 (.ok ())) = some (.frame (.ack 3 true) true) ∧
    1 ∈ (s.lanes "jobs").outstanding ∧ 1 ∉ (t.lanes "jobs").outstanding ∧ (s.lanes "jobs").ackChosen = [2, 3] ∧
    1 ∈ (s.lanes "jobs").rejectChosen ∧ (s.lanes "jobs").rejectReached = [] := by
  obtain ⟨s, reached, t, step, holds⟩ := exists_reachable (machine id jobsOnly) rfl
    (arrivals [{ tag := 1, redelivered := true }, { tag := 2 }, { tag := 3 }] 2 ++
      deciding 2 .ack ++ deciding 3 .ack ++ handling 2)
    (fun s => ∃ t, (machine id jobsOnly).step s (.performThrough "jobs" 0 (.ok ())) = some t ∧
      Event.marks s "jobs" (.performThrough "jobs" 0 (.ok ())) = some (.frame (.ack 3 true) true) ∧
      1 ∈ (s.lanes "jobs").outstanding ∧ 1 ∉ (t.lanes "jobs").outstanding ∧
      (s.lanes "jobs").ackChosen = [2, 3] ∧ 1 ∈ (s.lanes "jobs").rejectChosen ∧
      (s.lanes "jobs").rejectReached = [])
    (by decide +kernel)
  exact ⟨s, t, reached, step, holds⟩

end RabbitRs.Consumer
