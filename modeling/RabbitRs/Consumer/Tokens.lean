import RabbitRs.Consumer.Budget
import RabbitRs.Consumer.Shelf

/-!
The states of delivery tokens: `try_settle` claims a pending token and gives it back when the
command channel is full, a completion stores its result in the tokens it settles.
-/

namespace RabbitRs.Consumer

open StepMachine
open Ordered (Table)

variable {sub : Subscription} {capacity : Nat} {v w : View} {tag : Nat}

namespace Lane

variable {lane : Lane} {token index : Nat} {affected : List Nat} {state : DeliveryState} {through : Through}
  {result : Outcome}

theorem setState_self : (lane.setState tag state).states tag = (lane.states tag).map fun _ => state := by
  simp [states, setState, changeToken, Function.comp_def]

theorem setState_other (ne : tag ≠ token) : (lane.setState token state).states tag = lane.states tag := by
  simp [states, setState, changeToken, ne]

theorem markAffected_outside (outside : tag ∉ affected) :
    (lane.markAffected affected state).states tag = lane.states tag := by
  unfold markAffected
  induction affected generalizing lane with
  | nil => rfl
  | cons token rest ih =>
    rw [List.mem_cons, not_or] at outside
    rw [List.foldl_cons, ih outside.2, setSettling_states, setState_other outside.1]

theorem markAffected_pending (terminal : state ≠ .pending)
    (pending : (lane.markAffected affected state).states tag = some .pending) : lane.states tag = some .pending := by
  unfold markAffected at pending
  induction affected generalizing lane with
  | nil => exact pending
  | cons token rest ih =>
    have before := ih pending
    rw [setSettling_states] at before
    by_cases same : tag = token
    · subst same
      rw [setState_self] at before
      obtain ⟨_, -, rfl⟩ := Option.map_eq_some_iff.mp before
      exact absurd rfl terminal
    · rwa [setState_other same] at before

theorem conclude_states (ne : tag ≠ token) : (lane.conclude sub token result).states tag = lane.states tag := by
  cases result with
  | ok terminal => exact setState_other ne
  | error error =>
    obtain ⟨kind, message, source⟩ := error
    cases kind
    case maxAttempts | invalidDelay =>
      exact (setState_other ne).trans (congrFun (states_of_tokens (spawn_tokens _)) tag)
    all_goals exact setState_other ne

theorem endSettlement_states (ne : tag ≠ token) :
    (lane.endSettlement sub token result).states tag = lane.states tag := by
  rw [endSettlement_eq, states_of_tokens drainSettlementQueue_tokens, concluded, conclude_states ne,
    setSettling_states, states_of_tokens (settleIf_tokens _)]

theorem closeSettlement_states (ne : tag ≠ token) :
    (lane.closeSettlement index token result).states tag = lane.states tag := by
  rw [closeSettlement_eq, states_of_tokens drainSettlementQueue_tokens]
  exact (congrFun (setSettling_states token false) tag).trans (setState_other ne)

theorem endThrough_states (outside : tag ∉ through.affected) :
    (lane.endThrough through result).states tag = lane.states tag := by
  rw [endThrough_eq, states_of_tokens drainSettlementQueue_tokens, concludedThrough, markAffected_outside outside,
    states_of_tokens (settleThroughIf_tokens _ _)]

theorem endThrough_pending (terminal : State.throughState result ≠ .pending)
    (pending : (lane.endThrough through result).states tag = some .pending) : lane.states tag = some .pending := by
  rw [endThrough_eq, states_of_tokens drainSettlementQueue_tokens, concludedThrough] at pending
  have before := markAffected_pending terminal pending
  rwa [states_of_tokens (settleThroughIf_tokens _ _)] at before

theorem closeThrough_states (outside : tag ∉ through.affected) :
    (lane.closeThrough index through result).states tag = lane.states tag := by
  rw [closeThrough_eq, states_of_tokens drainSettlementQueue_tokens]
  exact markAffected_outside outside

theorem closeThrough_pending (terminal : closeState result ≠ .pending)
    (pending : (lane.closeThrough index through result).states tag = some .pending) :
    lane.states tag = some .pending := by
  rw [closeThrough_eq, states_of_tokens drainSettlementQueue_tokens] at pending
  have before : (lane.retireSettleThrough index).states tag = some .pending := markAffected_pending terminal pending
  exact before

end Lane

theorem Settlement.terminal_ne_pending (settlement : Settlement) : settlement.terminal ≠ .pending := by
  unfold terminal
  split
  · nofun
  · split <;> nofun
  · nofun

def LaneCommand.settles : LaneCommand → Option Nat
  | .settle tag _ => some tag
  | .through _ => none

/-- How often a tag is claimed: by a thread, in the command channel, in the batch or at the desk. -/
def View.claims (v : View) (tag : Nat) : Nat :=
  (v.sending.map (·.1)).count tag + (v.commands.filterMap LaneCommand.settles).count tag +
    v.lane.ackedBatch.keys.count tag + v.singles.count tag

theorem Claimed.unclaimed (claimed : Claimed v) (apart : tag ∉ v.handed) : v.claims tag = 0 := by
  have sending : tag ∉ v.sending.map (·.1) := by
    intro member
    obtain ⟨entry, among, rfl⟩ := List.mem_map.mp member
    exact apart (claimed.sending entry among)
  have commands : tag ∉ v.commands.filterMap LaneCommand.settles := by
    intro member
    obtain ⟨command, among, own⟩ := List.mem_filterMap.mp member
    cases command <;> cases own
    exact apart (claimed.commands _ among)
  rw [View.claims, List.count_eq_zero_of_not_mem sending, List.count_eq_zero_of_not_mem commands,
    List.count_eq_zero_of_not_mem fun member => apart (claimed.batch tag member),
    List.count_eq_zero_of_not_mem fun member => apart (claimed.singles tag member)]

theorem View.claims_asked (batch : w.lane.ackedBatch = v.lane.ackedBatch) (singles : w.singles = v.singles) :
    w.claims tag + ((v.sending.map (·.1)).count tag + (v.commands.filterMap LaneCommand.settles).count tag) =
      v.claims tag + ((w.sending.map (·.1)).count tag + (w.commands.filterMap LaneCommand.settles).count tag) := by
  unfold View.claims
  rw [batch, singles]
  omega

theorem Departs.claims (departs : Departs (some tag) none v w) (sending : w.sending = v.sending)
    (commands : w.commands = v.commands) : w.claims tag < v.claims tag := by
  simp only [View.claims, departs.singles, departs.batch, sending, commands, List.count_append]
  simp

theorem count_keys_insert_le (table : Table Nat Unit) (key tag : Nat) :
    (table.insert key ()).keys.count tag ≤ (key :: table.keys).count tag := by
  have nodup : (table.insert key ()).keys.Nodup := (table.insert key ()).keys_sorted.imp ne_of_lt
  refine (List.subperm_of_subset nodup fun other member => ?_).count_le tag
  exact List.mem_cons.mpr (Table.mem_keys_insert.mp member)

theorem Lane.stragglers_sublist (lane : Lane) : lane.stragglers.Sublist lane.ackedBatch.keys :=
  List.filter_sublist.trans (List.filter_sublist.map _)

theorem Stages.claims (stages : Stages v w) (sending : w.sending = v.sending)
    (commands : w.commands.Sublist v.commands) : w.claims tag ≤ v.claims tag := by
  unfold View.claims
  rw [sending]
  have fewer := (commands.filterMap LaneCommand.settles).count_le tag
  cases stages with
  | fewer singles _ batch _ =>
    rw [batch]
    have := singles.count_le tag
    omega
  | @ack token rest front _ _ singles _ _ batch _ taken =>
    rw [batch, singles, front, taken]
    have recorded := count_keys_insert_le v.lane.ackedBatch token tag
    simp only [List.filterMap_cons, LaneCommand.settles, List.count_cons] at recorded ⊢
    omega
  | flush _ _ singles _ batch =>
    rw [batch, singles]
    have := v.lane.stragglers_sublist.count_le tag
    simp only [Table.keys_empty, List.count_nil]
    omega

inductive Deals (v w : View) (tag : Nat) : Prop where
  | keeps : w.claims tag ≤ v.claims tag →
      (w.claims tag = 0 ∨ (w.lane.states tag = some .pending → v.lane.states tag = some .pending)) → Deals v w tag
  | claims : v.lane.states tag = some .pending → w.claims tag ≤ v.claims tag + 1 →
      w.lane.states tag ≠ some .pending → Deals v w tag
  | drops : w.claims tag < v.claims tag → Deals v w tag

theorem Flow.states (flow : Flow sub capacity v w) (sequenced : Sequenced sub v) (handed : tag ∈ v.handed) :
    w.lane.states tag = v.lane.states tag := by
  have newer {d : Delivery} {rest : List Delivery} (front : v.lane.buffer = d :: rest) : tag ≠ (sub.handed d).tag :=
    ne_of_lt (sequenced.handed_lt handed
      (List.mem_append_left _ (List.mem_append_left _ (front ▸ List.mem_cons_self))))
  cases flow
  case refuse | unparkOversized | poison => exact congrFun (Lane.states_of_tokens (Lane.discard_tokens _)) tag
  case handEarly front _ _ => exact congrArg (Option.map Token.state) (Function.update_of_ne (newer front) _ _)
  case tokenize front _ _ | hand front _ _ => exact congrArg (Option.map Token.state) (Lane.tokenize_other (newer front))
  all_goals rfl

theorem Quiet.deals (move : Quiet sub capacity v w) (kept : Kept sub v) (answered : Answered v) (tag : Nat) :
    Deals v w tag := by
  have stages := move.stages kept.solo
  have resting (sending : w.sending = v.sending) (commands : w.commands.Sublist v.commands)
      (states : w.lane.states tag = v.lane.states tag) : Deals v w tag :=
    .keeps (stages.claims sending commands) (.inr fun pending => states ▸ pending)
  have asked := @View.claims_asked v w tag
  cases move
  case flow flow =>
    obtain ⟨commands, sending⟩ := flow.same_commands
    by_cases handed : tag ∈ v.handed
    · exact resting sending (commands ▸ List.Sublist.refl _) (flow.states kept.sequenced handed)
    · have none := kept.claimed.unclaimed handed
      have fewer : w.claims tag ≤ v.claims tag := stages.claims sending (commands ▸ List.Sublist.refl _)
      exact .keeps fewer (.inl (by omega))
  case claim token record settlement popped found pending =>
    have claims := asked rfl rfl
    simp only [List.map_append, List.count_append, List.map_cons, List.map_nil, List.count_singleton] at claims
    by_cases same : tag = token
    · subst same
      have before : v.lane.states tag = some .pending := by simp [Lane.states, found, pending]
      refine .claims before ?_ ?_
      · simp only [BEq.rfl, if_true] at claims
        omega
      · rw [Lane.setState_self, before]
        exact fun now => settlement.terminal_ne_pending (Option.some.inj now)
    · refine .keeps ?_ (.inr fun now => (Lane.setState_other same).symm.trans now)
      simp only [beq_iff_eq, Ne.symm same, if_false] at claims
      omega
  case send token settlement rest perm =>
    have claims := asked rfl rfl
    have sent := (perm.map (·.1)).count_eq tag
    simp only [List.filterMap_append, List.filterMap_cons, List.filterMap_nil, LaneCommand.settles, List.count_append,
      List.map_cons, List.count_cons, List.count_nil] at claims sent
    exact .keeps (by omega) (.inr id)
  case giveUp token settlement rest state perm _ =>
    have claims := asked rfl rfl
    have sent := (perm.map (·.1)).count_eq tag
    simp only [List.map_cons, List.count_cons, beq_iff_eq] at claims sent
    by_cases same : tag = token
    · rw [if_pos same.symm] at sent
      exact .drops (by omega)
    · rw [if_neg (Ne.symm same)] at sent
      exact .keeps (by omega) (.inr fun now => (Lane.setState_other same).symm.trans now)
  case request =>
    have claims := asked rfl rfl
    simp only [List.filterMap_append, List.filterMap_cons, List.filterMap_nil, LaneCommand.settles,
      List.append_nil] at claims
    exact .keeps (by omega) (.inr id)
  case decline front => exact resting rfl (front ▸ List.sublist_cons_self _ _) rfl
  case acceptAck front _ =>
    exact resting rfl (front ▸ List.sublist_cons_self _ _) (congrFun (Lane.setSettling_states _ true) tag)
  case flush =>
    exact resting rfl (List.Sublist.refl _)
      (congrFun (Lane.states_of_tokens (Lane.tokens_of_offDesk Lane.flushAcked_offDesk)) tag)
  case beginSettlement =>
    exact resting rfl (List.Sublist.refl _) (congrFun (Lane.states_of_tokens Lane.beginSettlement_tokens) tag)
  case beginThrough =>
    exact resting rfl (List.Sublist.refl _) (congrFun (Lane.states_of_tokens Lane.beginThrough_tokens) tag)
  case endSettlement token result under =>
    by_cases same : tag = token
    · subst same
      exact .drops ((kept.solo.ended under).claims rfl rfl)
    · exact resting rfl (List.Sublist.refl _) (Lane.endSettlement_states same)
  case endThrough through result under =>
    obtain ⟨answer, rfl⟩ := answered.finishing through result under
    refine .keeps (stages.claims rfl (List.Sublist.refl _)) (.inr fun pending => ?_)
    exact Lane.endThrough_pending (by cases answer <;> rintro ⟨⟩) pending
  case closeSettlement index future result _ found _ =>
    by_cases same : tag = future.tag
    · subst same
      exact .drops ((kept.solo.closed found).claims rfl rfl)
    · exact resting rfl (List.Sublist.refl _) (Lane.closeSettlement_states same)
  case closeThrough index future result _ found finished =>
    obtain ⟨answer, rfl⟩ := answered.futures future (List.mem_of_getElem? found) result finished
    refine .keeps (stages.claims rfl (List.Sublist.refl _)) (.inr fun pending => ?_)
    exact Lane.closeThrough_pending (by cases answer <;> rintro ⟨⟩) pending
  all_goals exact resting rfl (List.Sublist.refl _) rfl

theorem Marked.deals {mark : Mark} (move : Marked v mark w) (kept : Kept sub v) (tag : Nat) : Deals v w tag := by
  obtain ⟨singles, -, batch⟩ := move.stages kept.solo
  have commands : v.commands.filterMap LaneCommand.settles =
      mark.single?.toList ++ w.commands.filterMap LaneCommand.settles := by
    cases move
    case settle front _ _ => simp [front, Mark.single?, LaneCommand.settles]
    case through front _ _ _ _ _ => rw [front]; rfl
    all_goals rfl
  have states : w.lane.states = v.lane.states := by
    cases move
    case settle => exact Lane.acceptSettlement_states _ _
    case through => exact Lane.acceptThrough_states _
    all_goals exact Lane.states_of_tokens (Lane.transmit_tokens _ _)
  refine .keeps (Nat.le_of_eq ?_) (.inr fun pending => states ▸ pending)
  unfold View.claims
  rw [singles, batch, commands, move.same_deliveries.2.2, List.count_append, List.count_append]
  omega

def Unshared (v : View) : Prop := ∀ tag, v.claims tag ≤ 1 ∧ (v.lane.states tag = some .pending → v.claims tag = 0)

theorem Deals.unshared (deals : ∀ tag, Deals v w tag) (unshared : Unshared v) : Unshared w := by
  intro tag
  obtain ⟨once, free⟩ := unshared tag
  cases deals tag with
  | keeps fewer states =>
    refine ⟨fewer.trans once, fun pending => ?_⟩
    rcases states with none | before
    · exact none
    · exact Nat.le_zero.mp (free (before pending) ▸ fewer)
  | claims before more taken =>
    have none := free before
    exact ⟨by omega, fun pending => absurd pending taken⟩
  | drops fewer => exact ⟨by omega, fun _ => by omega⟩

variable {sha256 : Bytes → Bytes} {settings : Settings} {s t : State} {e : Event}

structure Secured (sub : Subscription) (v : View) : Prop where
  kept : Kept sub v
  answered : Answered v
  placed : Placed v
  unshared : Unshared v

theorem secured_of_reaches {Allowed : State → Event → Prop} (known : settings.Knows sub)
    (reached : Reaches (machine sha256 settings) Allowed s) : Secured sub (s.view sub.id) := by
  refine view_invariant known ⟨kept_initial, answered_initial, placed_initial, fun tag => ?_⟩ ?_ ?_ reached
  · exact ⟨Nat.zero_le 1, fun _ => rfl⟩
  · rintro v w ⟨kept, answered, placed, unshared⟩ move
    exact ⟨move.kept kept, move.answered answered, move.placed kept placed,
      Deals.unshared (move.deals kept answered) unshared⟩
  · rintro s e mark w - - ⟨kept, answered, placed, unshared⟩ move
    exact ⟨move.kept kept, move.answered answered, move.placed kept placed,
      Deals.unshared (move.deals kept) unshared⟩

def Event.completes (s : State) (id : String) : Event → List Nat
  | .settled name index =>
    if name = id then ((s.lanes id).pendingSettlements[index]?.map (·.tag)).toList else []
  | .throughSettled name index =>
    if name = id then ((s.lanes id).pendingSettleThroughs[index]?.map (·.through.affected)).getD [] else []
  | _ => []

theorem Flows.rests (flows : Flows sub capacity v w) (sequenced : Sequenced sub v) :
    Sequenced sub w ∧ v.handed ⊆ w.handed ∧ w.sending = v.sending ∧
      ∀ tag ∈ v.handed, w.lane.states tag = v.lane.states tag := by
  induction flows with
  | refl => exact ⟨sequenced, List.Subset.refl _, rfl, fun _ _ => rfl⟩
  | tail _ flow ih =>
    obtain ⟨ordered, handed, sending, states⟩ := ih
    refine ⟨flow.sequenced ordered, List.Subset.trans handed flow.handed_subset, flow.same_commands.2.trans sending, ?_⟩
    exact fun tag member => (flow.states ordered (handed member)).trans (states tag member)

theorem Concludes.rests {begun closed : Lane} {ended : Lane → Lane}
    (concludes : Concludes sub capacity v begun ended closed w) (sequenced : Sequenced sub v)
    (stock : begun.stock = v.lane.stock) (before : begun.states = v.lane.states) {spared : Nat → Prop}
    (after : ∀ lane tag, spared tag → (ended lane).states tag = lane.states tag)
    (last : ∀ tag, spared tag → closed.states tag = v.lane.states tag) :
    w.sending = v.sending ∧ ∀ tag ∈ v.handed, spared tag → w.lane.states tag = v.lane.states tag := by
  cases concludes with
  | live _ _ flows =>
    have start : Sequenced sub { v with lane := begun } := Unstirred.sequenced (.of_stock stock) sequenced
    obtain ⟨-, -, sending, states⟩ := flows.rests start
    refine ⟨sending, fun tag member outside => ?_⟩
    rw [after _ tag outside, states tag member, before]
  | winding => exact ⟨rfl, fun tag _ => last tag⟩

theorem step_rests (known : settings.Knows sub) (sequenced : Sequenced sub (s.view sub.id))
    (stepped : step sha256 settings s e = some t) (resting : e.claiming = false) :
    (t.view sub.id).sending = (s.view sub.id).sending ∧
      ∀ tag ∈ (s.view sub.id).handed, tag ∉ e.completes s sub.id →
        (t.lanes sub.id).states tag = (s.lanes sub.id).states tag := by
  by_cases quiet : e.dispatching = false
  · have same := quiet_counter stepped quiet resting
    refine ⟨congrArg (List.filterMap (Sending.own sub.id)) (congrArg Counter.sending same), fun tag _ _ => ?_⟩
    exact congrFun (congrFun (congrArg Counter.states same) sub.id) tag
  cases e
  case incoming =>
    obtain ⟨-, -, sending, states⟩ := (incoming_flows known stepped).rests sequenced
    exact ⟨sending, fun tag member _ => states tag member⟩
  case notified =>
    obtain ⟨-, -, sending, states⟩ := (notified_flows known stepped).rests sequenced
    exact ⟨sending, fun tag member _ => states tag member⟩
  case settled name index =>
    rcases settled_views known stepped with ⟨-, flows⟩ | ⟨rfl, future, result, found, -, concludes⟩
    · obtain ⟨-, -, sending, states⟩ := flows.rests sequenced
      exact ⟨sending, fun tag member _ => states tag member⟩
    · refine concludes.rests sequenced (Lane.beginSettlement_stock _ _ _)
        (Lane.states_of_tokens Lane.beginSettlement_tokens) (fun lane tag outside => ?_) (fun tag outside => ?_)
      · exact Lane.endSettlement_states (by simpa [Event.completes, found] using outside)
      · exact Lane.closeSettlement_states (by simpa [Event.completes, found] using outside)
  case throughSettled name index =>
    rcases throughSettled_views known stepped with ⟨-, flows⟩ | ⟨rfl, future, result, found, -, concludes⟩
    · obtain ⟨-, -, sending, states⟩ := flows.rests sequenced
      exact ⟨sending, fun tag member _ => states tag member⟩
    · refine concludes.rests sequenced (Lane.beginThrough_stock _ _ _)
        (Lane.states_of_tokens Lane.beginThrough_tokens) (fun lane tag outside => ?_) (fun tag outside => ?_)
      · exact Lane.endThrough_states (by simpa [Event.completes, found] using outside)
      · exact Lane.closeThrough_states (by simpa [Event.completes, found] using outside)
  all_goals exact absurd rfl quiet

theorem step_handed (known : settings.Knows sub) (stepped : step sha256 settings s e = some t)
    (handed : tag ∈ (s.view sub.id).handed) : tag ∈ (t.view sub.id).handed := by
  have keeps : ∀ v w, tag ∈ v.handed → Quiet sub settings.earlyAckedCapacity v w → tag ∈ w.handed := by
    intro v w member move
    rcases move.stirs with flow | ⟨d, sends⟩ | same
    · exact flow.handed_subset member
    · rwa [View.handed, sends.handed]
    · rwa [View.handed, same.handed]
  rcases step_refines known stepped with path | ⟨mark, -, move⟩
  · exact path.keeps keeps handed
  · rwa [move.same_deliveries.1]

/-- The actor with the state the last completion left in each token, and the settlement commands
enqueued for it since it was last pending. -/
structure Journal where
  state : State
  stored : String → Nat → Option DeliveryState := fun _ _ => none
  enqueued : String → Nat → Nat := fun _ _ => 0

def Event.enqueues (s : State) (id : String) (tag : Nat) : Event → Bool
  | .send index => s.sending[index]?.any fun sending =>
      sending.id == id && sending.tag == tag && s.stage != .closed && s.control.length < commandCapacity
  | _ => false

section

variable (sha256 settings)

def Journal.step (journal : Journal) (e : Event) : Option Journal :=
  (Consumer.step sha256 settings journal.state e).map fun t => {
    state := t
    stored id tag :=
      if tag ∈ e.completes journal.state id then (t.lanes id).states tag else journal.stored id tag
    enqueued id tag :=
      if (t.lanes id).states tag = some .pending then 0
      else journal.enqueued id tag + if e.enqueues journal.state id tag then 1 else 0 }

def journals : Machine Journal Event where
  Initial journal := journal = { state := { scheduler := settings.initialScheduler } }
  step := Journal.step sha256 settings

end

/-- No cumulative acknowledgement of a delivery completes while a `try_settle` of it stands between its
compare-and-swap and its `try_send`. -/
def Unraced (journal : Journal) (e : Event) : Prop :=
  match e with
  | .throughSettled id _ =>
    ∀ sending ∈ journal.state.sending, sending.id = id → sending.tag ∉ e.completes journal.state id
  | _ => True

variable {journal next : Journal} {Allowed : Journal → Event → Prop}

theorem journal_reaches (reached : Reaches (journals sha256 settings) Allowed journal) :
    Reachable (machine sha256 settings) journal.state := by
  induction reached with
  | start first =>
    cases first
    exact .start rfl
  | next _ _ stepped ih =>
    obtain ⟨t, step, rfl⟩ := Option.map_eq_some_iff.mp stepped
    exact ih.next step

def Counted (sub : Subscription) (journal : Journal) : Prop :=
  ∀ tag, journal.enqueued sub.id tag ≤ 1 ∧ ((journal.state.lanes sub.id).states tag = some .pending ∨
      tag ∈ (journal.state.view sub.id).sending.map (·.1) → journal.enqueued sub.id tag = 0)

theorem Counted.step (counted : Counted sub journal) (known : settings.Knows sub)
    (secured : Secured sub (journal.state.view sub.id))
    (stepped : journal.step sha256 settings e = some next) : Counted sub next := by
  obtain ⟨t, step, rfl⟩ := Option.map_eq_some_iff.mp stepped
  intro tag
  obtain ⟨once, free⟩ := counted tag
  by_cases pending : (t.lanes sub.id).states tag = some .pending
  · simp [pending]
  -- what was enqueued, and what is about to be
  suffices sent : journal.enqueued sub.id tag + (if e.enqueues journal.state sub.id tag then 1 else 0) ≤ 1 ∧
      (tag ∈ (t.view sub.id).sending.map (·.1) →
        journal.enqueued sub.id tag + (if e.enqueues journal.state sub.id tag then 1 else 0) = 0) by
    simpa [pending] using sent
  have kept (idle : e.enqueues journal.state sub.id tag = false)
      (sending : tag ∈ (t.view sub.id).sending.map (·.1) →
        (journal.state.lanes sub.id).states tag = some .pending ∨
          tag ∈ (journal.state.view sub.id).sending.map (·.1)) :
      journal.enqueued sub.id tag + (if e.enqueues journal.state sub.id tag then 1 else 0) ≤ 1 ∧
      (tag ∈ (t.view sub.id).sending.map (·.1) →
        journal.enqueued sub.id tag + (if e.enqueues journal.state sub.id tag then 1 else 0) = 0) := by
    rw [idle]
    exact ⟨once, fun member => free (sending member)⟩
  by_cases resting : e.claiming = false
  · have idle : e.enqueues journal.state sub.id tag = false := by cases e <;> first | rfl | cases resting
    obtain ⟨same, -⟩ := step_rests known secured.kept.sequenced step resting
    exact kept idle fun member => .inr (same ▸ member)
  cases e
  case claim name token settlement =>
    refine kept rfl fun member => ?_
    rcases @claim_views _ sub _ _ _ _ _ _ step with ⟨-, same⟩ | ⟨-, -, record, found, state, claimed⟩
    · exact .inr (same ▸ member)
    · rw [claimed, List.map_append, List.mem_append] at member
      rcases member with older | newest
      · exact .inr older
      · rw [List.mem_singleton.mp newest]
        exact .inl (by simp [Lane.states, found, state])
  case send index =>
    obtain ⟨sending, found, ⟨other, same⟩ | ⟨own, rest, perm, sent⟩⟩ := @send_views _ sub _ _ _ _ step
    · refine kept (by simp [Event.enqueues, found, other]) fun member => .inr (same ▸ member)
    · have left : (t.view sub.id).sending = rest := by
        rcases sent with queued | ⟨state, -, lost⟩
        · rw [queued]
        · rw [lost]
      rw [left]
      have tags := perm.map (·.1)
      by_cases same : tag = sending.tag
      · have none := free (.inr (tags.mem_iff.mpr (same ▸ List.mem_cons_self)))
        refine ⟨by split <;> omega, fun member => ?_⟩
        have twice := (secured.unshared tag).1
        have counts := tags.count_eq tag
        have more := List.count_pos_iff.mpr member
        simp only [View.claims, List.map_cons, List.count_cons, same, BEq.rfl, if_true] at twice counts more
        omega
      · have idle : (Event.send index).enqueues journal.state sub.id tag = false := by
          simp [Event.enqueues, found, Ne.symm same]
        rw [idle]
        refine ⟨once, fun member => free (.inr (tags.mem_iff.mpr (List.mem_cons_of_mem _ member)))⟩
  all_goals exact absurd rfl resting

def Tracked (sub : Subscription) (journal : Journal) : Prop :=
  ∀ tag state, journal.stored sub.id tag = some state → state ≠ .pending →
    tag ∈ (journal.state.view sub.id).handed ∧ (journal.state.lanes sub.id).states tag = some state ∧
      tag ∉ (journal.state.view sub.id).sending.map (·.1)

theorem Secured.completed (secured : Secured sub (s.view sub.id)) (member : tag ∈ e.completes s sub.id)
    (unraced : ∀ index, e = .throughSettled sub.id index → tag ∉ (s.view sub.id).sending.map (·.1)) :
    tag ∈ (s.view sub.id).handed ∧ tag ∉ (s.view sub.id).sending.map (·.1) := by
  cases e
  case settled name index =>
    simp only [Event.completes] at member
    split at member
    · obtain ⟨future, found, rfl⟩ := Option.map_eq_some_iff.mp (Option.mem_toList.mp member)
      have single : future.tag ∈ (s.view sub.id).singles := by
        rw [View.singles, secured.kept.solo.retired_singles found]
        exact List.mem_append_right _ List.mem_cons_self
      refine ⟨secured.kept.claimed.singles _ single, fun sent => ?_⟩
      have once := (secured.unshared future.tag).1
      have here := List.count_pos_iff.mpr single
      have there := List.count_pos_iff.mpr sent
      rw [View.claims] at once
      omega
    · cases member
  case throughSettled name index =>
    simp only [Event.completes] at member
    split at member
    · case isTrue same =>
      subst same
      refine ⟨?_, unraced index rfl⟩
      cases found : (s.lanes sub.id).pendingSettleThroughs[index]? with
      | none => simp [found] at member
      | some future =>
        simp only [found, Option.map_some, Option.getD_some] at member
        refine secured.placed.throughs future.through ?_ member
        rw [View.throughs, secured.kept.solo.retired_throughs found]
        exact List.mem_append_right _ List.mem_cons_self
    · cases member
  all_goals cases member

theorem Tracked.step (tracked : Tracked sub journal) (known : settings.Knows sub)
    (secured : Secured sub (journal.state.view sub.id)) (unraced : Unraced journal e)
    (stepped : journal.step sha256 settings e = some next) : Tracked sub next := by
  obtain ⟨t, step, rfl⟩ := Option.map_eq_some_iff.mp stepped
  intro tag state stored terminal
  dsimp only at stored ⊢
  split at stored
  -- a completion stores the state
  · case isTrue member =>
    have resting : e.claiming = false := by cases e <;> first | rfl | cases member
    have apart : ∀ index, e = .throughSettled sub.id index → tag ∉ (journal.state.view sub.id).sending.map (·.1) := by
      rintro index rfl sent
      obtain ⟨entry, among, rfl⟩ := List.mem_map.mp sent
      obtain ⟨sending, listed, own⟩ := List.mem_filterMap.mp among
      obtain ⟨same, here⟩ := Option.ite_none_right_eq_some.mp own
      cases here
      exact unraced sending listed same member
    obtain ⟨handed, unsent⟩ := secured.completed member apart
    obtain ⟨sending, -⟩ := step_rests known secured.kept.sequenced step resting
    exact ⟨step_handed known step handed, stored, sending ▸ unsent⟩
  -- the token keeps it
  · case isFalse outside =>
    obtain ⟨handed, holds, unsent⟩ := tracked tag state stored terminal
    refine ⟨step_handed known step handed, ?_⟩
    by_cases resting : e.claiming = false
    · obtain ⟨sending, states⟩ := step_rests known secured.kept.sequenced step resting
      exact ⟨(states tag handed outside).trans holds, sending ▸ unsent⟩
    cases e
    case claim name token settlement =>
      rcases @claim_views _ sub _ _ _ _ _ _ step with ⟨-, same⟩ | ⟨-, -, record, found, pending, claimed⟩
      · exact ⟨(congrArg (fun v => v.lane.states tag) same).trans holds, same ▸ unsent⟩
      · have ne : tag ≠ token := by
          rintro rfl
          simp only [Lane.states, found, Option.map_some, pending] at holds
          exact terminal (Option.some.inj holds).symm
        refine ⟨(congrArg (fun v => v.lane.states tag) claimed).trans ((Lane.setState_other ne).trans holds), ?_⟩
        rw [claimed, List.map_append, List.mem_append]
        exact not_or.mpr ⟨unsent, fun newest => ne (List.mem_singleton.mp newest)⟩
    case send index =>
      obtain ⟨sending, -, ⟨-, same⟩ | ⟨-, rest, perm, sent⟩⟩ := @send_views _ sub _ _ _ _ step
      · exact ⟨(congrArg (fun v => v.lane.states tag) same).trans holds, same ▸ unsent⟩
      · have tags := perm.map (·.1)
        have ne : tag ≠ sending.tag := fun same => unsent (tags.mem_iff.mpr (same ▸ List.mem_cons_self))
        have fewer : tag ∉ rest.map (·.1) := fun member => unsent (tags.mem_iff.mpr (List.mem_cons_of_mem _ member))
        rcases sent with queued | ⟨given, -, lost⟩
        · refine ⟨(congrArg (fun v => v.lane.states tag) queued).trans holds, ?_⟩
          rw [queued]
          exact fewer
        · refine ⟨(congrArg (fun v => v.lane.states tag) lost).trans ((Lane.setState_other ne).trans holds), ?_⟩
          rw [lost]
          exact fewer
    all_goals exact absurd rfl resting

/-- However threads and completions interleave, a token is enqueued once at most between two Pending
states. As long as no cumulative acknowledgement of a delivery completes within a `try_settle` of it, a
token whose last completion stored another state than Pending keeps that state. -/
theorem stored_state_kept (known : settings.Knows sub) :
    (∀ journal, Reachable (journals sha256 settings) journal → ∀ tag, journal.enqueued sub.id tag ≤ 1) ∧
    (∀ journal, Reaches (journals sha256 settings) Unraced journal → ∀ tag state,
      journal.stored sub.id tag = some state → state ≠ .pending →
        (journal.state.lanes sub.id).states tag = some state) := by
  have secured {Allowed : Journal → Event → Prop} (journal : Journal)
      (reached : Reaches (journals sha256 settings) Allowed journal) : Secured sub (journal.state.view sub.id) :=
    secured_of_reaches known (journal_reaches reached)
  constructor
  · intro journal reached tag
    have counted : Counted sub journal := by
      refine reached.invariant_of secured ?_ fun secured counted _ stepped => counted.step known secured stepped
      rintro journal rfl tag
      exact ⟨Nat.zero_le 1, fun _ => rfl⟩
    exact (counted tag).1
  · intro journal reached tag state stored terminal
    have tracked : Tracked sub journal := by
      refine reached.invariant_of secured ?_ fun secured tracked unraced stepped =>
        tracked.step known secured unraced stepped
      rintro journal rfl tag state stored
      cases stored
    exact (tracked tag state stored terminal).2.1

instance (journal : Journal) (e : Event) : Decidable (Unraced journal e) := by
  unfold Unraced
  split <;> infer_instance

def acknowledgedUpTo : List Event :=
  [.deliver "jobs" { tag := 1 }, .controlDry, .incoming, .incomingDry, .pop, .settleThrough "jobs" 1, .control,
    .controlDry, .incomingDry, .performThrough "jobs" 0 (.ok ())]

theorem acknowledged_state_kept : ∃ journal, Reaches (journals id jobsOnly) Unraced journal ∧
    journal.stored "jobs" 1 = some .acked ∧ (journal.state.lanes "jobs").states 1 = some .acked := by
  obtain ⟨journal, reached, acked⟩ := exists_reached (journals id jobsOnly) Unraced rfl
    (acknowledgedUpTo ++ [.throughSettled "jobs" 0])
    (fun journal => journal.stored "jobs" 1 = some .acked) (by decide +kernel)
  exact ⟨journal, reached, acked,
    (stored_state_kept jobs_known).2 journal reached 1 .acked acked (by rintro ⟨⟩)⟩

/-- The thread's channel is full once the cumulative acknowledgement has completed. -/
theorem rollback_overwrites_stored_state : ∃ journal, Reachable (journals id jobsOnly) journal ∧
    journal.stored "jobs" 1 = some .acked ∧ (journal.state.lanes "jobs").states 1 = some .pending := by
  exact exists_reachable (journals id jobsOnly) rfl
    (acknowledgedUpTo ++ [.claim "jobs" 1 .ack, .throughSettled "jobs" 0] ++
      List.replicate commandCapacity .prefetchStats ++ [.send 0]) _ (by decide +kernel)

end RabbitRs.Consumer
