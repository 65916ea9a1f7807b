import RabbitRs.Consumer.Outstanding

/-!
The settlements on the wire, with acknowledgements before and after the hand-off.
-/

namespace RabbitRs.Consumer

open StepMachine
open Ordered (Table)

variable {sub : Subscription} {capacity : Nat} {v w : View}

structure Early (sub : Subscription) (v : View) : Prop where
  futures : v.lane.pendingSettlements = [] ∧ v.lane.pendingSettleThroughs = []
  batch : v.lane.ackedBatch.entries = []
  finishing : v.finishing = none
  sending : v.sending = []
  commands : ∀ command ∈ v.commands, ∃ tag, command = .through tag
  tokens : ∀ tag token, v.lane.tokens tag = some token → token.state = .autoAcked
  untold : ∀ entry ∈ v.lane.ledger.pending.entries, entry.2 = false
  bounded : ∀ tag ∈ v.lane.outstanding, tag ≤ v.lane.lastTag
  single : ∀ frame ∈ v.lane.tasks, frame.single = true
  nodup : (v.lane.tasks.map (·.tag)).Nodup
  tasks : ∀ frame ∈ v.lane.tasks, sub.noAck = false ∧ frame.tag ∈ v.lane.outstanding
  due : sub.noAck = false → ∀ d ∈ v.lane.buffer ++ v.parked ++ v.incoming,
    d.tag ∈ v.lane.outstanding ∧ d.tag ∉ v.lane.tasks.map (·.tag) ∨
      v.lane.buffer.head? = some d ∧ d.tag ∈ v.lane.earlyAcked

theorem early_initial : Early sub .initial where
  futures := ⟨rfl, rfl⟩
  batch := rfl
  finishing := rfl
  sending := rfl
  commands := by rintro _ ⟨⟩
  tokens := by rintro _ _ ⟨⟩
  untold := by rintro _ ⟨⟩
  bounded := by rintro _ ⟨⟩
  single := by rintro _ ⟨⟩
  nodup := List.nodup_nil
  tasks := by rintro _ ⟨⟩
  due := by rintro _ _ ⟨⟩

theorem Early.flow (early : Early sub v) (desk : w.lane.desk = v.lane.desk) (finishing : w.finishing = v.finishing)
    (commands : w.commands = v.commands ∧ w.sending = v.sending)
    (tokens : ∀ tag token, w.lane.tokens tag = some token → token.state = .autoAcked)
    (untold : ∀ entry ∈ w.lane.ledger.pending.entries, entry.2 = false)
    (outstanding : w.lane.outstanding = v.lane.outstanding ∧ w.lane.lastTag = v.lane.lastTag)
    {spawned : Option Frame} (tasks : w.lane.tasks = v.lane.tasks ++ spawned.toList)
    (fresh : ∀ frame ∈ spawned, sub.noAck = false ∧ frame.single = true ∧
      frame.tag ∈ v.lane.outstanding ∧ frame.tag ∉ v.lane.tasks.map (·.tag))
    (due : sub.noAck = false → ∀ d ∈ w.lane.buffer ++ w.parked ++ w.incoming,
      d ∈ v.lane.buffer ++ v.parked ++ v.incoming ∧ (∀ frame ∈ spawned, d.tag ≠ frame.tag) ∧
        (v.lane.buffer.head? = some d → w.lane.buffer.head? = some d ∧ w.lane.earlyAcked = v.lane.earlyAcked) ∨
      w.lane.buffer.head? = some d ∧ d.tag ∈ w.lane.earlyAcked) : Early sub w := by
  have singles : w.lane.pendingSettlements = v.lane.pendingSettlements := congrArg Desk.pendingSettlements desk
  have batch : w.lane.ackedBatch = v.lane.ackedBatch := congrArg Desk.ackedBatch desk
  have split : ∀ frame, frame ∈ w.lane.tasks ↔ frame ∈ v.lane.tasks ∨ frame ∈ spawned := by
    intro frame
    rw [tasks, List.mem_append, Option.mem_toList]
    rfl
  refine ⟨?_, batch ▸ early.batch, finishing ▸ early.finishing, commands.2 ▸ early.sending,
    commands.1 ▸ early.commands, tokens, untold, ?_, ?_, ?_, ?_, ?_⟩
  · rw [singles, Lane.futures_of_desk desk]
    exact early.futures
  · rw [outstanding.1, outstanding.2]
    exact early.bounded
  · intro frame member
    rcases (split frame).mp member with older | newest
    · exact early.single frame older
    · exact (fresh frame newest).2.1
  · rw [tasks, List.map_append]
    refine List.nodup_append.mpr ⟨early.nodup, ?_, ?_⟩
    · cases spawned with
      | none => exact List.nodup_nil
      | some frame => exact List.nodup_singleton _
    · intro tag member other newest same
      obtain ⟨frame, own, rfl⟩ := List.mem_map.mp newest
      exact (fresh frame (Option.mem_toList.mp own)).2.2.2 (same ▸ member)
  · intro frame member
    rw [outstanding.1]
    rcases (split frame).mp member with older | newest
    · exact early.tasks frame older
    · exact ⟨(fresh frame newest).1, (fresh frame newest).2.2.1⟩
  · intro acked d member
    rw [outstanding.1]
    rcases due acked d member with ⟨before, apart, front⟩ | remembered
    · rcases early.due acked d before with ⟨held, free⟩ | ⟨head, ring⟩
      · refine .inl ⟨held, fun inside => ?_⟩
        obtain ⟨frame, among, same⟩ := List.mem_map.mp inside
        rcases (split frame).mp among with older | newest
        · exact free (same ▸ List.mem_map_of_mem older)
        · exact apart frame newest same.symm
      · obtain ⟨head, same⟩ := front head
        exact .inr ⟨head, same ▸ ring⟩
    · exact .inr remembered

theorem Early.calm (early : Early sub v) (desk : w.lane.desk = v.lane.desk) (finishing : w.finishing = v.finishing)
    (commands : w.commands = v.commands ∧ w.sending = v.sending)
    (tokens : ∀ tag token, w.lane.tokens tag = some token → token.state = .autoAcked)
    (untold : ∀ entry ∈ w.lane.ledger.pending.entries, entry.2 = false)
    (outstanding : w.lane.outstanding = v.lane.outstanding ∧ w.lane.lastTag = v.lane.lastTag)
    (tasks : w.lane.tasks = v.lane.tasks)
    (due : ∀ d ∈ w.lane.buffer ++ w.parked ++ w.incoming, d ∈ v.lane.buffer ++ v.parked ++ v.incoming ∧
      (v.lane.buffer.head? = some d → w.lane.buffer.head? = some d ∧ w.lane.earlyAcked = v.lane.earlyAcked)) :
    Early sub w := by
  have nothing : w.lane.tasks = v.lane.tasks ++ (none : Option Frame).toList := by simp [tasks]
  refine early.flow desk finishing commands tokens untold outstanding nothing nofun fun _ d member => .inl ?_
  obtain ⟨before, front⟩ := due d member
  exact ⟨before, nofun, front⟩

section Flows

variable {d : Delivery} {rest before after : List Delivery}

theorem Early.untold_receive (early : Early sub v) :
    ∀ entry ∈ (v.lane.receive d).ledger.pending.entries, entry.2 = false := by
  intro entry member
  rcases Table.mem_entries_insert member with older | rfl
  · exact early.untold entry older
  · rfl

theorem Early.untold_discard {lane : Lane}
    (untold : ∀ entry ∈ lane.ledger.pending.entries, entry.2 = false) :
    ∀ entry ∈ (lane.discard sub d).ledger.pending.entries, entry.2 = false := by
  intro entry member
  rw [Lane.ledger_of_books (Lane.discard_books sub d)] at member
  exact untold entry (List.mem_filter.mp member).1

theorem Early.discard (early : Early sub v) (kept : Kept sub v) (flow : Flow sub capacity v w)
    (queues : v.lane.buffer ++ v.parked ++ v.incoming = before ++ d :: after)
    (left : w.lane.buffer ++ w.parked ++ w.incoming = before ++ after)
    (buffer : w.lane.buffer = v.lane.buffer) (inFront : v.lane.buffer <+: before)
    (ring : w.lane.earlyAcked = v.lane.earlyAcked) (tokens : w.lane.tokens = v.lane.tokens)
    (untold : ∀ entry ∈ w.lane.ledger.pending.entries, entry.2 = false)
    (tasks : w.lane.tasks = v.lane.tasks ++ (sub.settlePoison (some sub.identity) d.tag).toList) :
    Early sub w := by
  obtain ⟨-, once⟩ := kept.held_once queues
  refine early.flow flow.desk flow.same_finishing flow.same_commands (tokens ▸ early.tokens) untold
    flow.outstanding tasks (fun frame spawned => ?_) fun acked a member => .inl ?_
  · obtain ⟨own, single⟩ := settlePoison_frame spawned
    have acked : sub.noAck = false := by
      unfold Subscription.settlePoison at spawned
      by_contra silent
      rw [Bool.not_eq_false] at silent
      simp [silent] at spawned
    have held : d ∈ v.lane.buffer ++ v.parked ++ v.incoming := by simp [queues]
    rw [own]
    rcases early.due acked d held with ⟨outstanding, free⟩ | ⟨head, -⟩
    · exact ⟨acked, single, outstanding, free⟩
    · have earlier := inFront.subset (List.mem_of_head? head)
      exact absurd rfl (once d (List.mem_append_left _ earlier))
  · rw [left] at member
    refine ⟨?_, fun frame spawned => ?_, fun head => ⟨buffer ▸ head, ring⟩⟩
    · rw [queues]
      exact List.mem_append.mpr ((List.mem_append.mp member).imp_right fun later => List.mem_cons_of_mem d later)
    · rw [(settlePoison_frame spawned).1]
      exact once a member

theorem Flow.early (eager : sub.earlyAck = true) (flow : Flow sub capacity v w) (kept : Kept sub v)
    (early : Early sub v) : Early sub w := by
  have moved := flow
  cases flow
  case park d rest front _ =>
    refine early.calm moved.desk rfl ⟨rfl, rfl⟩ early.tokens early.untold_receive ⟨rfl, rfl⟩ rfl
      fun a member => ⟨?_, fun head => ⟨head, rfl⟩⟩
    simpa [front, Lane.receive] using member
  case enroll d rest front idle _ =>
    refine early.calm moved.desk rfl ⟨rfl, rfl⟩ early.tokens early.untold_receive ⟨rfl, rfl⟩ rfl
      fun a member => ⟨?_, fun head => ⟨?_, rfl⟩⟩
    · simpa [front, idle, Lane.receive, Lane.enroll] using member
    · simp [Lane.receive, Lane.enroll, List.head?_append, head]
  case refuse d rest front _ =>
    have queues : v.lane.buffer ++ v.parked ++ v.incoming = (v.lane.buffer ++ v.parked) ++ d :: rest := by
      rw [front]
    exact early.discard kept moved queues (congrArg (· ++ v.parked ++ rest) (Lane.discard_buffer d))
      (Lane.discard_buffer d) (List.prefix_append _ _) (congrArg Stock.earlyAcked (Lane.discard_stock sub d))
      (Lane.discard_tokens d) (Early.untold_discard early.untold_receive) (Lane.discard_tasks d)
  case unpark d rest front _ =>
    refine early.calm moved.desk rfl ⟨rfl, rfl⟩ early.tokens early.untold ⟨rfl, rfl⟩ rfl
      fun a member => ⟨?_, fun head => ⟨?_, rfl⟩⟩
    · simpa [front, Lane.enroll] using member
    · simp [Lane.enroll, List.head?_append, head]
  case unparkOversized d rest front _ =>
    have queues : v.lane.buffer ++ v.parked ++ v.incoming = v.lane.buffer ++ d :: (rest ++ v.incoming) := by
      rw [front, List.append_assoc]
      rfl
    refine early.discard kept moved queues ?_
      (Lane.discard_buffer d) (List.prefix_refl _) (congrArg Stock.earlyAcked (Lane.discard_stock sub d))
      (Lane.discard_tokens d) (Early.untold_discard early.untold) (Lane.discard_tasks d)
    rw [← List.append_assoc]
    exact congrArg (· ++ rest ++ v.incoming) (Lane.discard_buffer d)
  case poison late _ | tokenize late _ | hand late _ => cases late.symm.trans eager
  case earlyAck d rest front _ acked unknown =>
    have queues : v.lane.buffer ++ v.parked ++ v.incoming = [] ++ d :: (rest ++ v.parked ++ v.incoming) := by
      rw [front]
      rfl
    obtain ⟨-, once⟩ := kept.held_once queues
    have held : d ∈ v.lane.buffer ++ v.parked ++ v.incoming := by simp [front]
    obtain ⟨outstanding, free⟩ := (early.due acked d held).resolve_right fun remembered => unknown remembered.2
    have tasks : (v.lane.earlyAck capacity d.tag).tasks = v.lane.tasks ++ (some (Frame.ack d.tag false)).toList := rfl
    refine early.flow moved.desk rfl ⟨rfl, rfl⟩ early.tokens early.untold ⟨rfl, rfl⟩ tasks
      (fun frame spawned => ?_) fun _ a member => ?_
    · cases spawned
      exact ⟨acked, rfl, outstanding, free⟩
    · have among : a = d ∨ a ∈ rest ++ v.parked ++ v.incoming := by
        change a ∈ v.lane.buffer ++ v.parked ++ v.incoming at member
        simpa [front] using member
      rcases among with rfl | later
      · refine .inr ⟨?_, List.mem_append_right _ List.mem_cons_self⟩
        change v.lane.buffer.head? = some a
        rw [front]
        rfl
      · have apart := once a later
        refine .inl ⟨member, fun frame spawned => ?_, fun head => ?_⟩
        · cases spawned
          exact apart
        · rw [front] at head
          cases head
          exact absurd rfl apart
  case handEarly d rest front _ _ =>
    have queues : v.lane.buffer ++ v.parked ++ v.incoming = [] ++ d :: (rest ++ v.parked ++ v.incoming) := by
      rw [front]
      rfl
    obtain ⟨-, once⟩ := kept.held_once queues
    refine early.calm moved.desk rfl ⟨rfl, rfl⟩ (fun tag token found => ?_) early.untold ⟨rfl, rfl⟩ rfl
      fun a member => ⟨?_, fun head => ?_⟩
    · by_cases same : tag = d.tag
      · subst same
        cases (Function.update_self d.tag _ _).symm.trans found
        rfl
      · exact early.tokens tag token ((Function.update_of_ne same _ _).symm.trans found)
    · rw [front]
      exact List.mem_cons_of_mem d member
    · rw [front] at head
      cases head
      exact absurd rfl (once _ member)

end Flows

theorem Lane.flushAcked_of_empty {lane : Lane} (empty : lane.ackedBatch.entries = []) : lane.flushAcked = lane := by
  unfold flushAcked
  exact if_pos (by simp [empty])

theorem Early.no_single {index : Nat} {future : SettlementFuture} (early : Early sub v)
    (found : v.lane.pendingSettlements[index]? = some future) : False := by
  simp [early.futures.1] at found

theorem Early.no_through {index : Nat} {future : ThroughFuture} (early : Early sub v)
    (found : v.lane.pendingSettleThroughs[index]? = some future) : False := by
  simp [early.futures.2] at found

theorem Early.deliver {d : Delivery} (early : Early sub v) (next : d.tag = v.lane.lastTag + 1) :
    Early sub { v with
      incoming := v.incoming ++ [d]
      lane := { v.lane with
        lastTag := d.tag
        outstanding := if sub.noAck then v.lane.outstanding else v.lane.outstanding ++ [d.tag] } } where
  futures := early.futures
  batch := early.batch
  finishing := early.finishing
  sending := early.sending
  commands := early.commands
  tokens := early.tokens
  untold := early.untold
  bounded tag member := by
    have older : tag ∈ v.lane.outstanding ∨ tag = d.tag := by
      dsimp only at member
      split at member
      · exact .inl member
      · simpa using member
    rcases older with among | rfl
    · have bound := early.bounded tag among
      dsimp only
      omega
    · exact le_rfl
  single := early.single
  nodup := early.nodup
  tasks frame member := by
    obtain ⟨acked, among⟩ := early.tasks frame member
    refine ⟨acked, ?_⟩
    rw [if_neg (by simp [acked])]
    exact List.mem_append_left _ among
  due acked a member := by
    rw [if_neg (by simp [acked])]
    dsimp only at member
    rw [← List.append_assoc] at member
    rcases List.mem_append.mp member with older | newest
    · exact (early.due acked a older).imp_left fun held => ⟨List.mem_append_left _ held.1, held.2⟩
    · obtain rfl := List.mem_singleton.mp newest
      refine .inl ⟨List.mem_append_right _ List.mem_cons_self, fun spawned => ?_⟩
      obtain ⟨frame, among, own⟩ := List.mem_map.mp spawned
      have bound := early.bounded _ (early.tasks frame among).2
      omega

theorem Quiet.early (eager : sub.earlyAck = true) (move : Quiet sub capacity v w) (kept : Kept sub v)
    (early : Early sub v) : Early sub w := by
  cases move
  case flow flow => exact flow.early eager kept early
  case deliver next => exact early.deliver next
  case claim found pending => cases pending.symm.trans (early.tokens _ _ found)
  case send perm | giveUp perm _ => cases (early.sending ▸ perm).nil_eq
  case request tag _ =>
    refine { early with commands := fun command member => ?_ }
    rcases List.mem_append.mp member with older | newest
    · exact early.commands command older
    · exact ⟨tag, List.mem_singleton.mp newest⟩
  case decline front =>
    exact { early with commands := fun command member => early.commands command (front ▸ List.mem_cons_of_mem _ member) }
  case acceptAck front _ =>
    obtain ⟨tag, other⟩ := early.commands _ (front ▸ List.mem_cons_self)
    cases other
  case flush =>
    rw [Lane.flushAcked_of_empty early.batch]
    exact early
  case progress found _ | confirm found _ | beginSettlement found _ | closeSettlement found _ =>
    exact (early.no_single found).elim
  case endSettlement under | endThrough under => cases early.finishing.symm.trans under
  case beginThrough found _ | closeThrough found _ => exact (early.no_through found).elim
  case dropFutures => exact { early with futures := ⟨rfl, rfl⟩ }
  all_goals exact { early with }

theorem Marked.early {mark : Mark} (move : Marked v mark w) (early : Early sub v) : Early sub w := by
  cases move
  case settle front _ _ =>
    obtain ⟨tag, other⟩ := early.commands _ (front ▸ List.mem_cons_self)
    cases other
  case through through rest _ _ _ _ _ valid nonempty =>
    -- no entry of the ledger was ever marked as dispatched, so a prefix that passes is empty
    obtain ⟨listed, -, -, dispatched⟩ := Lane.walkPrefix_ok valid
    refine absurd ?_ nonempty
    rw [listed, List.nil_append, List.map_eq_nil_iff, List.eq_nil_iff_forall_not_mem]
    intro entry member
    have among := (Table.mem_after.mp (List.mem_filter.mp member).1).1
    cases (early.untold entry among).symm.trans (dispatched entry member)
  case perform found _ => exact (early.no_single found).elim
  case performThrough found _ => exact (early.no_through found).elim
  case task index frame answer found =>
    obtain ⟨rejected, sent⟩ := @Lane.transmit_eq v.lane frame (reached answer)
    have sublist := List.eraseIdx_sublist v.lane.tasks index
    have running := List.mem_of_getElem? found
    have spared : ∀ tag, tag ≠ frame.tag → frame.covers tag = false := by
      intro tag other
      rw [← Bool.not_eq_true, Frame.covers_of_single (early.single frame running)]
      exact other
    rw [sent]
    refine { early with
      bounded := fun tag member => early.bounded tag (Lane.of_mem_deduct member)
      single := fun task member => early.single task (sublist.subset member)
      nodup := early.nodup.sublist (sublist.map _)
      tasks := fun task member => ?_
      due := fun acked d member => ?_ }
    · obtain ⟨acked, outstanding⟩ := early.tasks task (sublist.subset member)
      exact ⟨acked, Lane.mem_deduct outstanding (spared _ (eraseIdx_apart early.nodup found member))⟩
    · refine (early.due acked d member).imp_left fun ⟨outstanding, free⟩ => ⟨?_, fun inside => ?_⟩
      · exact Lane.mem_deduct outstanding (spared _ fun same => free (same ▸ List.mem_map_of_mem running))
      · exact free ((sublist.map _).subset inside)

def Careful (settings : Settings) (s : State) (e : Event) : Prop :=
  ∀ sub ∈ settings.subscriptions, ∀ mark ∈ e.marks s sub.id, (s.lanes sub.id).Careful mark

instance (lane : Lane) (tag : Nat) : Decidable (lane.Free tag) := by
  unfold Lane.Free
  infer_instance

instance (lane : Lane) (mark : Mark) : Decidable (lane.Careful mark) :=
  match mark with
  | .settle tag _ => inferInstanceAs (Decidable (lane.Free tag))
  | .through whole => inferInstanceAs (Decidable (∀ through ∈ lane.throughs, whole.target ∉ through.affected))
  | .frame (.ack target true) _ => inferInstanceAs (Decidable (∀ frame ∈ lane.tasks, target < frame.tag))
  | .frame (.ack _ false) _ => .isTrue trivial
  | .frame (.reject _ _) _ => .isTrue trivial

instance (settings : Settings) (s : State) (e : Event) : Decidable (Careful settings s e) := by
  unfold Careful
  infer_instance

variable {sha256 : Bytes → Bytes} {settings : Settings} {s t : State} {e : Event}

theorem Settings.Knows.member (known : settings.Knows sub) : sub ∈ settings.subscriptions :=
  List.mem_of_find?_eq_some known

theorem Settings.Knows.acked (known : settings.Knows sub) (late : sub.earlyAck = false) : sub.noAck = false := by
  by_contra silent
  rw [Bool.not_eq_false] at silent
  cases (settings.noAck_early sub known.member silent).symm.trans late

theorem takesUp_decision {id : String} {command : Command} {frame : Frame} {sent : Bool} :
    s.takesUp id command ≠ some (.frame frame sent) := by
  unfold State.takesUp
  split
  · split <;> nofun
  · split
    · split <;> nofun
    · nofun
  · nofun
  · nofun

theorem frame_marked {frame : Frame} {sent : Bool} (stepped : step sha256 settings s e = some t)
    (sends : e.marks s sub.id = some (.frame frame sent)) :
    Marked (s.view sub.id) (.frame frame sent) (t.view sub.id) := by
  cases e
  case control =>
    obtain ⟨command, -, taken⟩ := Option.bind_eq_some_iff.mp sends
    exact absurd taken takesUp_decision
  case perform name index answer =>
    simp only [Event.marks, Option.ite_none_right_eq_some] at sends
    obtain ⟨rfl, sends⟩ := sends
    simp only [step, Option.bind_eq_some_iff, Option.ite_none_right_eq_some, Option.some.injEq] at stepped
    obtain ⟨future, pending, own, next, -, rfl⟩ := stepped
    simp only [pending, Option.bind_some, next, Option.map_some, Option.some.injEq] at sends
    cases sends
    rw [State.view_modify_self]
    exact .perform answer pending next
  case performThrough name index answer =>
    simp only [Event.marks, Option.ite_none_right_eq_some] at sends
    obtain ⟨rfl, sends⟩ := sends
    simp only [step, Option.bind_eq_some_iff] at stepped
    obtain ⟨future, pending, stepped⟩ := stepped
    split at stepped
    · rename_i unanswered
      simp only [Option.ite_none_right_eq_some, Option.some.injEq] at stepped
      obtain ⟨-, rfl⟩ := stepped
      simp only [pending, Option.map_some, Option.some.injEq] at sends
      cases sends
      rw [State.view_modify_self]
      exact .performThrough answer pending unanswered
    · cases stepped
  case runTask name index answer =>
    simp only [Event.marks, Option.ite_none_right_eq_some] at sends
    obtain ⟨rfl, sends⟩ := sends
    simp only [step, Option.bind_eq_some_iff, Option.ite_none_left_eq_some, Option.some.injEq] at stepped
    obtain ⟨own, spawned, -, rfl⟩ := stepped
    simp only [spawned, Option.map_some, Option.some.injEq] at sends
    cases sends
    rw [State.view_modify_self]
    exact .task answer spawned
  all_goals cases sends

structure Orderly (sub : Subscription) (v : View) : Prop where
  kept : Kept sub v
  answered : Answered v
  disciplined : Disciplined v
  unspent : Unspent v

end RabbitRs.Consumer
