import Mathlib.Data.List.Flatten
import RabbitRs.Consumer.Parking
import RabbitRs.Consumer.Settlements
import RabbitRs.Lib.Tally

/-!
The byte budget of a subscription: what the actor counts is what it holds, the deliveries in the buffer
and the ones handed over and not settled for good.
-/

namespace RabbitRs.Consumer

open StepMachine
open Ordered (Table)
open Tally (total)

variable {sub : Subscription} {capacity : Nat} {v w : View}

def Item.size (item : Item) : Nat := item.payload.length

def itemsBut (gone : List Nat) (items : List Item) : List Item := items.filter fun item => item.tag ∉ gone

def View.released (v : View) : List Nat := (v.finishing.map Finishing.released).getD []

/-- The deliveries handed over that still count: not settled, and not about to be. -/
def View.unsettled (v : View) : List Item := itemsBut (v.lane.settled ++ v.released) (v.popped ++ v.queue)

def View.charged (v : View) : Nat := total Delivery.size v.lane.buffer + total Item.size v.unsettled

section Items

variable {items : List Item} {gone : List Nat} {tag : Nat}

theorem mem_itemsBut {item : Item} : item ∈ itemsBut gone items ↔ item ∈ items ∧ item.tag ∉ gone := by
  simp [itemsBut]

theorem itemsBut_append {more : List Nat} : itemsBut (gone ++ more) items = itemsBut more (itemsBut gone items) := by
  simp only [itemsBut, List.filter_filter]
  refine List.filter_congr fun item _ => ?_
  simp [not_or, Bool.and_comm]

theorem itemsBut_congr {other : List Nat} (same : ∀ item ∈ items, item.tag ∈ gone ↔ item.tag ∈ other) :
    itemsBut gone items = itemsBut other items := by
  refine List.filter_congr fun item member => ?_
  simp [same item member]

theorem itemsBut_drop {item : Item} (among : item.tag ∈ gone) : itemsBut gone (items ++ [item]) = itemsBut gone items := by
  simp [itemsBut, among]

theorem itemsBut_keep {item : Item} (outside : item.tag ∉ gone) :
    itemsBut gone (items ++ [item]) = itemsBut gone items ++ [item] := by
  simp [itemsBut, outside]

theorem total_itemsBut_le : total Item.size (itemsBut gone items) ≤ total Item.size items := by
  have split := Tally.total_filter Item.size (fun item => decide (item.tag ∉ gone)) items
  unfold itemsBut
  omega

theorem total_itemsBut_single (distinct : (items.map (·.tag)).Nodup) {item : Item} (member : item ∈ items) :
    total Item.size (itemsBut [item.tag] items) + item.size = total Item.size items := by
  induction items with
  | nil => cases member
  | cons first rest ih =>
    obtain ⟨fresh, distinct⟩ := List.nodup_cons.mp distinct
    rcases List.mem_cons.mp member with rfl | later
    · have others : itemsBut [item.tag] rest = rest := by
        refine List.filter_eq_self.mpr fun other among => ?_
        have apart : other.tag ≠ item.tag := fun same => fresh (List.mem_map.mpr ⟨other, among, same⟩)
        simp [apart]
      have dropped : itemsBut [item.tag] (item :: rest) = itemsBut [item.tag] rest := by simp [itemsBut]
      rw [dropped, others, Tally.total_cons]
      omega
    · have apart : first.tag ≠ item.tag := fun same => fresh (List.mem_map.mpr ⟨item, later, same.symm⟩)
      have kept : itemsBut [item.tag] (first :: rest) = first :: itemsBut [item.tag] rest := by simp [itemsBut, apart]
      have less := ih distinct later
      rw [kept, Tally.total_cons, Tally.total_cons]
      omega

end Items

/-! ### Where a tag is -/

structure Placed (v : View) : Prop where
  pending : ∀ tag ∈ v.lane.ledger.pending.keys, tag ∉ v.lane.discarded
  settled : ∀ tag ∈ v.lane.settled, tag ∈ v.lane.discarded ∨ tag ∈ v.handed
  throughs : ∀ through ∈ v.throughs, through.affected ⊆ v.handed

theorem Lane.discard_settled {lane : Lane} (d : Delivery) :
    (lane.discard sub d).settled = lane.settled ++ [d.tag] := congrArg Books.settled (discard_books sub d)

theorem Sequenced.held_apart (sequenced : Sequenced sub v) {d : Delivery}
    (held : d ∈ v.lane.buffer ++ v.parked ++ v.incoming) : d.tag ∉ v.lane.discarded ∧ d.tag ∉ v.handed := by
  constructor
  · intro given
    rcases List.mem_append.mp held with here | later
    · obtain ⟨out, -, kept⟩ := sequenced.kept
      have among : d ∈ keptOf v.lane.stock.arrived v.lane.stock.discarded := by
        rw [kept]
        exact List.mem_append_right _ here
      have spared := (List.mem_filter.mp among).2
      simp only [decide_eq_true_eq] at spared
      exact spared given
    · obtain ⟨a, among, same⟩ := List.mem_map.mp (sequenced.received _ given)
      have ascending := sequenced.ascending
      rw [List.map_append] at ascending
      have less := (List.pairwise_append.mp ascending).2.2 a.tag (List.mem_map_of_mem among) d.tag
        (List.mem_map_of_mem later)
      omega
  · intro handed
    exact absurd (sequenced.handed_lt handed held) (lt_irrefl _)

theorem View.held_front {d : Delivery} {rest : List Delivery} (front : v.lane.buffer = d :: rest) :
    d ∈ v.lane.buffer ++ v.parked ++ v.incoming :=
  List.mem_append_left _ (List.mem_append_left _ (front ▸ List.mem_cons_self))

theorem Placed.handed_upTo (placed : Placed v) (kept : Kept sub v) {tag upTo : Nat} (handed : upTo ∈ v.handed)
    (pending : tag ∈ v.lane.ledger.pending.keys) (below : tag ≤ upTo) : tag ∈ v.handed := by
  obtain ⟨d, received, rfl⟩ := List.mem_map.mp (kept.booked.balanced.known tag pending)
  obtain ⟨out, items, listed⟩ := kept.sequenced.kept
  have among : d ∈ keptOf v.lane.stock.arrived v.lane.stock.discarded := by
    exact List.mem_filter.mpr ⟨received, decide_eq_true (placed.pending d.tag pending)⟩
  rw [listed] at among
  rcases List.mem_append.mp among with gone | held
  · rw [View.handed, items, List.map_map]
    exact List.mem_map.mpr ⟨d, gone, rfl⟩
  · have less := kept.sequenced.handed_lt handed (List.mem_append_left _ held)
    omega

theorem Flow.placed (flow : Flow sub capacity v w) (kept : Kept sub v) (placed : Placed v) : Placed w := by
  have throughs : ∀ through ∈ w.throughs, through.affected ⊆ w.handed := by
    rw [View.throughs_of_desk flow.desk flow.same_finishing]
    exact fun through member => List.Subset.trans (placed.throughs through member) flow.handed_subset
  have received : ∀ {d : Delivery} {rest : List Delivery} {tag : Nat}, v.incoming = d :: rest →
      tag ∈ (v.lane.receive d).ledger.pending.keys → tag ∉ v.lane.discarded := by
    intro d rest tag front member
    rcases Table.mem_keys_insert.mp member with rfl | older
    · exact (kept.sequenced.held_apart (List.mem_append_right _ (front ▸ List.mem_cons_self))).1
    · exact placed.pending tag older
  have given : ∀ {lane : Lane} {d : Delivery} {parked incoming : List Delivery},
      (∀ tag ∈ lane.ledger.pending.keys, tag ∉ lane.discarded) → lane.settled = v.lane.settled →
      lane.discarded = v.lane.discarded →
      (∀ tag ∈ (lane.discard sub d).ledger.pending.keys, tag ∉ (lane.discard sub d).discarded) ∧
        ∀ tag ∈ (lane.discard sub d).settled, tag ∈ (lane.discard sub d).discarded ∨
          tag ∈ View.handed { v with lane := lane.discard sub d, parked, incoming } := by
    intro lane d parked incoming pending settled discarded
    have books := @Lane.discard_books lane sub d
    have stock : (lane.discard sub d).discarded = lane.discarded ++ [d.tag] :=
      congrArg Stock.discarded (Lane.discard_stock sub d)
    rw [stock, Lane.discard_settled, Lane.ledger_of_books books]
    refine ⟨fun tag member => ?_, fun tag member => ?_⟩
    · obtain ⟨among, other⟩ := Table.mem_keys_erase.mp member
      simp [pending tag among, other]
    · rcases List.mem_append.mp member with older | newest
      · rw [settled] at older
        rw [discarded]
        exact (placed.settled tag older).imp_left fun here => List.mem_append_left _ here
      · exact .inl (List.mem_append_right _ newest)
  cases flow
  case park front _ | enroll front _ _ => exact ⟨fun tag => received front, placed.settled, throughs⟩
  case refuse d rest front _ =>
    obtain ⟨pending, settled⟩ := @given { v.lane.receive d with
      bufferedBytes := (v.lane.receive d).bufferedBytes + d.size } d v.parked rest (fun tag => received front) rfl rfl
    exact ⟨pending, settled, throughs⟩
  case unparkOversized d rest front _ =>
    obtain ⟨pending, settled⟩ := @given { v.lane with bufferedBytes := v.lane.bufferedBytes + d.size } d rest
      v.incoming placed.pending rfl rfl
    exact ⟨pending, settled, throughs⟩
  case poison d rest front _ _ =>
    obtain ⟨pending, settled⟩ := @given { v.lane with buffer := rest } d v.parked v.incoming placed.pending rfl rfl
    exact ⟨pending, settled, throughs⟩
  case handEarly d rest front _ _ =>
    refine ⟨placed.pending, fun tag member => ?_, throughs⟩
    rcases List.mem_append.mp member with older | newest
    · exact (placed.settled tag older).imp_right fun here => View.handed_append _ here
    · obtain rfl := List.mem_singleton.mp newest
      exact .inr (by simp [View.handed])
  case tokenize d _ _ _ _ =>
    refine ⟨fun tag member => placed.pending tag ?_, placed.settled, throughs⟩
    exact @Lane.tokenize_keys v.lane (sub.handed d) ▸ member
  case hand d _ _ _ _ =>
    refine ⟨fun tag member => placed.pending tag ?_, fun tag member => ?_, throughs⟩
    · exact @Lane.tokenize_keys v.lane (sub.handed d) ▸ member
    · exact (placed.settled tag member).imp_right fun here => View.handed_append _ here
  all_goals exact ⟨placed.pending, placed.settled, throughs⟩

theorem Placed.keep (placed : Placed v) (handed : w.handed = v.handed)
    (discarded : w.lane.discarded = v.lane.discarded)
    (pending : ∀ tag ∈ w.lane.ledger.pending.keys, tag ∈ v.lane.ledger.pending.keys)
    (settled : ∀ tag ∈ w.lane.settled, tag ∈ v.lane.settled ∨ tag ∈ v.handed)
    (throughs : ∀ through ∈ w.throughs, through ∈ v.throughs ∨ through.affected ⊆ v.handed) : Placed w := by
  refine ⟨?_, ?_, ?_⟩
  · rw [discarded]
    exact fun tag member => placed.pending tag (pending tag member)
  · rw [discarded, handed]
    intro tag member
    rcases settled tag member with older | here
    · exact placed.settled tag older
    · exact .inr here
  · rw [handed]
    intro through member
    rcases throughs through member with older | inside
    · exact placed.throughs through older
    · exact inside

def View.reserved (v : View) : List Nat := v.singles ++ v.throughs.flatMap (·.affected)

theorem Placed.reserved_handed (placed : Placed v) (claimed : Claimed v) {tag : Nat} (member : tag ∈ v.reserved) :
    tag ∈ v.handed := by
  rcases List.mem_append.mp member with single | covered
  · exact claimed.singles tag single
  · obtain ⟨through, among, affected⟩ := List.mem_flatMap.mp covered
    exact placed.throughs through among affected

def Finishing.covered : Finishing → List Nat
  | .settlement tag _ => [tag]
  | .through whole _ => whole.affected

theorem Finishing.released_subset (finishing : Finishing) : finishing.released ⊆ finishing.covered := by
  cases finishing <;> simp only [released, covered] <;> split
  all_goals simp

theorem View.reserved_finishing {finishing : Finishing} (under : v.finishing = some finishing) :
    v.reserved.Perm (finishing.covered ++ View.reserved { v with finishing := none }) := by
  rw [View.reserved, View.reserved, View.singles, View.singles, View.throughs, View.throughs, under]
  cases finishing with
  | settlement tag result => exact .refl _
  | through whole result => exact List.perm_append_comm_assoc v.lane.singles whole.affected _

theorem View.released_reserved (v : View) : v.released ⊆ v.reserved := by
  unfold View.released
  cases under : v.finishing with
  | none => exact List.nil_subset _
  | some finishing =>
    exact fun tag own => (v.reserved_finishing under).symm.subset
      (List.mem_append_left _ (finishing.released_subset own))

def Discharges (v w : View) : Prop :=
  ∃ tags ⊆ v.reserved, w.lane.settled = v.lane.settled ++ tags ∧
    (w.winding = false → v.reserved.Nodup → ∀ tag ∈ tags, tag ∉ w.reserved)

theorem Discharges.nothing (same : w.lane.settled = v.lane.settled) : Discharges v w :=
  ⟨[], List.nil_subset _, by rw [same, List.append_nil], fun _ _ _ own => absurd own List.not_mem_nil⟩

theorem Discharges.ended {finishing : Finishing} {lane : Lane} (under : v.finishing = some finishing)
    (settled : lane.settled = v.lane.settled ++ finishing.released) (singles : lane.singles = v.lane.singles)
    (throughs : lane.throughs = v.lane.throughs) : Discharges v { v with lane, finishing := none } := by
  have staged := v.reserved_finishing under
  refine ⟨finishing.released, fun tag own => ?_, settled, fun _ nodup tag own => ?_⟩
  · exact staged.symm.subset (List.mem_append_left _ (finishing.released_subset own))
  · have same : View.reserved { v with lane, finishing := none } = View.reserved { v with finishing := none } := by
      simp only [View.reserved, View.singles, View.throughs, singles, throughs]
    rw [same]
    have apart := (List.nodup_append.mp (staged.nodup_iff.mp nodup)).2.2
    exact fun again => apart tag (finishing.released_subset own) tag again rfl

theorem Quiet.discharges (move : Quiet sub capacity v w) (solo : Solo v) :
    Flow sub capacity v w ∨ Discharges v w := by
  cases move
  case flow flow => exact .inl flow
  all_goals right
  case endSettlement tag result under =>
    exact .ended under (Lane.endSettlement_settled tag result) Lane.endSettlement_singles Lane.endSettlement_throughs
  case endThrough through result under =>
    exact .ended under (Lane.endThrough_settled through result) Lane.endThrough_singles Lane.endThrough_throughs
  case closeSettlement index future result closing found _ =>
    refine ⟨[future.tag], ?_, congrArg (·.books.settled) (Lane.closeSettlement_core index future.tag result),
      fun live => absurd (live.symm.trans closing) Bool.false_ne_true⟩
    simp [View.reserved, View.singles, solo.retired_singles found]
  case closeThrough index future result closing found _ =>
    refine ⟨future.through.affected, fun tag own => List.mem_append_right _ ?_,
      congrArg (·.books.settled) (Lane.closeThrough_core index future.through result),
      fun live => absurd (live.symm.trans closing) Bool.false_ne_true⟩
    exact List.mem_flatMap.mpr ⟨_, by simp [View.throughs, solo.retired_throughs found], own⟩
  case flush => exact .nothing (congrArg (·.books.settled) Lane.flushAcked_core)
  case beginSettlement => exact .nothing (congrArg Books.settled (Lane.beginSettlement_books _ _ _))
  case beginThrough => exact .nothing (congrArg Books.settled (Lane.beginThrough_books _ _ _))
  all_goals exact .nothing rfl

theorem Quiet.placed (move : Quiet sub capacity v w) (kept : Kept sub v) (placed : Placed v) : Placed w := by
  rcases move.writes kept.booked kept.sequenced kept.solo kept.claimed with flow | writes
  · exact flow.placed kept placed
  rcases move.discharges kept.solo with flow | ⟨tags, staged, settled, -⟩
  · exact flow.placed kept placed
  have settled : ∀ tag ∈ w.lane.settled, tag ∈ v.lane.settled ∨ tag ∈ v.handed := fun tag member =>
    (List.mem_append.mp (settled ▸ member)).imp_right fun own => placed.reserved_handed kept.claimed (staged own)
  have throughs : ∀ through ∈ w.throughs, through ∈ v.throughs ∨ through.affected ⊆ v.handed := by
    intro through member
    rcases (move.stages kept.solo).prefixes through member with older | recorded
    · exact .inl older
    · exact .inr fun tag among => kept.claimed.batch tag (recorded among)
  rcases move.stirs with flow | ⟨d, sends⟩ | same
  · exact flow.placed kept placed
  · exact placed.keep (congrArg (List.map Item.tag) sends.handed) (congrArg Stock.discarded sends.stock)
      writes.pending settled throughs
  · exact placed.keep (congrArg (List.map Item.tag) same.handed) (congrArg Stock.discarded same.stock)
      writes.pending settled throughs

theorem Marked.placed {mark : Mark} (move : Marked v mark w) (kept : Kept sub v) (placed : Placed v) : Placed w := by
  have same := move.unstirred
  have ledger := Lane.ledger_of_books move.books
  have settled : w.lane.settled = v.lane.settled := congrArg Books.settled move.books
  obtain ⟨-, throughs, -⟩ := move.stages kept.solo
  have asked := (move.asked kept.claimed).2
  have covers := move.covers kept.booked
  refine placed.keep (congrArg (List.map Item.tag) same.handed) (congrArg Stock.discarded same.stock)
    (fun tag member => ledger ▸ member) (fun tag member => .inl (settled ▸ member)) fun through member => ?_
  rw [throughs] at member
  rcases List.mem_append.mp member with older | newest
  · exact .inl older
  · have own := Option.mem_toList.mp newest
    refine .inr fun tag among => ?_
    exact placed.handed_upTo kept (asked through own) (move.listed through own tag among)
      ((covers through own).upTo tag among)

theorem placed_initial : Placed .initial :=
  ⟨fun _ none => absurd none List.not_mem_nil, fun _ none => absurd none List.not_mem_nil,
    fun _ none => absurd none List.not_mem_nil⟩

/-! ### One settlement for each delivery -/

structure Reserved (v : View) : Prop where
  nodup : v.winding = false → v.reserved.Nodup
  unsettled : v.winding = false → ∀ tag ∈ v.reserved, tag ∉ v.lane.settled

theorem Flow.settled_apart (late : sub.earlyAck = false) (flow : Flow sub capacity v w)
    (sequenced : Sequenced sub v) : ∀ tag ∈ w.lane.settled, tag ∈ v.lane.settled ∨ tag ∉ v.handed := by
  intro tag member
  obtain ⟨dropped, ended⟩ := flow.settles late
  obtain ⟨settled, discarded⟩ := Prod.mk.inj ended
  have after := flow.sequenced sequenced
  rw [settled, List.append_nil] at member
  refine (List.mem_append.mp member).imp_right fun gone handed => ?_
  have there := flow.handed_subset handed
  have kept := (after.present_iff (after.handed_received tag there)).mp (List.mem_append_right _ there)
  exact kept (discarded ▸ List.mem_append_right _ gone)

theorem Lane.flush_nodup {lane : Lane} :
    (lane.stragglers ++ lane.flushThrough.toList.flatMap (·.affected)).Nodup ∧
      ∀ tag ∈ lane.stragglers ++ lane.flushThrough.toList.flatMap (·.affected), tag ∈ lane.ledger.pending.keys := by
  have alone : lane.stragglers.Nodup := stragglers_sorted.imp fun less => ne_of_lt less
  cases staged : lane.flushThrough with
  | none =>
    simp only [Option.toList_none, List.flatMap_nil, List.append_nil]
    exact ⟨alone, fun tag member => (mem_stragglers member).2.1⟩
  | some through =>
    obtain ⟨last, run⟩ := flushThrough_eq_some.mp staged
    simp only [Option.toList_some, List.flatMap_singleton, run]
    refine ⟨List.nodup_append.mpr ⟨alone, ackedRun_sorted.imp fun less => ne_of_lt less, ?_⟩, fun tag member => ?_⟩
    · intro tag straggler other member same
      have beyond := (mem_stragglers straggler).2.2
      rw [last, Option.getD_some] at beyond
      have upTo := ackedRun_le_last last member
      omega
    · rcases List.mem_append.mp member with straggler | among
      · exact (mem_stragglers straggler).2.1
      · exact (mem_ackedRun among).2.1

theorem Stages.reserved (stages : Stages v w) (exact : Exact v.lane.ledger v.lane.arrived v.lane.settled)
    (nodup : v.reserved.Nodup) :
    w.reserved.Nodup ∧ ∀ tag ∈ w.reserved, tag ∈ v.reserved ∨ tag ∉ v.lane.settled := by
  cases stages with
  | fewer singles throughs _ _ =>
    have sublist : w.reserved.Sublist v.reserved := singles.append (throughs.flatMap _)
    exact ⟨nodup.sublist sublist, fun tag member => .inl (sublist.subset member)⟩
  | ack _ _ _ singles throughs _ _ _ =>
    have same : w.reserved = v.reserved := by rw [View.reserved, View.reserved, singles, throughs]
    rw [same]
    exact ⟨nodup, fun tag member => .inl member⟩
  | flush _ _ singles throughs _ =>
    obtain ⟨alone, pending⟩ := @Lane.flush_nodup v.lane
    rw [View.reserved, singles, throughs]
    exact ⟨alone, fun tag member => .inr ((exact tag).mp (pending tag member)).2⟩

theorem Quiet.reserved (late : sub.earlyAck = false) (move : Quiet sub capacity v w) (kept : Kept sub v)
    (placed : Placed v) (reserved : Reserved v) : Reserved w := by
  have fresh : w.winding = false →
      w.reserved.Nodup ∧ ∀ tag ∈ w.reserved, tag ∈ v.reserved ∨ tag ∉ v.lane.settled := by
    intro live
    have before := move.winding_mono live
    exact (move.stages kept.solo).reserved (kept.booked.exact late before) (reserved.nodup before)
  refine ⟨fun live => (fresh live).1, fun live tag member gone => ?_⟩
  have before := move.winding_mono live
  have unsettled : tag ∉ v.lane.settled := by
    rcases (fresh live).2 tag member with older | pending
    · exact reserved.unsettled before tag older
    · exact pending
  rcases move.discharges kept.solo with flow | ⟨tags, -, settled, apart⟩
  · rw [View.reserved, View.singles_of_desk flow.desk flow.same_finishing,
      View.throughs_of_desk flow.desk flow.same_finishing] at member
    rcases flow.settled_apart late kept.sequenced tag gone with older | outside
    · exact unsettled older
    · exact outside (placed.reserved_handed kept.claimed member)
  · rcases List.mem_append.mp (settled ▸ gone) with older | own
    · exact unsettled older
    · exact apart live (reserved.nodup before) tag own member

/-- The condition on what is taken up: no delivery that a settlement is staged for already. -/
def Lane.Exclusive (lane : Lane) : Mark → Prop
  | .settle tag _ => lane.Free tag
  | .through whole => ∀ tag ∈ whole.affected,
      tag ∉ lane.singles ∧ ∀ through ∈ lane.throughs, tag ∉ through.affected
  | .frame _ _ => True

theorem Lane.Exclusive.considerate {lane : Lane} {mark : Mark} (exclusive : lane.Exclusive mark) :
    lane.Considerate mark := by
  cases mark with
  | settle tag settlement => exact exclusive
  | through whole | frame frame reached => trivial

theorem Marked.reserved {mark : Mark} (late : sub.earlyAck = false) (move : Marked v mark w)
    (exclusive : v.lane.Exclusive mark) (kept : Kept sub v) (disciplined : Disciplined v) (reserved : Reserved v) :
    Reserved w := by
  have winding := move.same_winding
  have settled : w.lane.settled = v.lane.settled := congrArg Books.settled move.books
  obtain ⟨singles, throughs, -⟩ := move.stages kept.solo
  have fresh : w.winding = false → ∀ tag ∈ v.lane.ledger.pending.keys, tag ∉ v.lane.settled :=
    fun live tag pending => ((kept.booked.exact late (winding ▸ live) tag).mp pending).2
  -- what is new on the desk is pending, and not there yet
  suffices staged : w.winding = false → ∃ tags : List Nat, w.reserved.Perm (v.reserved ++ tags) ∧ tags.Nodup ∧
      (∀ tag ∈ tags, tag ∉ v.reserved) ∧ ∀ tag ∈ tags, tag ∈ v.lane.ledger.pending.keys by
    refine ⟨fun live => ?_, fun live tag member => ?_⟩
    · obtain ⟨tags, same, nodup, apart, -⟩ := staged live
      refine same.nodup_iff.mpr (List.nodup_append.mpr ⟨reserved.nodup (winding ▸ live), nodup, ?_⟩)
      exact fun old older new newer equal => apart new newer (equal ▸ older)
    · obtain ⟨tags, same, -, -, pending⟩ := staged live
      rw [settled]
      rcases List.mem_append.mp (same.subset member) with older | newer
      · exact reserved.unsettled (winding ▸ live) tag older
      · exact fresh live tag (pending tag newer)
  intro live
  rw [View.reserved, View.reserved, singles, throughs]
  cases mark with
  | frame frame sent => exact ⟨[], by simp [Mark.single?, Mark.through?]⟩
  | settle tag settlement =>
    have ready : v.Ready := move.ready (.inl rfl)
    have free := move.unclaimed tag (.inl rfl)
    refine ⟨[tag], ?_, List.nodup_singleton _, ?_, ?_⟩
    · simp only [Mark.single?, Mark.through?, Option.toList_some, Option.toList_none, List.append_nil,
        List.append_assoc]
      exact List.Perm.append_left _ List.perm_append_comm
    · intro other own member
      rw [List.mem_singleton.mp own] at member
      rcases List.mem_append.mp member with single | covered
      · exact absurd (disciplined.settling tag single) (by simp [free])
      · obtain ⟨through, among, affected⟩ := List.mem_flatMap.mp covered
        rw [View.throughs, ready.1] at among
        exact exclusive.2 through among affected
    · intro other own
      rw [List.mem_singleton.mp own]
      exact exclusive.1
  | through whole =>
    have ready : v.Ready := move.ready (.inr rfl)
    refine ⟨whole.affected, ?_, move.prefix_nodup whole rfl, ?_, move.listed whole rfl⟩
    · simp only [Mark.single?, Mark.through?, Option.toList_some, Option.toList_none, List.append_nil,
        List.flatMap_append, List.flatMap_singleton, List.append_assoc]
      exact List.Perm.refl _
    · intro tag own member
      obtain ⟨alone, apart⟩ := exclusive tag own
      rcases List.mem_append.mp member with single | covered
      · rw [View.singles, ready.1] at single
        exact alone single
      · obtain ⟨through, among, affected⟩ := List.mem_flatMap.mp covered
        rw [View.throughs, ready.1] at among
        exact apart through among affected

/-! ### The count -/

def View.Owes (v : View) (tags : List Nat) : Prop :=
  tags.Nodup ∧ ∀ tag ∈ tags, ∃ item ∈ v.unsettled, item.tag = tag ∧ v.lane.sizeOf tag = item.size

theorem total_itemsBut {size : Nat → Nat} {tags : List Nat} {items : List Item} (nodup : tags.Nodup)
    (distinct : (items.map (·.tag)).Nodup)
    (owed : ∀ tag ∈ tags, ∃ item ∈ items, item.tag = tag ∧ size tag = item.size) :
    total Item.size (itemsBut tags items) + total size tags = total Item.size items := by
  induction tags generalizing items with
  | nil => simp [itemsBut]
  | cons tag rest ih =>
    obtain ⟨fresh, others⟩ := List.nodup_cons.mp nodup
    obtain ⟨item, member, rfl, same⟩ := owed tag List.mem_cons_self
    have left : ∀ other ∈ rest, ∃ kept ∈ itemsBut [item.tag] items, kept.tag = other ∧ size other = kept.size := by
      intro other among
      obtain ⟨kept, held, rfl, own⟩ := owed other (List.mem_cons_of_mem _ among)
      have apart : kept.tag ≠ item.tag := fun equal => fresh (equal ▸ among)
      exact ⟨kept, mem_itemsBut.mpr ⟨held, by simp [apart]⟩, rfl, own⟩
    have less := @ih (itemsBut [item.tag] items) others (distinct.sublist (List.filter_sublist.map _)) left
    have first := total_itemsBut_single distinct member
    have split : itemsBut (item.tag :: rest) items = itemsBut rest (itemsBut [item.tag] items) :=
      @itemsBut_append items [item.tag] rest
    rw [split, Tally.total_cons, same]
    omega

theorem Lane.releaseBytes_fits {lane : Lane} {bytes : Nat} (fits : bytes ≤ lane.bufferedBytes) :
    (lane.releaseBytes bytes).bufferedBytes + bytes = lane.bufferedBytes ∧
      (lane.releaseBytes bytes).saturated = lane.saturated := by
  have enough : decide (lane.bufferedBytes < bytes) = false := decide_eq_false (by omega)
  refine ⟨Nat.sub_add_cancel fits, ?_⟩
  unfold releaseBytes
  rw [enough, Bool.or_false]

theorem Lane.releaseAffected_bytes {lane : Lane} {affected : List Nat}
    (fits : total lane.sizeOf affected ≤ lane.bufferedBytes) :
    (lane.releaseAffected affected).bufferedBytes + total lane.sizeOf affected = lane.bufferedBytes ∧
      (lane.releaseAffected affected).saturated = lane.saturated := by
  induction affected generalizing lane with
  | nil => exact ⟨rfl, rfl⟩
  | cons tag rest ih =>
    rw [Tally.total_cons] at fits ⊢
    have sizes : (lane.releaseBytes (lane.sizeOf tag)).sizeOf = lane.sizeOf := rfl
    obtain ⟨bytes, saturated⟩ := releaseBytes_fits (show lane.sizeOf tag ≤ lane.bufferedBytes by omega)
    obtain ⟨left, kept⟩ := @ih (lane.releaseBytes (lane.sizeOf tag)) (by rw [sizes]; omega)
    rw [sizes] at left
    refine ⟨?_, kept.trans saturated⟩
    change ((lane.releaseBytes (lane.sizeOf tag)).releaseAffected rest).bufferedBytes + _ = _
    omega

inductive Recount (sub : Subscription) (v w : View) : Prop where
  | keeps : w.lane.bytesheet = v.lane.bytesheet → w.charged = v.charged → Recount sub v w
  | adds (bytes : Nat) : w.lane.bytesheet = { v.lane.bytesheet with bufferedBytes := v.lane.bufferedBytes + bytes } →
      w.charged = v.charged + bytes → v.lane.bufferedBytes + bytes ≤ sub.maxBufferedBytes.toNat → Recount sub v w
  | releases (bytes : Nat) : w.charged + bytes = v.charged → (bytes ≤ v.lane.bufferedBytes →
        w.lane.bufferedBytes + bytes = v.lane.bufferedBytes ∧ w.lane.saturated = v.lane.saturated) → Recount sub v w
  | closes : w.winding = true → w.lane.bytesheet = v.lane.bytesheet → w.charged ≤ v.charged → Recount sub v w

structure Budgeted (sub : Subscription) (v : View) : Prop where
  covers : v.charged ≤ v.lane.bufferedBytes
  exact : v.winding = false → v.lane.bufferedBytes = v.charged
  within : v.lane.bufferedBytes ≤ sub.maxBufferedBytes.toNat
  unsaturated : v.lane.saturated = false

theorem Recount.budgeted (recount : Recount sub v w) (winding : w.winding = false → v.winding = false)
    (budgeted : Budgeted sub v) : Budgeted sub w := by
  obtain ⟨covers, exact, within, unsaturated⟩ := budgeted
  have before : w.winding = false → v.lane.bufferedBytes = v.charged := fun live => exact (winding live)
  cases recount with
  | keeps sheet charged | adds added sheet charged fits =>
    obtain ⟨bytes, saturated⟩ := Bytesheet.mk.inj sheet
    exact ⟨by omega, fun live => by have := before live; omega, by omega, saturated.trans unsaturated⟩
  | releases released charged sheet =>
    obtain ⟨bytes, saturated⟩ := sheet (by omega)
    exact ⟨by omega, fun live => by have := before live; omega, by omega, saturated.trans unsaturated⟩
  | closes closing sheet charged =>
    obtain ⟨bytes, saturated⟩ := Bytesheet.mk.inj sheet
    exact ⟨by omega, fun live => absurd (live.symm.trans closing) Bool.false_ne_true, by omega,
      saturated.trans unsaturated⟩

theorem View.charged_congr (buffer : w.lane.buffer = v.lane.buffer) (settled : w.lane.settled = v.lane.settled)
    (finishing : w.finishing = v.finishing) (handed : w.popped ++ w.queue = v.popped ++ v.queue) :
    w.charged = v.charged := by
  rw [View.charged, View.charged, View.unsettled, View.unsettled, View.released, View.released, buffer, settled,
    finishing, handed]

theorem itemsBut_extra {gone released : List Nat} {tag : Nat} {items : List Item}
    (outside : tag ∉ items.map (·.tag)) :
    itemsBut ((gone ++ [tag]) ++ released) items = itemsBut (gone ++ released) items := by
  refine itemsBut_congr fun item member => ?_
  have apart : item.tag ≠ tag := fun same => outside (List.mem_map.mpr ⟨item, member, same⟩)
  simp [apart]

theorem Lane.discard_bytes {lane : Lane} {d : Delivery} (fits : d.size ≤ lane.bufferedBytes) :
    (lane.discard sub d).bufferedBytes + d.size = lane.bufferedBytes ∧
      (lane.discard sub d).saturated = lane.saturated := by
  have parts := congrArg Core.bytesheet (@Lane.discard_core lane sub d)
  have bytes : (lane.discard sub d).bufferedBytes = (lane.releaseBytes d.size).bufferedBytes :=
    congrArg Bytesheet.bufferedBytes parts
  have saturated : (lane.discard sub d).saturated = (lane.releaseBytes d.size).saturated :=
    congrArg Bytesheet.saturated parts
  rw [bytes, saturated]
  exact releaseBytes_fits fits

theorem Lane.discardOversized_bytesheet {lane : Lane} (d : Delivery) :
    (lane.discardOversized sub d).bytesheet = lane.bytesheet := by
  obtain ⟨bytes, saturated⟩ := @Lane.discard_bytes sub { lane with bufferedBytes := lane.bufferedBytes + d.size } d
    (Nat.le_add_left _ _)
  have same : (lane.discardOversized sub d).bufferedBytes = lane.bufferedBytes := Nat.add_right_cancel bytes
  exact congrArg₂ Bytesheet.mk same saturated

theorem charged_enrolled (d : Delivery) :
    View.charged { v with lane := { v.lane with buffer := v.lane.buffer ++ [d] } } = v.charged + d.size := by
  rw [View.charged, View.charged, Tally.total_append, Tally.total_cons, Tally.total_nil]
  change _ + (d.size + 0) + total Item.size v.unsettled = _
  omega

theorem charged_front {d : Delivery} {rest : List Delivery} (front : v.lane.buffer = d :: rest) :
    v.charged = d.size + total Delivery.size rest + total Item.size v.unsettled := by
  rw [View.charged, front, Tally.total_cons]

theorem Flow.recount (flow : Flow sub capacity v w) (kept : Kept sub v) (placed : Placed v) : Recount sub v w := by
  have outside : ∀ {d : Delivery}, d ∈ v.lane.buffer ++ v.parked ++ v.incoming →
      d.tag ∉ (v.popped ++ v.queue).map (·.tag) := fun held => (kept.sequenced.held_apart held).2
  have given : ∀ {lane : Lane} {d : Delivery}, lane.settled = v.lane.settled →
      d ∈ v.lane.buffer ++ v.parked ++ v.incoming →
      itemsBut ((lane.discard sub d).settled ++ v.released) (v.popped ++ v.queue) = v.unsettled := by
    intro lane d same held
    rw [Lane.discard_settled, same]
    exact itemsBut_extra (outside held)
  have discarded : ∀ {lane : Lane} {d : Delivery}, (lane.discard sub d).buffer = lane.buffer :=
    congrArg Stock.buffer (Lane.discard_stock sub _)
  cases flow
  case park | earlyAck | tokenize => exact .keeps rfl rfl
  case enroll d rest _ _ fits | unpark d rest _ fits =>
    refine .adds d.size rfl ?_ (by simpa [Subscription.overBudget] using fits)
    exact charged_enrolled d
  case refuse d rest front _ =>
    refine .keeps (Lane.discardOversized_bytesheet d) (congrArg₂ (· + ·) ?_ ?_)
    · exact congrArg (total Delivery.size) discarded
    · exact congrArg (total Item.size) (given rfl (List.mem_append_right _ (front ▸ List.mem_cons_self)))
  case unparkOversized d rest front _ =>
    refine .keeps (Lane.discardOversized_bytesheet d) (congrArg₂ (· + ·) ?_ ?_)
    · exact congrArg (total Delivery.size) discarded
    · exact congrArg (total Item.size)
        (given rfl (List.mem_append_left _ (List.mem_append_right _ (front ▸ List.mem_cons_self))))
  case poison d rest front _ _ =>
    refine .releases d.size ?_ fun fits => @Lane.discard_bytes sub { v.lane with buffer := rest } d fits
    have items := @given { v.lane with buffer := rest } d rfl (View.held_front front)
    have left : ({ v.lane with buffer := rest }.discard sub d).buffer = rest := discarded
    rw [charged_front front, View.charged]
    change total Delivery.size ({ v.lane with buffer := rest }.discard sub d).buffer + total Item.size
      (itemsBut (({ v.lane with buffer := rest }.discard sub d).settled ++ v.released) (v.popped ++ v.queue)) + _ = _
    rw [items, left]
    omega
  case handEarly d rest front _ _ =>
    refine .releases d.size ?_ Lane.releaseBytes_fits
    have items : itemsBut ((v.lane.settled ++ [d.tag]) ++ v.released) (v.popped ++ (v.queue ++ [sub.handed d])) =
        v.unsettled := by
      rw [← List.append_assoc v.popped, itemsBut_drop (by simp [Subscription.handed, Subscription.item])]
      exact itemsBut_extra (outside (View.held_front front))
    rw [charged_front front, ← items]
    change total Delivery.size rest + total Item.size
      (itemsBut ((v.lane.settled ++ [d.tag]) ++ v.released) (v.popped ++ (v.queue ++ [sub.handed d]))) + _ = _
    omega
  case hand d rest front _ _ =>
    refine .keeps rfl ?_
    obtain ⟨sparing, unhanded⟩ := kept.sequenced.held_apart (View.held_front front)
    have counts : (sub.handed d).tag ∉ v.lane.settled ++ v.released := by
      intro member
      rcases List.mem_append.mp member with gone | released
      · exact (placed.settled _ gone).elim sparing unhanded
      · exact unhanded (placed.reserved_handed kept.claimed (v.released_reserved released))
    have items : itemsBut (v.lane.settled ++ v.released) (v.popped ++ (v.queue ++ [sub.handed d])) =
        v.unsettled ++ [sub.handed d] := by
      rw [← List.append_assoc v.popped]
      exact itemsBut_keep counts
    rw [charged_front front]
    change total Delivery.size rest + total Item.size
      (itemsBut (v.lane.settled ++ v.released) (v.popped ++ (v.queue ++ [sub.handed d]))) = _
    rw [items, Tally.total_append, Tally.total_cons, Tally.total_nil]
    change _ + (_ + (d.size + 0)) = _
    omega

structure Backed (v : View) : Prop where
  single : v.finishing = none → v.winding = false → ∀ future ∈ v.lane.pendingSettlements, v.Owes [future.tag]
  through : v.finishing = none → v.winding = false → ∀ future ∈ v.lane.pendingSettleThroughs,
    v.Owes future.through.affected

theorem View.Owes.nil : v.Owes [] := ⟨List.nodup_nil, fun _ none => absurd none List.not_mem_nil⟩

theorem View.Owes.total {tags : List Nat} (owes : v.Owes tags) (sequenced : Sequenced sub v) :
    total Item.size (itemsBut tags v.unsettled) + total v.lane.sizeOf tags = total Item.size v.unsettled := by
  have distinct : v.handed.Nodup := (List.pairwise_append.mp sequenced.ahead).1.imp fun less => ne_of_lt less
  exact total_itemsBut owes.1 (distinct.sublist (List.filter_sublist.map _)) owes.2

section Bytes

variable {lane : Lane} (index : Nat)

theorem Lane.beginSettlement_bytes (tag : Nat) (result : Outcome)
    (fits : total lane.sizeOf (Finishing.settlement tag result).released ≤ lane.bufferedBytes) :
    (lane.beginSettlement index tag result).bufferedBytes +
        total lane.sizeOf (Finishing.settlement tag result).released = lane.bufferedBytes ∧
      (lane.beginSettlement index tag result).saturated = lane.saturated := by
  unfold Finishing.released at fits ⊢
  unfold beginSettlement
  by_cases terminal : State.isTerminal result
  · simp only [terminal, if_true, Tally.total_cons, Tally.total_nil, Nat.add_zero] at fits ⊢
    exact @releaseBytes_fits (lane.retireSettlement index) _ fits
  · simp only [terminal]
    exact ⟨rfl, rfl⟩

theorem Lane.beginThrough_bytes (through : Through) (result : Outcome)
    (fits : total lane.sizeOf (Finishing.through through result).released ≤ lane.bufferedBytes) :
    (lane.beginThrough index through result).bufferedBytes +
        total lane.sizeOf (Finishing.through through result).released = lane.bufferedBytes ∧
      (lane.beginThrough index through result).saturated = lane.saturated := by
  unfold Finishing.released at fits ⊢
  unfold beginThrough
  by_cases terminal : State.throughTerminal result
  · simp only [terminal, if_true] at fits ⊢
    exact @releaseAffected_bytes (lane.retireSettleThrough index) _ fits
  · simp only [terminal]
    exact ⟨rfl, rfl⟩

end Bytes

theorem Recount.begun {finishing : Finishing} {lane : Lane} (sequenced : Sequenced sub v)
    (owes : v.Owes finishing.released) (free : v.finishing = none) (stock : lane.stock = v.lane.stock)
    (settled : lane.settled = v.lane.settled)
    (bytes : total v.lane.sizeOf finishing.released ≤ v.lane.bufferedBytes →
      lane.bufferedBytes + total v.lane.sizeOf finishing.released = v.lane.bufferedBytes ∧
        lane.saturated = v.lane.saturated) :
    Recount sub v { v with lane := lane, finishing := some finishing } := by
  refine .releases (total v.lane.sizeOf finishing.released) ?_ bytes
  have buffer : lane.buffer = v.lane.buffer := congrArg Stock.buffer stock
  have none : v.released = [] := by
    rw [View.released, free]
    rfl
  have items : View.unsettled { v with lane := lane, finishing := some finishing } =
      itemsBut finishing.released v.unsettled := by
    rw [View.unsettled, View.unsettled, settled, none, List.append_nil, ← itemsBut_append]
    rfl
  have less := owes.total sequenced
  rw [View.charged, View.charged, items, buffer]
  omega

theorem Recount.ended {lane : Lane} (core : lane.bytesheet = v.lane.bytesheet) (stock : lane.stock = v.lane.stock)
    (settled : lane.settled = v.lane.settled ++ v.released) :
    Recount sub v { v with lane := lane, finishing := none } := by
  refine .keeps core ?_
  have buffer : lane.buffer = v.lane.buffer := congrArg Stock.buffer stock
  have items : View.unsettled { v with lane := lane, finishing := none } = v.unsettled := by
    rw [View.unsettled, View.unsettled, settled]
    exact congrArg (itemsBut · _) (List.append_nil _)
  rw [View.charged, View.charged, items, buffer]

theorem Recount.closed {lane : Lane} {tags : List Nat} (closing : v.winding = true)
    (core : lane.core = (v.lane.recordSettled tags).core) : Recount sub v { v with lane := lane } := by
  refine .closes closing (congrArg Core.bytesheet core) ?_
  have buffer : lane.buffer = v.lane.buffer := congrArg (·.stock.buffer) core
  have settled : lane.settled = v.lane.settled ++ tags := congrArg (·.books.settled) core
  have items : View.unsettled { v with lane := lane } = itemsBut tags v.unsettled := by
    rw [View.unsettled, View.unsettled, settled, ← itemsBut_append]
    refine itemsBut_congr fun item _ => ?_
    simp only [List.mem_append]
    exact or_right_comm
  have less := @total_itemsBut_le v.unsettled tags
  rw [View.charged, View.charged, items, buffer]
  omega

theorem Quiet.recount (move : Quiet sub capacity v w) (kept : Kept sub v) (placed : Placed v) (backed : Backed v) :
    Recount sub v w := by
  cases move
  case flow flow => exact flow.recount kept placed
  case pop item rest front =>
    refine .keeps rfl (View.charged_congr rfl rfl rfl ?_)
    simp [front]
  case flush =>
    have core := @Lane.flushAcked_core v.lane
    exact .keeps (congrArg Core.bytesheet core) (View.charged_congr (congrArg (·.stock.buffer) core)
      (congrArg (·.books.settled) core) rfl rfl)
  case beginSettlement index future result free live found _ =>
    have settled := congrArg Books.settled (@Lane.beginSettlement_books v.lane index future.tag result)
    refine .begun kept.sequenced ?_ free (Lane.beginSettlement_stock index future.tag result) settled
      (Lane.beginSettlement_bytes index future.tag result)
    simp only [Finishing.released]
    split
    · exact backed.single free live future (List.mem_of_getElem? found)
    · exact .nil
  case beginThrough index future result free live found _ =>
    have settled := congrArg Books.settled (@Lane.beginThrough_books v.lane index future.through result)
    refine .begun kept.sequenced ?_ free (Lane.beginThrough_stock index future.through result) settled
      (Lane.beginThrough_bytes index future.through result)
    simp only [Finishing.released]
    split
    · exact backed.through free live future (List.mem_of_getElem? found)
    · exact .nil
  case endSettlement tag result under =>
    have core := @Lane.endSettlement_core v.lane sub tag result
    have sheet : (v.lane.endSettlement sub tag result).bytesheet = v.lane.bytesheet := by
      refine (congrArg Core.bytesheet core).trans ?_
      split <;> rfl
    refine .ended sheet (Lane.endSettlement_stock sub tag result) ?_
    rw [Lane.endSettlement_settled, View.released, under]
    rfl
  case endThrough through result under =>
    have core := @Lane.endThrough_core v.lane through result
    have sheet : (v.lane.endThrough through result).bytesheet = v.lane.bytesheet := by
      refine (congrArg Core.bytesheet core).trans ?_
      split <;> rfl
    refine .ended sheet (Lane.endThrough_stock through result) ?_
    rw [Lane.endThrough_settled, View.released, under]
    rfl
  case closeSettlement index future result closing _ _ =>
    exact .closed closing (Lane.closeSettlement_core index future.tag result)
  case closeThrough index future result closing _ _ =>
    exact .closed closing (Lane.closeThrough_core index future.through result)
  all_goals exact .keeps rfl rfl

theorem Marked.bytesheet {mark : Mark} (move : Marked v mark w) : w.lane.bytesheet = v.lane.bytesheet := by
  cases move
  case settle => exact congrArg Core.bytesheet (Lane.acceptSettlement_core _ _)
  case through => exact congrArg Core.bytesheet (Lane.acceptThrough_core _)
  all_goals exact congrArg Core.bytesheet (Lane.transmit_core _ _)

theorem Marked.recount {mark : Mark} (move : Marked v mark w) : Recount sub v w := by
  have finishing : w.finishing = v.finishing := by cases move <;> rfl
  have same := move.unstirred
  exact .keeps move.bytesheet (View.charged_congr (congrArg Stock.buffer same.stock)
    (congrArg Books.settled move.books) finishing same.handed)

theorem Reserved.owes {tags : List Nat} (reserved : Reserved v) (placed : Placed v) (claimed : Claimed v)
    (disciplined : Disciplined v) (free : v.finishing = none) (live : v.winding = false)
    (staged : tags.Sublist v.reserved) : v.Owes tags := by
  refine ⟨(reserved.nodup live).sublist staged, fun tag member => ?_⟩
  have own := staged.subset member
  obtain ⟨item, handed, rfl⟩ := List.mem_map.mp (placed.reserved_handed claimed own)
  refine ⟨item, mem_itemsBut.mpr ⟨handed, ?_⟩, rfl, ?_⟩
  · rw [View.released, free]
    simpa using reserved.unsettled live item.tag own
  · have issued := disciplined.issued item handed
    rw [Lane.issued, Option.map_eq_some_iff] at issued
    obtain ⟨token, found, rfl⟩ := issued
    rw [Lane.sizeOf, found]
    rfl

theorem Reserved.backed (reserved : Reserved v) (placed : Placed v) (claimed : Claimed v)
    (disciplined : Disciplined v) : Backed v where
  single free live future member := by
    refine reserved.owes placed claimed disciplined free live (List.singleton_sublist.mpr ?_)
    exact List.mem_append_left _ (List.mem_append_right _ (List.mem_append_left _ (List.mem_map_of_mem member)))
  through free live future member := by
    refine reserved.owes placed claimed disciplined free live ?_
    refine List.Sublist.trans ?_ (List.sublist_append_right _ _)
    have staged : future.through ∈ v.throughs :=
      List.mem_append_right _ (List.mem_append_left _ (List.mem_map_of_mem member))
    exact List.sublist_flatten_of_mem (List.mem_map_of_mem staged)

theorem Early.backed (early : Early sub v) : Backed v where
  single _ _ future member := by
    rw [early.futures.1] at member
    cases member
  through _ _ future member := by
    rw [early.futures.2] at member
    cases member

variable {sha256 : Bytes → Bytes} {settings : Settings} {s t : State} {e : Event}

/-- The embedder settles what is pending and not staged yet: no delivery has two settlements under way. -/
def Exclusive (settings : Settings) (s : State) (e : Event) : Prop :=
  ∀ sub ∈ settings.subscriptions, ∀ mark ∈ e.marks s sub.id, (s.lanes sub.id).Exclusive mark

instance (lane : Lane) (mark : Mark) : Decidable (lane.Exclusive mark) :=
  match mark with
  | .settle tag _ => inferInstanceAs (Decidable (lane.Free tag))
  | .through whole => inferInstanceAs (Decidable (∀ tag ∈ whole.affected,
      tag ∉ lane.singles ∧ ∀ through ∈ lane.throughs, tag ∉ through.affected))
  | .frame _ _ => .isTrue trivial

instance (settings : Settings) (s : State) (e : Event) : Decidable (Exclusive settings s e) := by
  unfold Exclusive
  infer_instance

theorem reserved_initial : Reserved .initial :=
  ⟨fun _ => List.nodup_nil, fun _ _ none => absurd none List.not_mem_nil⟩

theorem budgeted_initial : Budgeted sub .initial := ⟨le_rfl, fun _ => rfl, Nat.zero_le _, rfl⟩

structure Solvent (sub : Subscription) (v : View) : Prop where
  kept : Kept sub v
  answered : Answered v
  disciplined : Disciplined v
  placed : Placed v
  reserved : Reserved v
  budgeted : Budgeted sub v

theorem solvent_of_reaches (known : settings.Knows sub) (late : sub.earlyAck = false)
    (reached : Reaches (machine sha256 settings) (Exclusive settings) s) : Solvent sub (s.view sub.id) := by
  refine view_invariant known ⟨kept_initial, answered_initial, disciplined_initial, placed_initial, reserved_initial,
    budgeted_initial⟩ ?_ ?_ reached
  · rintro v w ⟨kept, answered, disciplined, placed, reserved, budgeted⟩ move
    have backed := reserved.backed placed kept.claimed disciplined
    exact ⟨move.kept kept, move.answered answered, move.disciplined late kept answered disciplined,
      move.placed kept placed, move.reserved late kept placed reserved,
      (move.recount kept placed backed).budgeted move.winding_mono budgeted⟩
  · rintro s e mark w exclusive marks ⟨kept, answered, disciplined, placed, reserved, budgeted⟩ move
    have alone := exclusive sub known.member mark marks
    have winding := move.same_winding
    exact ⟨move.kept kept, move.answered answered, move.disciplined alone.considerate kept disciplined,
      move.placed kept placed, move.reserved late alone kept disciplined reserved,
      move.recount.budgeted (winding ▸ id) budgeted⟩

theorem budgeted_of_early {Allowed : State → Event → Prop} (known : settings.Knows sub) (eager : sub.earlyAck = true)
    (reached : Reaches (machine sha256 settings) Allowed s) : Budgeted sub (s.view sub.id) := by
  suffices all : Kept sub (s.view sub.id) ∧ Early sub (s.view sub.id) ∧ Placed (s.view sub.id) ∧
      Budgeted sub (s.view sub.id) from all.2.2.2
  refine @view_invariant _ _ _ _ _ (fun v => Kept sub v ∧ Early sub v ∧ Placed v ∧ Budgeted sub v) known
    ⟨kept_initial, early_initial, placed_initial, budgeted_initial⟩ ?_ ?_ reached
  · rintro v w ⟨kept, early, placed, budgeted⟩ move
    exact ⟨move.kept kept, move.early eager kept early, move.placed kept placed,
      (move.recount kept placed early.backed).budgeted move.winding_mono budgeted⟩
  · rintro s e mark w - - ⟨kept, early, placed, budgeted⟩ move
    have winding := move.same_winding
    exact ⟨move.kept kept, move.early early, move.placed kept placed, move.recount.budgeted (winding ▸ id) budgeted⟩

/-- In a run that settles every delivery once, the bytes counted are those of the deliveries buffered
and of the ones handed over and not settled, until the actor closes; the count stays within the
budget, no subtraction from it is cut off, and the parked deliveries stay within their bound. -/
theorem bytes_counted_once (known : settings.Knows sub)
    (reached : Reaches (machine sha256 settings) (Exclusive settings) s) :
    (s.stage.winding = false → (s.lanes sub.id).bufferedBytes = total Delivery.size (s.lanes sub.id).buffer +
        total Item.size (itemsBut (s.lanes sub.id).settled ((s.view sub.id).popped ++ (s.view sub.id).queue))) ∧
    (s.lanes sub.id).bufferedBytes ≤ sub.maxBufferedBytes.toNat ∧
    (s.lanes sub.id).saturated = false ∧
    s.parked.length ≤ settings.pendingCapacity := by
  have budgeted : Budgeted sub (s.view sub.id) := by
    cases eager : sub.earlyAck with
    | false => exact (solvent_of_reaches known eager reached).budgeted
    | true => exact budgeted_of_early known eager reached
  refine ⟨fun live => ?_, budgeted.within, budgeted.unsaturated, parked_of_reaches reached⟩
  have exact := budgeted.exact live
  rw [View.charged, View.unsettled, show (s.view sub.id).released = [] from rfl, List.append_nil] at exact
  exact exact

/-- Two of three deliveries are acknowledged, the third is being rejected. -/
theorem bytes_of_rejected_delivery : ∃ s, Reaches (machine id jobsOnly) (Exclusive jobsOnly) s ∧
    s.stage.winding = false ∧ (s.lanes "jobs").bufferedBytes = 3 ∧
    (s.lanes "jobs").bufferedBytes =
      total Delivery.size (s.lanes "jobs").buffer +
        total Item.size (itemsBut (s.lanes "jobs").settled ((s.view "jobs").popped ++ (s.view "jobs").queue)) := by
  obtain ⟨s, reached, live, bytes⟩ := exists_reached (machine id jobsOnly) (Exclusive jobsOnly) rfl
    (arrivals [{ tag := 1, payload := [1] }, { tag := 2, payload := [1, 2] }, { tag := 3, payload := [1, 2, 3] }] 3 ++
      deciding 1 .ack ++ deciding 2 .ack ++ handling 2 ++
      [.performThrough "jobs" 0 (.ok ()), .throughSettled "jobs" 0] ++
      deciding 3 (.reject false) ++ handling 1 ++ [.perform "jobs" 0 (.ok ())])
    (fun s => s.stage.winding = false ∧ (s.lanes "jobs").bufferedBytes = 3) (by decide +kernel)
  exact ⟨s, reached, live, bytes, (bytes_counted_once jobs_known reached).1 live⟩

/-- The acknowledgement of the third of five deliveries is under way when the first four are
acknowledged up to the fourth: the bytes of the third are released twice, and the fifth, handed over
and not settled, is no longer counted. -/
theorem third_delivery_released_twice : ∃ s, Reachable (machine id jobsOnly) s ∧ s.stage.winding = false ∧
    (s.lanes "jobs").bufferedBytes = 0 ∧
    itemsBut (s.lanes "jobs").settled ((s.view "jobs").popped ++ (s.view "jobs").queue) =
      [jobs.handed { tag := 5, payload := [0, 0, 0, 0] }] := by
  exact exists_reachable (machine id jobsOnly) rfl
    (arrivals ([1, 2, 3, 4, 5].map fun tag => { tag, payload := [0, 0, 0, 0] }) 5 ++ deciding 3 .ack ++ handling 1 ++
      .settleThrough "jobs" 4 :: handling 1 ++
      .perform "jobs" 0 (.ok ()) :: .settled "jobs" 0 :: handling 0 ++
      [.performThrough "jobs" 0 (.ok ()), .throughSettled "jobs" 0])
    _ (by decide +kernel)

end RabbitRs.Consumer
