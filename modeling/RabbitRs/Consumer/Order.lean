import RabbitRs.Consumer.Frames
import RabbitRs.Consumer.Refinement

/-!
Deliveries keep their order: from the pump through the parked queue, the buffer of the subscription
and the hand-off queue to the embedder.
-/

namespace RabbitRs.Consumer

open StepMachine

variable {sub : Subscription} {capacity : Nat} {v w : View}

structure Unstirred (v w : View) : Prop where
  stock : w.lane.stock = v.lane.stock
  parked : w.parked = v.parked
  incoming : w.incoming = v.incoming
  handed : w.popped ++ w.queue = v.popped ++ v.queue

/-- The broker sends the next delivery. -/
structure Sends (v w : View) (d : Delivery) : Prop where
  tag : d.tag = v.lane.lastTag + 1
  stock : w.lane.stock = { v.lane.stock with lastTag := d.tag }
  parked : w.parked = v.parked
  incoming : w.incoming = v.incoming ++ [d]
  handed : w.popped ++ w.queue = v.popped ++ v.queue

theorem Unstirred.of_stock {lane : Lane} (stock : lane.stock = v.lane.stock) {commands : List LaneCommand}
    {sending : List (Nat × Settlement)} {winding : Bool} {finishing : Option Finishing} :
    Unstirred v { v with lane, commands, sending, winding, finishing } :=
  ⟨stock, rfl, rfl, rfl⟩

theorem Quiet.stirs (move : Quiet sub capacity v w) :
    Flow sub capacity v w ∨ (∃ d, Sends v w d) ∨ Unstirred v w := by
  cases move
  case flow flow => exact .inl flow
  case deliver d next => exact .inr (.inl ⟨d, next, rfl, rfl, rfl, rfl⟩)
  case pop front => exact .inr (.inr ⟨rfl, rfl, rfl, by simp [front]⟩)
  case flush => exact .inr (.inr (.of_stock (Lane.stock_of_core Lane.flushAcked_core)))
  case beginSettlement => exact .inr (.inr (.of_stock (Lane.beginSettlement_stock _ _ _)))
  case endSettlement => exact .inr (.inr (.of_stock (Lane.endSettlement_stock _ _ _)))
  case beginThrough => exact .inr (.inr (.of_stock (Lane.beginThrough_stock _ _ _)))
  case endThrough => exact .inr (.inr (.of_stock (Lane.endThrough_stock _ _)))
  case closeSettlement => exact .inr (.inr (.of_stock (Lane.closeSettlement_stock _ _ _)))
  case closeThrough => exact .inr (.inr (.of_stock (Lane.closeThrough_stock _ _ _)))
  all_goals exact .inr (.inr ⟨rfl, rfl, rfl, rfl⟩)

theorem Marked.unstirred {mark : Mark} (move : Marked v mark w) : Unstirred v w := by
  cases move
  case settle => exact .of_stock (Lane.stock_of_core (Lane.acceptSettlement_core _ _))
  case through => exact .of_stock (Lane.stock_of_core (Lane.acceptThrough_core _))
  all_goals exact ⟨Lane.transmit_stock _ _, rfl, rfl, rfl⟩

def keptOf (arrived : List Delivery) (discarded : List Nat) : List Delivery :=
  arrived.filter fun d => d.tag ∉ discarded

/-- Every delivery received is handed over or held, in the order it came in, unless it was settled
as poison or as oversized before. -/
structure InOrder (sub : Subscription) (v : View) : Prop where
  distinct : (v.lane.arrived.map (·.tag)).Nodup
  discarded : ∀ d ∈ v.lane.arrived, d.tag ∈ v.lane.discarded →
    sub.oversized d.size = true ∨ sub.earlyAck = false ∧ sub.poisons d = true
  handed : ∃ out : List Delivery, v.popped ++ v.queue = out.map sub.handed ∧
    keptOf v.lane.arrived v.lane.discarded = out ++ v.lane.buffer ++ v.parked

section Lists

variable {arrived before after : List Delivery} {discarded : List Nat} {d : Delivery} {tag : Nat}

theorem keptOf_discard : keptOf arrived (discarded ++ [tag]) =
    (keptOf arrived discarded).filter fun d => d.tag ≠ tag := by
  unfold keptOf
  rw [List.filter_filter]
  refine List.filter_congr fun d _ => ?_
  simp [and_comm, List.mem_append, not_or]

theorem keptOf_append (fresh : d.tag ∉ discarded) :
    keptOf (arrived ++ [d]) discarded = keptOf arrived discarded ++ [d] := by
  simp [keptOf, fresh]

theorem keptOf_refuse (last : ∀ a ∈ arrived, a.tag < d.tag) :
    keptOf (arrived ++ [d]) (discarded ++ [d.tag]) = keptOf arrived discarded := by
  rw [keptOf_discard, keptOf, List.filter_append, List.filter_append]
  have older : (arrived.filter fun a => a.tag ∉ discarded).filter (fun a => a.tag ≠ d.tag) =
      arrived.filter fun a => a.tag ∉ discarded := by
    refine List.filter_eq_self.mpr fun a member => ?_
    have less := last a (List.mem_filter.mp member).1
    simpa using ne_of_lt less
  have newest : ([d].filter fun a => a.tag ∉ discarded).filter (fun a => a.tag ≠ d.tag) = [] := by
    refine List.filter_eq_nil_iff.mpr fun a member => ?_
    have same : a = d := by simpa using (List.mem_filter.mp member).1
    simp [same]
  rw [older, newest, List.append_nil, keptOf]

theorem filter_ne_of_ascending (ascending : ((before ++ d :: after).map (·.tag)).Pairwise (· < ·)) :
    (before ++ d :: after).filter (fun a => a.tag ≠ d.tag) = before ++ after := by
  rw [List.map_append, List.map_cons] at ascending
  obtain ⟨-, later, below⟩ := List.pairwise_append.mp ascending
  obtain ⟨above, -⟩ := List.pairwise_cons.mp later
  rw [List.filter_append, List.filter_cons_of_neg (by simp)]
  congr 1
  · refine List.filter_eq_self.mpr fun a member => ?_
    have less := below a.tag (List.mem_map_of_mem member) d.tag List.mem_cons_self
    simpa using ne_of_lt less
  · refine List.filter_eq_self.mpr fun a member => ?_
    have less := above a.tag (List.mem_map_of_mem member)
    simpa using ne_of_gt less

end Lists

structure Sequence (sub : Subscription) (arrived incoming : List Delivery) (lastTag : Nat)
    (discarded : List Nat) (handed : List Item) (held : List Delivery) : Prop where
  ascending : ((arrived ++ incoming).map (·.tag)).Pairwise (· < ·)
  bounded : ∀ d ∈ arrived ++ incoming, d.tag ≤ lastTag
  received : ∀ tag ∈ discarded, tag ∈ arrived.map (·.tag)
  reason : ∀ d ∈ arrived, d.tag ∈ discarded →
    sub.oversized d.size = true ∨ sub.earlyAck = false ∧ sub.poisons d = true
  kept : ∃ out, handed = out.map sub.handed ∧ keptOf arrived discarded = out ++ held

namespace Sequence

variable {arrived incoming held before after : List Delivery} {lastTag : Nat} {discarded : List Nat}
  {handed : List Item} {d : Delivery}

theorem arrived_ascending (sequence : Sequence sub arrived incoming lastTag discarded handed held) :
    (arrived.map (·.tag)).Pairwise (· < ·) := by
  have both := sequence.ascending
  rw [List.map_append] at both
  exact (List.pairwise_append.mp both).1

theorem send (sequence : Sequence sub arrived incoming lastTag discarded handed held)
    (next : d.tag = lastTag + 1) :
    Sequence sub arrived (incoming ++ [d]) d.tag discarded handed held where
  ascending := by
    rw [← List.append_assoc, List.map_append, List.map_singleton]
    refine List.pairwise_append.mpr ⟨sequence.ascending, List.pairwise_singleton _ _, ?_⟩
    intro tag member newest same
    obtain ⟨older, among, rfl⟩ := List.mem_map.mp member
    have bound := sequence.bounded older among
    rw [List.mem_singleton.mp same]
    omega
  bounded := by
    intro a member
    rw [← List.append_assoc] at member
    rcases List.mem_append.mp member with older | newest
    · have bound := sequence.bounded a older
      omega
    · rw [List.mem_singleton.mp newest]
  received := sequence.received
  reason := sequence.reason
  kept := sequence.kept

section Arrival

variable (sequence : Sequence sub arrived (d :: incoming) lastTag discarded handed held)

include sequence

theorem newest (a : Delivery) (member : a ∈ arrived) : a.tag < d.tag := by
  have both := sequence.ascending
  rw [List.map_append, List.map_cons] at both
  exact (List.pairwise_append.mp both).2.2 _ (List.mem_map_of_mem member) _ List.mem_cons_self

theorem fresh : d.tag ∉ discarded := by
  intro member
  obtain ⟨a, among, same⟩ := List.mem_map.mp (sequence.received _ member)
  exact absurd same (ne_of_lt (sequence.newest a among))

theorem receive : Sequence sub (arrived ++ [d]) incoming lastTag discarded handed (held ++ [d]) where
  ascending := by simpa using sequence.ascending
  bounded := by simpa using sequence.bounded
  received := fun tag member => by simpa using .inl (List.mem_map.mp (sequence.received tag member))
  reason := by
    intro a member given
    rcases List.mem_append.mp member with older | same
    · exact sequence.reason a older given
    · rw [List.mem_singleton.mp same] at given
      exact absurd given sequence.fresh
  kept := by
    obtain ⟨out, items, kept⟩ := sequence.kept
    exact ⟨out, items, by rw [keptOf_append sequence.fresh, kept, List.append_assoc]⟩

theorem refuse (oversized : sub.oversized d.size = true) :
    Sequence sub (arrived ++ [d]) incoming lastTag (discarded ++ [d.tag]) handed held where
  ascending := by simpa using sequence.ascending
  bounded := by simpa using sequence.bounded
  received := by
    intro tag member
    rcases List.mem_append.mp member with older | same
    · simpa using .inl (List.mem_map.mp (sequence.received tag older))
    · simp [List.mem_singleton.mp same]
  reason := by
    intro a member given
    rcases List.mem_append.mp member with older | same
    · refine sequence.reason a older ?_
      have other := ne_of_lt (sequence.newest a older)
      simpa [other] using given
    · rw [List.mem_singleton.mp same]
      exact .inl oversized
  kept := by
    obtain ⟨out, items, kept⟩ := sequence.kept
    exact ⟨out, items, by rw [keptOf_refuse sequence.newest, kept]⟩

end Arrival

theorem handOver (sequence : Sequence sub arrived incoming lastTag discarded handed (d :: held)) :
    Sequence sub arrived incoming lastTag discarded (handed ++ [sub.handed d]) held where
  ascending := sequence.ascending
  bounded := sequence.bounded
  received := sequence.received
  reason := sequence.reason
  kept := by
    obtain ⟨out, rfl, kept⟩ := sequence.kept
    exact ⟨out ++ [d], by simp, by rw [kept, List.append_assoc]; rfl⟩

theorem giveUp (sequence : Sequence sub arrived incoming lastTag discarded handed (before ++ d :: after))
    (reason : sub.oversized d.size = true ∨ sub.earlyAck = false ∧ sub.poisons d = true) :
    Sequence sub arrived incoming lastTag (discarded ++ [d.tag]) handed (before ++ after) := by
  obtain ⟨out, items, kept⟩ := sequence.kept
  have among : d ∈ arrived := by
    have member : d ∈ keptOf arrived discarded := by rw [kept]; simp
    exact (List.mem_filter.mp member).1
  have ascending : ((keptOf arrived discarded).map (·.tag)).Pairwise (· < ·) :=
    sequence.arrived_ascending.sublist (List.filter_sublist.map _)
  refine ⟨sequence.ascending, sequence.bounded, ?_, ?_, out, items, ?_⟩
  · intro tag member
    rcases List.mem_append.mp member with older | same
    · exact sequence.received tag older
    · rw [List.mem_singleton.mp same]
      exact List.mem_map_of_mem among
  · intro a member given
    rcases List.mem_append.mp given with older | same
    · exact sequence.reason a member older
    · have equal : a = d := by
        have nodup : (arrived.map (·.tag)).Nodup := sequence.arrived_ascending.imp fun less => ne_of_lt less
        exact List.inj_on_of_nodup_map nodup member among (List.mem_singleton.mp same)
      rw [equal]
      exact reason
  · rw [keptOf_discard, kept, ← List.append_assoc]
    rw [kept, ← List.append_assoc] at ascending
    rw [filter_ne_of_ascending ascending, List.append_assoc]

end Sequence

def StockSequence (sub : Subscription) (stock : Stock) (incoming : List Delivery) (handed : List Item)
    (parked : List Delivery) : Prop :=
  Sequence sub stock.arrived incoming stock.lastTag stock.discarded handed (stock.buffer ++ parked)

def Sequenced (sub : Subscription) (v : View) : Prop :=
  StockSequence sub v.lane.stock v.incoming (v.popped ++ v.queue) v.parked

theorem Sequenced.inOrder (sequenced : Sequenced sub v) : InOrder sub v where
  distinct := (Sequence.arrived_ascending sequenced).imp fun less => ne_of_lt less
  discarded := sequenced.reason
  handed := by
    obtain ⟨out, items, kept⟩ := sequenced.kept
    exact ⟨out, items, by rw [List.append_assoc]; exact kept⟩

theorem Unstirred.sequenced (same : Unstirred v w) (sequenced : Sequenced sub v) : Sequenced sub w := by
  unfold Sequenced
  rw [same.stock, same.parked, same.incoming, same.handed]
  exact sequenced

theorem Sends.sequenced {d : Delivery} (sends : Sends v w d) (sequenced : Sequenced sub v) :
    Sequenced sub w := by
  unfold Sequenced
  rw [sends.stock, sends.parked, sends.incoming, sends.handed]
  exact Sequence.send sequenced sends.tag

theorem Flow.sequenced (flow : Flow sub capacity v w) (sequenced : Sequenced sub v) : Sequenced sub w := by
  unfold Sequenced StockSequence at sequenced ⊢
  cases flow with
  | park front _ =>
    rw [front] at sequenced
    have held := sequenced.receive
    rwa [List.append_assoc] at held
  | enroll front idle _ =>
    rw [front, idle] at sequenced
    have held := sequenced.receive
    rw [List.append_nil] at held
    dsimp only
    rw [idle, List.append_nil]
    exact held
  | refuse front oversized =>
    rw [front] at sequenced
    rw [Lane.discardOversized, Lane.discard_stock]
    exact sequenced.refuse oversized
  | unpark front _ =>
    rw [front, List.append_cons] at sequenced
    exact sequenced
  | unparkOversized front oversized =>
    rw [front] at sequenced
    rw [Lane.discardOversized, Lane.discard_stock]
    exact sequenced.giveUp (.inl oversized)
  | poison front late poisoned =>
    change Sequence sub _ _ _ _ _ (v.lane.buffer ++ v.parked) at sequenced
    rw [front] at sequenced
    rw [Lane.discard_stock]
    exact @Sequence.giveUp sub _ _ [] _ _ _ _ _ sequenced (.inr ⟨late, poisoned⟩)
  | earlyAck _ _ _ _ => exact sequenced
  | handEarly front _ _ | hand front _ _ =>
    change Sequence sub _ _ _ _ _ (v.lane.buffer ++ v.parked) at sequenced
    rw [front] at sequenced
    rw [← List.append_assoc]
    exact sequenced.handOver
  | tokenize _ _ _ => exact sequenced

theorem Quiet.sequenced (move : Quiet sub capacity v w) (sequenced : Sequenced sub v) : Sequenced sub w := by
  rcases move.stirs with flow | ⟨d, sends⟩ | same
  · exact flow.sequenced sequenced
  · exact sends.sequenced sequenced
  · exact same.sequenced sequenced

theorem sequenced_initial : Sequenced sub .initial :=
  ⟨.nil, nofun, nofun, nofun, [], rfl, rfl⟩

variable {sha256 : Bytes → Bytes} {settings : Settings} {s : State} {Allowed : State → Event → Prop}

theorem sequenced_of_reaches (known : settings.Knows sub)
    (reached : Reaches (machine sha256 settings) Allowed s) : Sequenced sub (s.view sub.id) :=
  view_invariant known sequenced_initial (fun _ _ sequenced move => move.sequenced sequenced)
    (fun _ _ _ _ _ _ sequenced move => move.unstirred.sequenced sequenced) reached

/-- Whatever the other subscriptions, the hand-off queue and the byte budget do, the deliveries of a
subscription reach the embedder in the order they came in. -/
theorem deliveries_in_order (known : settings.Knows sub) (reached : Reachable (machine sha256 settings) s) :
    InOrder sub (s.view sub.id) :=
  (sequenced_of_reaches known reached).inOrder

/-- Of three deliveries the second is poison: the embedder gets the first and the third. -/
theorem poison_between_in_order : ∃ s, Reachable (machine id jobsOnly) s ∧
    s.popped.map (·.tag) = [1, 3] ∧ (s.lanes "jobs").discarded = [2] ∧ InOrder jobs (s.view "jobs") := by
  obtain ⟨s, reached, popped, discarded⟩ := exists_reachable (machine id jobsOnly) rfl
    (arrivals [{ tag := 1 }, { tag := 2, redelivered := true }, { tag := 3 }] 2)
    (fun s => s.popped.map (·.tag) = [1, 3] ∧ (s.lanes "jobs").discarded = [2]) (by decide +kernel)
  exact ⟨s, reached, popped, discarded, deliveries_in_order jobs_known reached⟩

end RabbitRs.Consumer
