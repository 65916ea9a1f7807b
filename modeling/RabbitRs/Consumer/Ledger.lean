import Mathlib.Data.List.Sort
import RabbitRs.Consumer.Desk
import RabbitRs.Consumer.Order
import RabbitRs.Consumer.Shelf

/-!
The ledger of a channel against the deliveries it received and the ones settled for good: those the
actor discarded, and those whose settlement was completed in the run.
-/

namespace RabbitRs.Consumer

open StepMachine
open Ordered (Table)

variable {sub : Subscription} {capacity : Nat} {v w : View}

structure Covers (ledger : Ledger) (arrived : List Delivery) (through : Through) : Prop where
  all : ∀ tag ∈ ledger.pending.keys, tag ≤ through.target → tag ∈ through.affected
  upTo : ∀ tag ∈ through.affected, tag ≤ through.target
  target : through.target ∈ through.affected
  received : ∀ tag ∈ through.affected, tag ∈ arrived.map (·.tag)

structure Balanced (ledger : Ledger) (arrived : List Delivery) (throughs : List Through) : Prop where
  known : ∀ tag ∈ ledger.pending.keys, tag ∈ arrived.map (·.tag)
  above : ∀ tag ∈ ledger.pending.keys, ledger.ackedPrefix < tag
  reached : ledger.ackedPrefix = 0 ∨ ledger.ackedPrefix ∈ arrived.map (·.tag)
  covers : ∀ through ∈ throughs, Covers ledger arrived through

/-- Pending are the tags received and not settled. -/
def Exact (ledger : Ledger) (arrived : List Delivery) (settled : List Nat) : Prop :=
  ∀ tag, tag ∈ ledger.pending.keys ↔ tag ∈ arrived.map (·.tag) ∧ tag ∉ settled

structure Booked (sub : Subscription) (v : View) : Prop where
  positive : ∀ d ∈ v.incoming, 0 < d.tag
  balanced : Balanced v.lane.ledger v.lane.arrived v.throughs
  settled : ∀ tag ∈ v.lane.settled, tag ∈ v.lane.arrived.map (·.tag)
  exact : sub.earlyAck = false → v.winding = false → Exact v.lane.ledger v.lane.arrived v.lane.settled

theorem Sequenced.handed_received (sequenced : Sequenced sub v) (tag : Nat) (member : tag ∈ v.handed) :
    tag ∈ v.lane.arrived.map (·.tag) := by
  obtain ⟨out, items, kept⟩ := sequenced.kept
  rw [View.handed, items, List.map_map] at member
  obtain ⟨d, among, rfl⟩ := List.mem_map.mp member
  have held : d ∈ keptOf v.lane.arrived v.lane.discarded := by
    have here : d ∈ keptOf v.lane.stock.arrived v.lane.stock.discarded := by
      rw [kept]
      exact List.mem_append_left _ among
    exact here
  exact List.mem_map_of_mem (List.mem_filter.mp held).1

namespace Lane

variable {lane : Lane} {target : Nat} {affected : List Nat}

theorem walkPrefix_ok {entries : List (Nat × Bool)} {expected : Nat} {tokens : List Nat}
    (valid : walkPrefix target expected entries tokens = .ok affected) :
    affected = tokens ++ entries.map (·.1) ∧ entries.map (·.1) = List.range' expected entries.length ∧
      target < expected + entries.length ∧ ∀ entry ∈ entries, entry.2 = true := by
  induction entries generalizing expected tokens with
  | nil =>
    unfold walkPrefix at valid
    split at valid
    · cases valid
    · rename_i beyond
      cases valid
      exact ⟨by simp, rfl, by simpa using beyond, nofun⟩
  | cons entry rest ih =>
    obtain ⟨tag, dispatched⟩ := entry
    unfold walkPrefix at valid
    split at valid
    · cases valid
    · rename_i next
      split at valid
      · rename_i handed
        obtain ⟨rfl, run, beyond, all⟩ := ih valid
        have same : tag = expected := not_not.mp next
        refine ⟨by simp, ?_, by simp; omega, ?_⟩
        · rw [List.map_cons, run, List.length_cons, List.range'_succ, same]
        · intro entry member
          rcases List.mem_cons.mp member with rfl | later
          · exact handed
          · exact all entry later
      · cases valid

theorem validatePrefix_ok (valid : lane.validatePrefix target = .ok affected) :
    (∀ tag, tag ∈ affected ↔ tag ∈ lane.ledger.pending.keys ∧ lane.ledger.ackedPrefix < tag ∧ tag ≤ target) ∧
      (lane.ledger.ackedPrefix < target → target ∈ affected) := by
  obtain ⟨listed, run, beyond, -⟩ := walkPrefix_ok valid
  rw [List.nil_append] at listed
  refine ⟨fun tag => ?_, fun above => ?_⟩
  · have upTo : ((lane.ledger.pending.after lane.ledger.ackedPrefix).filter (·.1 ≤ target)).map (·.1) =
        ((lane.ledger.pending.after lane.ledger.ackedPrefix).map (·.1)).filter (· ≤ target) := by
      rw [List.filter_map]
      rfl
    rw [listed, upTo, List.mem_filter, Table.mem_keys_after, and_assoc, decide_eq_true_iff]
  · rw [listed, run, List.mem_range'_1]
    omega

theorem ackedRun_sorted : lane.ackedRun.Pairwise (· < ·) :=
  List.pairwise_map.mpr ((lane.ledger.pending.after_sorted _).sublist (List.takeWhile_sublist _))

theorem ackedRun_le_last {last tag : Nat} (final : lane.ackedRun.getLast? = some last)
    (member : tag ∈ lane.ackedRun) : tag ≤ last := by
  have sorted := @ackedRun_sorted lane
  obtain ⟨rest, run⟩ := List.getLast?_eq_some_iff.mp final
  rw [run] at sorted member
  rcases List.mem_append.mp member with earlier | same
  · exact le_of_lt ((List.pairwise_append.mp sorted).2.2 tag earlier last List.mem_cons_self)
  · exact le_of_eq (List.mem_singleton.mp same)

end Lane

section Entries

variable {ledger : Ledger} {arrived : List Delivery} {throughs : List Through} {settled : List Nat} {d : Delivery}
  {tag : Nat}

theorem Covers.shrink {other : Ledger} {through : Through} (covers : Covers ledger arrived through)
    (fewer : ∀ tag ∈ other.pending.keys, tag ∈ ledger.pending.keys) : Covers other arrived through :=
  ⟨fun tag member => covers.all tag (fewer tag member), covers.upTo, covers.target, covers.received⟩

namespace Balanced

variable (balanced : Balanced ledger arrived throughs)

include balanced

theorem shrink {pending : Table Nat Bool} (fewer : ∀ tag ∈ pending.keys, tag ∈ ledger.pending.keys) :
    Balanced { ledger with pending } arrived throughs where
  known tag member := balanced.known tag (fewer tag member)
  above tag member := balanced.above tag (fewer tag member)
  reached := balanced.reached
  covers through member := (balanced.covers through member).shrink fewer

theorem restage {others : List Through} (staged : ∀ through ∈ others, through ∈ throughs ∨ Covers ledger arrived through) :
    Balanced ledger arrived others :=
  ⟨balanced.known, balanced.above, balanced.reached, fun through member =>
    (staged through member).elim (balanced.covers through) id⟩

theorem receive (newest : ∀ a ∈ arrived, a.tag < d.tag) (positive : 0 < d.tag) (value : Bool) :
    Balanced { ledger with pending := ledger.pending.insert d.tag value } (arrived ++ [d]) throughs := by
  have older : ∀ tag ∈ arrived.map (·.tag), tag < d.tag := by
    intro tag member
    obtain ⟨a, among, rfl⟩ := List.mem_map.mp member
    exact newest a among
  have longer : ∀ tag ∈ arrived.map (·.tag), tag ∈ (arrived ++ [d]).map (·.tag) := by
    intro tag member
    rw [List.map_append]
    exact List.mem_append_left _ member
  constructor
  · intro tag member
    rcases Table.mem_keys_insert.mp member with rfl | among
    · simp
    · exact longer tag (balanced.known tag among)
  · intro tag member
    rcases Table.mem_keys_insert.mp member with rfl | among
    · rcases balanced.reached with zero | reached
      · exact zero ▸ positive
      · exact older _ reached
    · exact balanced.above tag among
  · exact balanced.reached.imp_right (longer _)
  · intro through member
    have covers := balanced.covers through member
    refine ⟨?_, covers.upTo, covers.target, fun tag among => longer tag (covers.received tag among)⟩
    intro tag among upTo
    rcases Table.mem_keys_insert.mp among with rfl | among
    · have less := older _ (covers.received _ covers.target)
      omega
    · exact covers.all tag among upTo

theorem mem_settleThrough {through : Through} (staged : through ∈ throughs) :
    tag ∈ (ledger.pending.filter fun tag => !(ledger.ackedPrefix < tag && tag ≤ through.target)).keys ↔
      tag ∈ ledger.pending.keys ∧ tag ∉ through.affected := by
  rw [Table.mem_keys_filter]
  refine and_congr_right fun member => ?_
  have covers := balanced.covers through staged
  have above := balanced.above tag member
  have range : tag ≤ through.target ↔ tag ∈ through.affected := ⟨covers.all tag member, covers.upTo tag⟩
  simp [above, ← range]

theorem settleThrough {through : Through} (staged : through ∈ throughs) (acked : Bool) : Balanced {
      pending := ledger.pending.filter fun tag => !(ledger.ackedPrefix < tag && tag ≤ through.target)
      ackedPrefix := if acked then through.target else ledger.ackedPrefix } arrived throughs := by
  have covers := balanced.covers through staged
  have fewer := fun tag member => ((@mem_settleThrough _ _ _ tag balanced through staged).mp member).1
  have shrunk := balanced.shrink fewer
  refine ⟨shrunk.known, ?_, ?_, fun other member => (balanced.covers other member).shrink fewer⟩
  · intro tag member
    obtain ⟨pending, outside⟩ := (balanced.mem_settleThrough staged).mp member
    cases acked with
    | false => exact balanced.above tag pending
    | true =>
      rw [if_pos rfl]
      exact not_le.mp fun upTo => outside (covers.all tag pending upTo)
  · cases acked with
    | false => exact balanced.reached
    | true => exact .inr (covers.received _ covers.target)

end Balanced

namespace Exact

theorem receive (exact : Exact ledger arrived settled) (fresh : d.tag ∉ settled) (value : Bool) :
    Exact { ledger with pending := ledger.pending.insert d.tag value } (arrived ++ [d]) settled := by
  intro tag
  rw [Table.mem_keys_insert, exact tag, List.map_append, List.mem_append]
  constructor
  · rintro (rfl | ⟨member, unsettled⟩)
    · exact ⟨.inr (by simp), fresh⟩
    · exact ⟨.inl member, unsettled⟩
  · rintro ⟨member | newest, unsettled⟩
    · exact .inr ⟨member, unsettled⟩
    · exact .inl (by simpa using newest)

theorem settle (exact : Exact ledger arrived settled) (tag : Nat) :
    Exact { ledger with pending := ledger.pending.erase tag } arrived (settled ++ [tag]) := by
  intro other
  rw [Table.mem_keys_erase, exact other, List.mem_append, List.mem_singleton, not_or, and_assoc]

end Exact

end Entries

inductive Writes (v w : View) : Prop where
  | nothing : w.lane.books = v.lane.books → Writes v w
  | settle {tag : Nat} : tag ∈ v.lane.arrived.map (·.tag) → w.lane.books = (v.lane.settle tag).books →
      Writes v w
  | through {through : Through} {acked : Bool} : through ∈ v.throughs →
      w.lane.books = (v.lane.settleThrough through acked).books → Writes v w
  | closed {tags : List Nat} : w.winding = true → w.lane.books = (v.lane.recordSettled tags).books →
      (∀ tag ∈ tags, tag ∈ v.lane.arrived.map (·.tag)) → Writes v w

section Preserved

variable {through : Through}

theorem Balanced.covers_flush {lane : Lane} {throughs : List Through}
    (balanced : Balanced lane.ledger lane.arrived throughs) (staged : lane.flushThrough = some through) :
    Covers lane.ledger lane.arrived through := by
  obtain ⟨last, run⟩ := Lane.flushThrough_eq_some.mp staged
  have final : through.target ∈ lane.ackedRun := List.mem_of_getLast? last
  refine ⟨?_, ?_, run ▸ final, ?_⟩
  · intro tag member upTo
    rw [run]
    exact Table.mem_run_of_le final member (balanced.above tag member) upTo
  · intro tag member
    rw [run] at member
    exact Lane.ackedRun_le_last last member
  · intro tag member
    rw [run] at member
    exact balanced.known tag (Lane.mem_ackedRun member).2.1

theorem Balanced.covers_prefix {lane : Lane} {throughs : List Through}
    (balanced : Balanced lane.ledger lane.arrived throughs) (above : lane.ledger.ackedPrefix < through.target)
    (valid : lane.validatePrefix through.target = .ok through.affected) :
    Covers lane.ledger lane.arrived through := by
  obtain ⟨members, last⟩ := Lane.validatePrefix_ok valid
  refine ⟨?_, fun tag member => ((members tag).mp member).2.2, last above, ?_⟩
  · exact fun tag member upTo => (members tag).mpr ⟨member, balanced.above tag member, upTo⟩
  · exact fun tag member => balanced.known tag ((members tag).mp member).1

theorem Booked.write (booked : Booked sub v) (writes : Writes v w)
    (arrived : w.lane.arrived = v.lane.arrived) (positive : ∀ d ∈ w.incoming, 0 < d.tag)
    (winding : w.winding = false → v.winding = false)
    (staged : ∀ through ∈ w.throughs, through ∈ v.throughs ∨ Covers v.lane.ledger v.lane.arrived through) :
    Booked sub w := by
  have balanced := booked.balanced.restage staged
  cases writes with
  | nothing books =>
    have ledger : w.lane.ledger = v.lane.ledger := congrArg Books.ledger books
    have settled : w.lane.settled = v.lane.settled := congrArg Books.settled books
    refine ⟨positive, ?_, ?_, ?_⟩
    · rw [ledger, arrived]
      exact balanced
    · rw [settled, arrived]
      exact booked.settled
    · rw [ledger, arrived, settled]
      exact fun late live => booked.exact late (winding live)
  | settle received books =>
    have ledger := congrArg Books.ledger books
    have settled := congrArg Books.settled books
    dsimp only [Lane.books, Lane.settle] at ledger settled
    refine ⟨positive, ?_, ?_, ?_⟩
    · rw [ledger, arrived]
      exact balanced.shrink fun tag member => (Table.mem_keys_erase.mp member).1
    · rw [settled, arrived]
      intro tag member
      rcases List.mem_append.mp member with older | newest
      · exact booked.settled tag older
      · rw [List.mem_singleton.mp newest]
        exact received
    · rw [ledger, arrived, settled]
      exact fun late live => (booked.exact late (winding live)).settle _
  | @through whole acked member books =>
    have ledger := congrArg Books.ledger books
    have settled := congrArg Books.settled books
    dsimp only [Lane.books, Lane.settleThrough] at ledger settled
    have range := fun tag => @Balanced.mem_settleThrough _ _ _ tag booked.balanced whole member
    refine ⟨positive, ?_, ?_, ?_⟩
    · rw [ledger, arrived]
      refine (booked.balanced.settleThrough member acked).restage fun other among => ?_
      exact (staged other among).imp_right fun covers => covers.shrink fun tag pending => ((range tag).mp pending).1
    · rw [settled, arrived]
      intro tag among
      rcases List.mem_append.mp among with older | newest
      · exact booked.settled tag older
      · exact (booked.balanced.covers whole member).received tag newest
    · rw [ledger, arrived, settled]
      intro late live tag
      rw [range tag, booked.exact late (winding live) tag, List.mem_append, not_or, and_assoc]
  | @closed tags closing books among =>
    have ledger := congrArg Books.ledger books
    have settled := congrArg Books.settled books
    dsimp only [Lane.books, Lane.recordSettled] at ledger settled
    refine ⟨positive, ?_, ?_, fun _ live => ?_⟩
    · rw [ledger, arrived]
      exact balanced
    · rw [settled, arrived]
      intro tag member
      rcases List.mem_append.mp member with older | newest
      · exact booked.settled tag older
      · exact among tag newest
    · cases live.symm.trans closing

theorem Booked.receive {d : Delivery} {rest : List Delivery} (booked : Booked sub v)
    (sequenced : Sequenced sub v) (front : v.incoming = d :: rest) :
    Booked sub { v with incoming := rest, lane := v.lane.receive d } := by
  have newest : ∀ a ∈ v.lane.arrived, a.tag < d.tag := by
    have sequence : StockSequence sub v.lane.stock (d :: rest) (v.popped ++ v.queue) v.parked := front ▸ sequenced
    exact sequence.newest
  have fresh : d.tag ∉ v.lane.settled := by
    intro member
    obtain ⟨a, among, same⟩ := List.mem_map.mp (booked.settled _ member)
    exact absurd same (ne_of_lt (newest a among))
  refine ⟨?_, ?_, ?_, ?_⟩
  · exact fun a member => booked.positive a (front ▸ List.mem_cons_of_mem d member)
  · exact booked.balanced.receive newest (booked.positive d (front ▸ List.mem_cons_self)) false
  · intro tag member
    simp only [Lane.receive, List.map_append]
    exact List.mem_append_left _ (booked.settled tag member)
  · exact fun late live => (booked.exact late live).receive fresh false

theorem Flow.same_winding (flow : Flow sub capacity v w) : w.winding = v.winding := by
  cases flow <;> rfl

theorem Sequenced.held_received (sequenced : Sequenced sub v) (d : Delivery)
    (held : d ∈ v.lane.buffer ++ v.parked) : d ∈ v.lane.arrived := by
  obtain ⟨out, -, kept⟩ := sequenced.kept
  have here : d ∈ keptOf v.lane.stock.arrived v.lane.stock.discarded := by
    rw [kept]
    exact List.mem_append_right _ held
  exact (List.mem_filter.mp here).1

theorem Booked.discard {d : Delivery} {lane : Lane} {parked : List Delivery} (booked : Booked sub v)
    (received : d ∈ v.lane.arrived) (books : lane.books = (v.lane.settle d.tag).books)
    (arrived : lane.arrived = v.lane.arrived) (desk : lane.desk = v.lane.desk) :
    Booked sub { v with lane, parked } := by
  refine booked.write (.settle (List.mem_map_of_mem received) books) arrived booked.positive id ?_
  exact fun through member => .inl (View.throughs_of_desk (w := { v with lane, parked }) desk rfl ▸ member)

theorem Booked.tokenize {item : Item} {buffer : List Delivery} {queue : List Item} (booked : Booked sub v) :
    Booked sub { v with lane := { v.lane.tokenize item with buffer }, queue } := by
  have same : (v.lane.tokenize item).ledger.pending.keys = v.lane.ledger.pending.keys := Table.keys_modify
  refine ⟨booked.positive, booked.balanced.shrink fun tag member => same ▸ member, booked.settled, ?_⟩
  intro late live tag
  exact (iff_of_eq (congrArg (tag ∈ ·) same)).trans (booked.exact late live tag)

theorem Flow.booked (flow : Flow sub capacity v w) (booked : Booked sub v) (sequenced : Sequenced sub v) :
    Booked sub w := by
  cases flow
  case park front _ | enroll front _ _ =>
    have entered := booked.receive sequenced front
    exact ⟨entered.positive, entered.balanced, entered.settled, entered.exact⟩
  case refuse d rest front _ =>
    have entered := booked.receive sequenced front
    exact entered.discard (List.mem_append_right _ List.mem_cons_self) (Lane.discard_books _ _)
      (congrArg Stock.arrived (Lane.discard_stock _ _)) (Lane.discard_desk _ _)
  case unpark | earlyAck => exact ⟨booked.positive, booked.balanced, booked.settled, booked.exact⟩
  case unparkOversized front _ =>
    have received := sequenced.held_received _ (List.mem_append_right _ (front ▸ List.mem_cons_self))
    exact booked.discard received (Lane.discard_books _ _)
      (congrArg Stock.arrived (Lane.discard_stock _ _)) (Lane.discard_desk _ _)
  case poison front _ _ =>
    have received := sequenced.held_received _ (List.mem_append_left _ (front ▸ List.mem_cons_self))
    exact booked.discard received (Lane.discard_books _ _)
      (congrArg Stock.arrived (Lane.discard_stock _ _)) (Lane.discard_desk _ _)
  case handEarly front early _ =>
    have received := sequenced.held_received _ (List.mem_append_left _ (front ▸ List.mem_cons_self))
    refine ⟨booked.positive, booked.balanced, ?_, fun late => absurd late (by simp [early])⟩
    intro tag member
    rcases List.mem_append.mp member with older | newest
    · exact booked.settled tag older
    · rw [List.mem_singleton.mp newest]
      exact List.mem_map_of_mem received
  case tokenize | hand => exact booked.tokenize

theorem Quiet.writes (move : Quiet sub capacity v w) (booked : Booked sub v) (sequenced : Sequenced sub v)
    (solo : Solo v) (claimed : Claimed v) : Flow sub capacity v w ∨ Writes v w := by
  have received := fun tag member => sequenced.handed_received tag (claimed.singles tag member)
  cases move
  case flow flow => exact .inl flow
  case flush => exact .inr (.nothing (Lane.books_of_core Lane.flushAcked_core))
  case beginSettlement => exact .inr (.nothing (Lane.beginSettlement_books _ _ _))
  case beginThrough => exact .inr (.nothing (Lane.beginThrough_books _ _ _))
  case endSettlement tag result under =>
    right
    have books := @Lane.endSettlement_books v.lane sub tag result
    split at books
    · exact .settle (received tag (by simp [View.singles, under, Finishing.single?])) books
    · exact .nothing books
  case endThrough through result under =>
    right
    have books := @Lane.endThrough_books v.lane through result
    split at books
    · exact .through (by simp [View.throughs, under, Finishing.through?]) books
    · exact .nothing books
  case closeSettlement index future result winding found _ =>
    have staged := solo.retired_singles found
    refine .inr (.closed winding (congrArg Core.books (Lane.closeSettlement_core index future.tag result)) ?_)
    intro tag member
    rw [List.mem_singleton.mp member]
    exact received future.tag (by simp [View.singles, staged])
  case closeThrough index future result winding found _ =>
    have staged := solo.retired_throughs found
    refine .inr (.closed winding (congrArg Core.books (Lane.closeThrough_core index future.through result)) ?_)
    exact (booked.balanced.covers future.through (by simp [View.throughs, staged])).received
  all_goals exact .inr (.nothing rfl)

theorem Quiet.winding_mono (move : Quiet sub capacity v w) : w.winding = false → v.winding = false := by
  cases move
  case flow flow => exact flow.same_winding ▸ id
  case windUp => exact nofun
  all_goals exact id

theorem Quiet.booked (move : Quiet sub capacity v w) (booked : Booked sub v) (sequenced : Sequenced sub v)
    (solo : Solo v) (claimed : Claimed v) : Booked sub w := by
  rcases move.writes booked sequenced solo claimed with flow | writes
  · exact flow.booked booked sequenced
  · have staged := fun through member =>
      ((move.stages solo).flushed through member).imp_right booked.balanced.covers_flush
    have winding := move.winding_mono
    rcases move.stirs with flow | ⟨d, sends⟩ | same
    · exact flow.booked booked sequenced
    · refine booked.write writes (congrArg Stock.arrived sends.stock) ?_ winding staged
      rw [sends.incoming]
      intro a member
      rcases List.mem_append.mp member with older | newest
      · exact booked.positive a older
      · rw [List.mem_singleton.mp newest, sends.tag]
        exact Nat.succ_pos _
    · exact booked.write writes (congrArg Stock.arrived same.stock) (same.incoming ▸ booked.positive) winding staged

theorem Marked.books {mark : Mark} (move : Marked v mark w) : w.lane.books = v.lane.books := by
  cases move
  case settle => exact Lane.books_of_core (Lane.acceptSettlement_core _ _)
  case through => exact Lane.books_of_core (Lane.acceptThrough_core _)
  all_goals exact Lane.transmit_books _ _

theorem Marked.covers {mark : Mark} (move : Marked v mark w) (booked : Booked sub v) :
    ∀ through ∈ mark.through?, Covers v.lane.ledger v.lane.arrived through := by
  cases move
  case through through _ _ _ _ _ above valid _ =>
    have covers := booked.balanced.covers_prefix above valid
    simpa [Mark.through?] using covers
  all_goals rintro _ ⟨⟩

theorem Marked.listed {mark : Mark} (move : Marked v mark w) :
    ∀ through ∈ mark.through?, ∀ tag ∈ through.affected, tag ∈ v.lane.ledger.pending.keys := by
  cases move
  case through valid _ =>
    intro through own tag member
    cases own
    exact (((Lane.validatePrefix_ok valid).1 tag).mp member).1
  all_goals exact nofun

theorem Marked.prefix_nodup {mark : Mark} (move : Marked v mark w) :
    ∀ through ∈ mark.through?, through.affected.Nodup := by
  cases move
  case through valid _ =>
    intro through own
    cases own
    obtain ⟨listed, run, -⟩ := Lane.walkPrefix_ok valid
    rw [listed, List.nil_append, run]
    exact List.nodup_range'
  all_goals exact nofun

theorem Marked.same_winding {mark : Mark} (move : Marked v mark w) : w.winding = v.winding := by
  cases move <;> rfl

theorem Marked.booked {mark : Mark} (move : Marked v mark w) (booked : Booked sub v) (solo : Solo v) :
    Booked sub w := by
  obtain ⟨-, throughs, -⟩ := move.stages solo
  have same := move.unstirred
  refine booked.write (.nothing move.books) (congrArg Stock.arrived same.stock)
    (same.incoming ▸ booked.positive) (move.same_winding ▸ id) ?_
  intro through member
  rw [throughs] at member
  rcases List.mem_append.mp member with older | newest
  · exact .inl older
  · exact .inr (move.covers booked through (Option.mem_toList.mp newest))

end Preserved

structure Kept (sub : Subscription) (v : View) : Prop where
  sequenced : Sequenced sub v
  solo : Solo v
  claimed : Claimed v
  booked : Booked sub v

theorem Quiet.kept (move : Quiet sub capacity v w) (kept : Kept sub v) : Kept sub w where
  sequenced := move.sequenced kept.sequenced
  solo := move.solo kept.solo
  claimed := move.claimed kept.solo kept.claimed
  booked := move.booked kept.booked kept.sequenced kept.solo kept.claimed

theorem Marked.kept {mark : Mark} (move : Marked v mark w) (kept : Kept sub v) : Kept sub w where
  sequenced := move.unstirred.sequenced kept.sequenced
  solo := move.solo kept.solo
  claimed := move.claimed kept.solo kept.claimed
  booked := move.booked kept.booked kept.solo

theorem kept_initial : Kept sub .initial where
  sequenced := sequenced_initial
  solo := solo_initial
  claimed := claimed_initial
  booked := by
    refine ⟨nofun, ⟨nofun, nofun, .inl rfl, nofun⟩, nofun, fun _ _ tag => ?_⟩
    simp [View.initial]

variable {sha256 : Bytes → Bytes} {settings : Settings} {s t : State} {e : Event} {Allowed : State → Event → Prop}

theorem kept_of_reaches (known : settings.Knows sub)
    (reached : Reaches (machine sha256 settings) Allowed s) : Kept sub (s.view sub.id) :=
  view_invariant known kept_initial (fun _ _ kept move => move.kept kept)
    (fun _ _ _ _ _ _ kept move => move.kept kept) reached

/-- The tags a result settles for good. -/
def Finishing.released : Finishing → List Nat
  | .settlement tag result => if State.isTerminal result then [tag] else []
  | .through whole result => if State.throughTerminal result then whole.affected else []

theorem Lane.endSettlement_settled {lane : Lane} (tag : Nat) (result : Outcome) :
    (lane.endSettlement sub tag result).settled = lane.settled ++ (Finishing.settlement tag result).released := by
  refine (congrArg Books.settled (endSettlement_books sub tag result)).trans ?_
  simp only [Finishing.released]
  split
  · rfl
  · exact (List.append_nil _).symm

theorem Lane.endThrough_settled {lane : Lane} (through : Through) (result : Outcome) :
    (lane.endThrough through result).settled = lane.settled ++ (Finishing.through through result).released := by
  refine (congrArg Books.settled (endThrough_books through result)).trans ?_
  simp only [Finishing.released]
  split
  · rfl
  · exact (List.append_nil _).symm

def SettlementFuture.ends (future : SettlementFuture) : List Nat :=
  match future.progress with
  | .finished result => (Finishing.settlement future.tag result).released
  | _ => []

def ThroughFuture.ends (future : ThroughFuture) : List Nat :=
  (future.result.map fun result => (Finishing.through future.through result).released).getD []

/-- The tags a completion settles for good, by the result it takes. -/
def Event.settles (s : State) (id : String) : Event → List Nat
  | .settled name index =>
    if name = id then ((s.lanes id).pendingSettlements[index]?.map SettlementFuture.ends).getD [] else []
  | .throughSettled name index =>
    if name = id then ((s.lanes id).pendingSettleThroughs[index]?.map ThroughFuture.ends).getD [] else []
  | _ => []

def settledIn (id : String) (trace : List (State × Event)) : List Nat :=
  trace.flatMap fun taken => taken.2.settles taken.1 id

/-- The tags of the deliveries the actor still has to hand over, and of those it handed over. -/
def View.present (v : View) : List Nat := (v.lane.buffer ++ v.parked).map (·.tag) ++ v.handed

theorem Sequenced.present_iff (sequenced : Sequenced sub v) {tag : Nat}
    (received : tag ∈ v.lane.arrived.map (·.tag)) : tag ∈ v.present ↔ tag ∉ v.lane.discarded := by
  obtain ⟨out, items, kept⟩ := sequenced.kept
  have tags : v.present.Perm ((keptOf v.lane.stock.arrived v.lane.stock.discarded).map (·.tag)) := by
    rw [kept, List.map_append, View.present, View.handed, items, List.map_map]
    exact List.perm_append_comm
  obtain ⟨d, among, rfl⟩ := List.mem_map.mp received
  rw [tags.mem_iff]
  constructor
  · intro held
    obtain ⟨other, member, same⟩ := List.mem_map.mp held
    rw [← same]
    exact of_decide_eq_true (List.mem_filter.mp member).2
  · intro apart
    exact List.mem_map_of_mem (List.mem_filter.mpr ⟨among, decide_eq_true apart⟩)

/-- From `lane` to `other` the actor discards some deliveries, and then settles those of `tags`. -/
def Lane.Settles (lane other : Lane) (tags : List Nat) : Prop :=
  ∃ dropped, other.ended = (lane.settled ++ dropped ++ tags, lane.discarded ++ dropped)

theorem Lane.Settles.of_eq {lane other : Lane} (same : other.ended = lane.ended) : lane.Settles other [] :=
  ⟨[], by simpa [ended] using same⟩

theorem Lane.settles_discard {lane : Lane} {d : Delivery} : lane.Settles (lane.discard sub d) [] :=
  ⟨[d.tag], by
    rw [List.append_nil]
    exact congrArg₂ (fun books stock => (books.settled, stock.discarded)) (discard_books sub d) (discard_stock sub d)⟩

theorem Flow.settles (flow : Flow sub capacity v w) (late : sub.earlyAck = false) : v.lane.Settles w.lane [] := by
  cases flow
  case refuse | unparkOversized | poison => exact Lane.settles_discard
  case handEarly _ early _ => rw [late] at early; cases early
  all_goals exact .of_eq rfl

theorem Flows.settles (flows : Flows sub capacity v w) (late : sub.earlyAck = false) :
    v.lane.Settles w.lane [] := by
  induction flows with
  | refl => exact .of_eq rfl
  | tail _ flow ih =>
    obtain ⟨dropped, before⟩ := ih
    obtain ⟨more, after⟩ := flow.settles late
    refine ⟨dropped ++ more, ?_⟩
    simp_all [Lane.ended]

theorem Concludes.settles {begun closed : Lane} {ended : Lane → Lane} {tags : List Nat}
    (concludes : Concludes sub capacity v begun ended closed w) (late : sub.earlyAck = false)
    (live : w.winding = false) (begins : begun.ended = v.lane.ended)
    (ends : ∀ lane : Lane, (ended lane).ended = (lane.settled ++ tags, lane.discarded)) :
    v.lane.Settles w.lane tags := by
  cases concludes with
  | live _ _ flows =>
    obtain ⟨dropped, before⟩ := flows.settles late
    refine ⟨dropped, (ends _).trans ?_⟩
    simp_all [Lane.ended]
  | winding winding => exact absurd live (by simp [winding])

theorem step_settles (known : settings.Knows sub) (late : sub.earlyAck = false) (live : t.stage.winding = false)
    (stepped : step sha256 settings s e = some t) :
    (s.lanes sub.id).Settles (t.lanes sub.id) (e.settles s sub.id) := by
  cases e
  case incoming => exact (incoming_flows known stepped).settles late
  case notified => exact (notified_flows known stepped).settles late
  case settled name index =>
    rcases settled_views known stepped with ⟨other, flows⟩ | ⟨rfl, future, result, found, finished, concludes⟩
    · rw [Event.settles, if_neg other]
      exact flows.settles late
    · refine concludes.settles late live (Lane.ended_of (Lane.beginSettlement_stock _ _ _) (Lane.beginSettlement_books _ _ _))
        fun lane => ?_
      have ends : Event.settles s sub.id (.settled sub.id index) = (Finishing.settlement future.tag result).released := by
        simp [Event.settles, found, SettlementFuture.ends, finished]
      rw [ends]
      exact Prod.ext (Lane.endSettlement_settled _ _) (congrArg Stock.discarded (Lane.endSettlement_stock _ _ _))
  case throughSettled name index =>
    rcases throughSettled_views known stepped with ⟨other, flows⟩ | ⟨rfl, future, result, found, finished, concludes⟩
    · rw [Event.settles, if_neg other]
      exact flows.settles late
    · refine concludes.settles late live (Lane.ended_of (Lane.beginThrough_stock _ _ _) (Lane.beginThrough_books _ _ _))
        fun lane => ?_
      have ends : Event.settles s sub.id (.throughSettled sub.id index) = (Finishing.through future.through result).released := by
        simp [Event.settles, found, ThroughFuture.ends, finished]
      rw [ends]
      exact Prod.ext (Lane.endThrough_settled _ _) (congrArg Stock.discarded (Lane.endThrough_stock _ _))
  case claim =>
    rcases @claim_views _ sub _ _ _ _ _ _ stepped with ⟨-, same⟩ | ⟨-, -, token, -, -, same⟩
    · exact .of_eq (congrArg (·.lane.ended) same)
    · exact .of_eq ((congrArg (·.lane.ended) same).trans rfl)
  case send =>
    obtain ⟨sending, -, ⟨-, same⟩ | ⟨-, rest, -, same | ⟨state, -, same⟩⟩⟩ := @send_views _ sub _ _ _ _ stepped
    all_goals exact .of_eq ((congrArg (·.lane.ended) same).trans rfl)
  all_goals exact .of_eq (congrFun (congrArg Counter.ended (quiet_counter stepped rfl rfl)) sub.id)

theorem settled_iff (known : settings.Knows sub) (late : sub.earlyAck = false) {trace : List (State × Event)}
    (traced : Traced (machine sha256 settings) Allowed trace s) (live : s.stage.winding = false) (tag : Nat) :
    tag ∈ (s.lanes sub.id).settled ↔ tag ∈ (s.lanes sub.id).discarded ∨ tag ∈ settledIn sub.id trace := by
  induction traced with
  | start first =>
    obtain rfl := first
    simp [settledIn]
  | @next trace s t e _ _ stepped ih =>
    obtain ⟨dropped, ended⟩ := step_settles known late live stepped
    have before : s.stage.winding = false := by
      have keeps : ∀ v w, (v.winding = false → s.stage.winding = false) →
          Quiet sub settings.earlyAckedCapacity v w → w.winding = false → s.stage.winding = false :=
        fun v w ih move live => ih (move.winding_mono live)
      rcases step_refines known stepped with path | ⟨mark, -, move⟩
      · exact path.keeps keeps id live
      · exact move.same_winding.symm.trans live
    have here := ih before
    obtain ⟨settled, discarded⟩ := Prod.mk.inj ended
    rw [settled, discarded]
    simp only [List.mem_append, here, settledIn, List.flatMap_cons, or_assoc, or_left_comm, or_comm]

/-- With acknowledgements after the hand-off, the ledger of a consumer that is not winding up lists the
deliveries it received and neither discarded nor settled by a completion of the run, in the order they
came in. -/
theorem ledger_lists_unsettled (known : settings.Knows sub) (late : sub.earlyAck = false)
    {trace : List (State × Event)} (traced : Traced (machine sha256 settings) Allowed trace s)
    (live : s.stage.winding = false) :
    (s.lanes sub.id).ledger.pending.keys = ((s.lanes sub.id).arrived.map (·.tag)).filter fun tag =>
      tag ∈ (s.view sub.id).present ∧ tag ∉ settledIn sub.id trace := by
  have kept := kept_of_reaches known traced.reaches
  have received : ((s.lanes sub.id).arrived.map (·.tag)).Pairwise (· < ·) :=
    Sequence.arrived_ascending kept.sequenced
  refine (Table.keys_sorted _).eq_of_mem_iff (received.filter _) fun tag => ?_
  rw [List.mem_filter, decide_eq_true_iff]
  refine (kept.booked.exact late live tag).trans (and_congr_right fun arrived => ?_)
  rw [kept.sequenced.present_iff arrived, ← not_or]
  exact not_congr (settled_iff known late traced live tag)

/-- Three deliveries, the second one poison and the first acknowledged: the third is pending. -/
theorem ledger_lists_third : ∃ trace s, Traced (machine id jobsOnly) (fun _ _ => True) trace s ∧
    (s.view "jobs").present = [1, 3] ∧ settledIn "jobs" trace = [1] ∧
    (s.lanes "jobs").ledger.pending.keys = [3] ∧
    (s.lanes "jobs").ledger.pending.keys = ((s.lanes "jobs").arrived.map (·.tag)).filter fun tag =>
      tag ∈ (s.view "jobs").present ∧ tag ∉ settledIn "jobs" trace := by
  obtain ⟨trace, s, traced, present, settled, pending, live⟩ := exists_traced (machine id jobsOnly) (fun _ _ => True) rfl
    (arrivals [{ tag := 1 }, { tag := 2, redelivered := true }, { tag := 3 }] 2 ++ deciding 1 .ack ++ handling 1 ++
      [.performThrough "jobs" 0 (.ok ()), .throughSettled "jobs" 0])
    (fun trace s => (s.view "jobs").present = [1, 3] ∧ settledIn "jobs" trace = [1] ∧
      (s.lanes "jobs").ledger.pending.keys = [3] ∧ s.stage.winding = false) (by decide +kernel)
  exact ⟨trace, s, traced, present, settled, pending, ledger_lists_unsettled jobs_known rfl traced live⟩

/-- A delivery handed over already acknowledged stays in the ledger. -/
theorem early_acked_stays_pending : ∃ s, Reachable (machine id (single { jobs with earlyAck := true } nofun)) s ∧
    s.stage.winding = false ∧ s.popped.map (·.tag) = [1] ∧ (s.lanes "jobs").outstanding = [] ∧
    (s.lanes "jobs").settled = [1] ∧ (s.lanes "jobs").ledger.pending.keys = [1] := by
  exact exists_reachable (machine id (single { jobs with earlyAck := true } nofun)) rfl
    (arrivals [{ tag := 1 }] 1 ++ [.runTask "jobs" 0 (.ok ())]) _ (by decide +kernel)

end RabbitRs.Consumer
