import RabbitRs.Consumer.Ledger

/-!
The guards of a settle-through (`handle_settle_through`): which prefixes of the ledger it stages,
and what a rejected one leaves behind. The claim of the target and its rollback are written out
here.
-/

namespace RabbitRs.Consumer

open StepMachine

namespace Lane

variable {lane : Lane} {target : Nat} {tokens : List Nat}

/-- Every tag above the settled prefix up to the target is pending and has a token. -/
def Contiguous (lane : Lane) (target : Nat) : Prop :=
  ∀ tag, lane.ledger.ackedPrefix < tag → tag ≤ target → (tag, true) ∈ lane.ledger.pending.entries

theorem Contiguous.entries (contiguous : lane.Contiguous target) :
    (lane.ledger.pending.after lane.ledger.ackedPrefix).filter (·.1 ≤ target) =
      (List.range' (lane.ledger.ackedPrefix + 1) (target - lane.ledger.ackedPrefix)).map (·, true) := by
  have ordered := (lane.ledger.pending.after_sorted lane.ledger.ackedPrefix).filter (·.1 ≤ target)
  have listed : ((List.range' (lane.ledger.ackedPrefix + 1) (target - lane.ledger.ackedPrefix)).map
      (·, true)).Pairwise fun a b : Nat × Bool => a.1 < b.1 :=
    List.pairwise_map.mpr List.pairwise_lt_range'
  have distinct {entries : List (Nat × Bool)} (sorted : entries.Pairwise fun a b => a.1 < b.1) : entries.Nodup :=
    sorted.imp fun less same => absurd (congrArg Prod.fst same) less.ne
  refine List.Perm.eq_of_pairwise (fun a b _ _ less more => absurd less more.asymm) ordered listed ?_
  rw [List.perm_ext_iff_of_nodup (distinct ordered) (distinct listed)]
  rintro ⟨tag, dispatched⟩
  simp only [List.mem_filter, Ordered.Table.mem_after, decide_eq_true_eq, List.mem_map, List.mem_range'_1,
    Prod.mk.injEq]
  constructor
  · rintro ⟨⟨pending, above⟩, upTo⟩
    have keys : (lane.ledger.pending.entries.map (·.1)).Nodup := lane.ledger.pending.keys_sorted.imp ne_of_lt
    have same := List.inj_on_of_nodup_map keys pending (contiguous tag above upTo) rfl
    refine ⟨tag, by omega, rfl, ?_⟩
    exact (congrArg Prod.snd same).symm
  · rintro ⟨tag, inside, rfl, rfl⟩
    exact ⟨⟨contiguous tag (by omega) (by omega), by omega⟩, by omega⟩

def stageThrough (lane : Lane) (through : Through) : Lane :=
  let lane := through.affected.foldl (fun lane tag => lane.setSettling tag true) lane
  (lane.chooseAck through.affected).enqueueSettleThrough through

end Lane

namespace State

variable (s : State) (settings : Settings) (id : String) (tag : Nat)

def claimSettlement : State × Bool :=
  if (settings.runtime id).isNone then
    ((s.modify id (·.setState tag .lost)).refuse id tag .invalidSubscription
      "delivery references an unknown subscription", false)
  else if s.settling id tag then (s.refuseSettling id tag, false)
  else (s.modify id (·.setSettling tag true), true)

def rollBack (kind : ConsumerErrorKind) (message : String) : State :=
  (s.modify id (·.setSettling tag false)).refuse id tag kind message

def settleThrough : State :=
  if ((s.lanes id).tokens tag).any (·.state != .pending) then
    s.refuse id tag .alreadySettled "settle-through target is already settled or terminal"
  else
    match s.claimSettlement settings id tag with
    | (s, false) => s
    | (s, true) =>
      if tag ≤ (s.lanes id).ledger.ackedPrefix then
        s.rollBack id tag .alreadySettled "settle-through target is at or below the already-settled prefix"
      else
        match (s.lanes id).validatePrefix tag with
        | .error error => s.rollBack id tag error.kind error.message
        | .ok [] => s.rollBack id tag .staleGeneration "settle-through staged no token of the live generation"
        | .ok affected => s.modify id fun lane => lane.stageThrough { target := tag, affected }

variable {s settings id tag}

variable (s id tag) in
/-- What is checked of a target before its prefix is. -/
structure Guarded : Prop where
  pending : ((s.lanes id).tokens tag).any (·.state != .pending) = false
  free : s.settling id tag = false
  above : ¬tag ≤ (s.lanes id).ledger.ackedPrefix

end State

def ForeignToken.refused (token : ForeignToken) (settings : Settings) : ForeignToken :=
  if token.state ≠ .pending then token
  else if (settings.runtime token.subscription).isNone then { token with state := .lost }
  else if token.settling then token
  else
    -- the generation fence takes the claim back
    let claimed := { token with settling := true }
    { claimed with settling := false }

variable {sub : Subscription} {settings : Settings}

end RabbitRs.Consumer
