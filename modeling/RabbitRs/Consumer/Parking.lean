import RabbitRs.Consumer.Shelf

/-!
The parked deliveries: the incoming arm is closed while their bound is reached, and it parks one
delivery at most; nothing else parks.
-/

namespace RabbitRs.Consumer

open StepMachine

variable {sha256 : Bytes → Bytes} {settings : Settings} {sub : Subscription} {s t : State} {e : Event}

namespace State

theorem parked_modify (id : String) (change : Lane → Lane) : (s.modify id change).parked = s.parked := rfl

@[simp] theorem parked_recordOutcome (result : Outcome) : (s.recordOutcome result).parked = s.parked := by
  unfold recordOutcome
  split <;> rfl

@[simp] theorem parked_settlePoison (d : Delivery) (name detail : String) :
    (s.settlePoison sub d name detail).parked = s.parked := by
  simp [settlePoison, recordSettlementError, modify]

@[simp] theorem parked_afterArm : s.afterArm.parked = s.parked := by
  unfold afterArm
  split <;> rfl

@[simp] theorem parked_dispatchEarly (d : Delivery) (rest : List Delivery) (attempts : Nat) :
    (s.dispatchEarly settings sub d rest attempts).1.parked = s.parked := by
  unfold dispatchEarly
  dsimp only
  split <;> split <;> rfl

@[simp] theorem parked_dispatchToken (d : Delivery) (rest : List Delivery) (attempts : Nat) :
    (s.dispatchToken settings sub d rest attempts).1.parked = s.parked := by
  unfold dispatchToken
  dsimp only
  split <;> rfl

theorem parked_dispatchDelivery (d : Delivery) (rest : List Delivery) :
    (s.dispatchDelivery settings sub d rest).1.parked = s.parked := by
  unfold dispatchDelivery
  split
  · split
    · exact parked_dispatchEarly _ _ _
    · exact parked_dispatchToken _ _ _
  · split
    · exact parked_dispatchEarly _ _ _
    · exact parked_settlePoison _ _ _

theorem parked_dispatchOnce : (s.dispatchOnce settings).1.parked = s.parked := by
  unfold dispatchOnce
  split
  · split <;> rfl
  · split
    · rfl
    · dsimp only
      split
      · rfl
      · rfl
      · exact parked_dispatchDelivery _ _

theorem parked_dispatchLoop (passes : Nat) : (s.dispatchLoop settings passes).parked = s.parked := by
  induction passes generalizing s with
  | zero => rfl
  | succ passes ih =>
    have once := @parked_dispatchOnce settings s
    unfold dispatchLoop
    split
    · rename_i next went
      rw [went] at once
      exact ih.trans once
    · rename_i next ended
      rw [ended] at once
      exact once

theorem drainParked_length (parked : List (String × Delivery)) :
    (s.drainParked settings parked).parked.length ≤ parked.length := by
  induction parked generalizing s with
  | nil => exact le_rfl
  | cons first rest ih =>
    unfold drainParked
    split
    · exact ih.trans (Nat.le_succ _)
    · split
      · split
        · exact ih.trans (Nat.le_succ _)
        · exact le_rfl
      · exact ih.trans (Nat.le_succ _)

theorem dispatch_length : (s.dispatch settings).parked.length ≤ s.parked.length := by
  unfold dispatch
  rw [parked_dispatchLoop]
  exact drainParked_length _

theorem drainPending_dispatch_length :
    ((s.drainPending settings).dispatch settings).parked.length ≤ s.parked.length :=
  dispatch_length.trans (drainParked_length _)

theorem handleDelivery_length (d : Delivery) :
    (s.handleDelivery settings sub d).parked.length ≤ s.parked.length + 1 := by
  unfold handleDelivery
  dsimp only
  split
  · split
    · rw [parked_settleOversized]
      exact Nat.le_succ _
    · simp [recordBackpressure, modify]
  · split
    · exact dispatch_length.trans (Nat.le_succ _)
    · refine drainPending_dispatch_length.trans ?_
      simp [modify]

theorem handleIncoming_length (id : String) (result : Except TransportError Delivery) :
    (s.handleIncoming settings id result).parked.length ≤ s.parked.length + 1 := by
  unfold handleIncoming
  split
  · exact handleDelivery_length _
  · exact Nat.le_succ _
  · exact dispatch_length.trans (Nat.le_succ _)

@[simp] theorem parked_concludeSettlement (tag : Nat) (result : Outcome) :
    (s.concludeSettlement sub tag result).parked = s.parked := by
  unfold concludeSettlement
  split
  · rfl
  · split <;> simp [refuse, recordSettlementError, modify]

@[simp] theorem parked_refuseThrough (id : String) (through : Through) (result : Outcome) :
    (s.refuseThrough id through result).parked = s.parked := by
  cases result <;> rfl

theorem completeSettlement_length (index tag : Nat) (result : Outcome) :
    (s.completeSettlement settings sub index tag result).parked.length ≤ s.parked.length := by
  unfold completeSettlement
  dsimp only
  rw [parked_modify, parked_concludeSettlement, parked_modify]
  split
  · rw [parked_modify]
    refine drainPending_dispatch_length.trans ?_
    rw [parked_modify, parked_recordOutcome, parked_modify]
  · exact le_rfl

theorem completeSettleThrough_length (index : Nat) (through : Through)
    (result : Outcome) :
    (s.completeSettleThrough settings sub index through result).parked.length ≤ s.parked.length := by
  unfold completeSettleThrough
  dsimp only
  rw [parked_modify, parked_refuseThrough, parked_modify]
  split
  · rw [parked_modify]
    refine drainPending_dispatch_length.trans ?_
    split <;> exact le_rfl
  · exact le_rfl

theorem parked_closeSettlement (index tag : Nat) (result : Outcome) :
    (s.closeSettlement sub index tag result).parked = s.parked := by
  cases result <;> rfl

theorem parked_closeSettleThrough (index : Nat) (through : Through) (result : Outcome) :
    (s.closeSettleThrough sub index through result).parked = s.parked := by
  cases result <;> rfl

end State

theorem step_parked (stepped : step sha256 settings s e = some t) : t.parked.length ≤ s.parked.length ∨
      s.parked.length < settings.pendingCapacity ∧ t.parked.length ≤ s.parked.length + 1 := by
  cases e
  case incoming =>
    right
    simp only [step] at stepped
    split at stepped
    · obtain ⟨room, stepped⟩ := Option.ite_none_right_eq_some.mp stepped
      cases stepped
      rw [State.parked_afterArm]
      exact ⟨room, State.handleIncoming_length _ _⟩
    · obtain ⟨room, stepped⟩ := Option.ite_none_right_eq_some.mp stepped
      cases stepped
      rw [State.parked_afterArm]
      exact ⟨room, State.handleIncoming_length _ _⟩
    · cases stepped
  all_goals left
  case notified =>
    simp only [step, Option.ite_none_right_eq_some, Option.some.injEq] at stepped
    obtain ⟨-, rfl⟩ := stepped
    rw [State.parked_afterArm]
    exact State.dispatch_length
  case settled name index =>
    simp only [step, Option.bind_eq_some_iff] at stepped
    obtain ⟨found, -, future, -, stepped⟩ := stepped
    split at stepped
    · cases stepped
      rw [State.parked_afterArm]
      exact State.completeSettlement_length _ _ _
    · cases stepped
      exact (congrArg List.length (State.parked_closeSettlement _ _ _)).le
    · cases stepped
  case throughSettled name index =>
    simp only [step, Option.bind_eq_some_iff] at stepped
    obtain ⟨found, -, future, -, stepped⟩ := stepped
    split at stepped
    · cases stepped
      rw [State.parked_afterArm]
      exact State.completeSettleThrough_length _ _ _
    · cases stepped
      exact (congrArg List.length (State.parked_closeSettleThrough _ _ _)).le
    · cases stepped
  all_goals
    exact (congrArg List.length (congrArg Shelf.parked (quiet_shelf stepped rfl))).le

theorem parked_of_reaches {Allowed : State → Event → Prop} (reached : Reaches (machine sha256 settings) Allowed s) :
    s.parked.length ≤ settings.pendingCapacity := by
  induction reached with
  | start first =>
    obtain rfl := first
    exact Nat.zero_le _
  | next _ _ stepped ih =>
    rcases step_parked stepped with fewer | ⟨room, one⟩
    · exact fewer.trans ih
    · exact one.trans room

end RabbitRs.Consumer
