import RabbitRs.Consumer.Channel

/-!
Arrivals and dispatch seen from one subscription: whatever the shared loops of the actor do, the
deliveries of a subscription only flow on.
-/

namespace RabbitRs.Consumer

variable {settings : Settings} {sub other : Subscription} {s t : State} {id : String}

theorem Settings.runtime_id (known : settings.runtime id = some sub) : sub.id = id := by
  simpa using List.find?_some known

/-- The subscription is configured, under its own id. -/
def Settings.Knows (settings : Settings) (sub : Subscription) : Prop := settings.runtime sub.id = some sub

theorem Settings.runtime_knows (known : settings.runtime id = some sub) : settings.Knows sub := by
  rwa [Knows, Settings.runtime_id known]

theorem Settings.Knows.unique (known : settings.Knows sub) (here : settings.Knows other)
    (same : other.id = sub.id) : other = sub :=
  Option.some.inj (here.symm.trans (same ▸ known))

theorem single_knows (sub : Subscription) (early : sub.noAck = true → sub.earlyAck = true) :
    (single sub early).Knows sub := by
  simp [Settings.Knows, Settings.runtime, single]

theorem jobs_known : jobsOnly.Knows jobs := single_knows jobs _

namespace State

theorem view_modify_self (change : Lane → Lane) :
    (s.modify id change).view id = { s.view id with lane := change (s.lanes id) } := by
  simp [view, modify]

theorem view_modify_other {name : String} (ne : name ≠ id) (change : Lane → Lane) :
    (s.modify name change).view id = s.view id := by
  simp [view, modify, Function.update_of_ne (Ne.symm ne)]

theorem lanes_modify_self (change : Lane → Lane) : (s.modify id change).lanes id = change (s.lanes id) := by
  simp [modify]

theorem lanes_modify_other {name : String} (ne : name ≠ id) (change : Lane → Lane) :
    (s.modify name change).lanes id = s.lanes id := by
  simp [modify, Function.update_of_ne (Ne.symm ne)]

@[simp] theorem view_recordSettlementError (error : SettlementError) :
    (s.recordSettlementError error).view id = s.view id := rfl

@[simp] theorem view_scheduler (scheduler : Scheduler) :
    ({ s with scheduler := scheduler } : State).view id = s.view id := rfl

@[simp] theorem view_recordPoison (lettered : Bool) : (s.recordPoison lettered).view id = s.view id := by
  cases lettered <;> rfl

@[simp] theorem lanes_recordPoison (lettered : Bool) : (s.recordPoison lettered).lanes = s.lanes := by
  cases lettered <;> rfl

@[simp] theorem view_recordOutcome (result : Outcome) : (s.recordOutcome result).view id = s.view id := by
  unfold recordOutcome
  split <;> rfl

@[simp] theorem lanes_recordOutcome (result : Outcome) : (s.recordOutcome result).lanes = s.lanes := by
  unfold recordOutcome
  split <;> rfl

theorem view_settlePoison_self (d : Delivery) (name detail : String) :
    (s.settlePoison sub d name detail).view sub.id =
      { s.view sub.id with lane := (s.lanes sub.id).discard sub d } := by
  rw [settlePoison, view_recordSettlementError, view_modify_self, view_recordPoison, lanes_recordPoison,
    Lane.discard]

theorem view_settlePoison_other (ne : sub.id ≠ id) (d : Delivery) (name detail : String) :
    (s.settlePoison sub d name detail).view id = s.view id := by
  rw [settlePoison, view_recordSettlementError, view_modify_other ne, view_recordPoison]

@[simp] theorem parked_recordPoison (lettered : Bool) : (s.recordPoison lettered).parked = s.parked := by
  cases lettered <;> rfl

theorem parked_settleOversized (d : Delivery) : (s.settleOversized sub d).parked = s.parked := by
  simp [settleOversized, settlePoison, recordSettlementError, modify]

theorem view_settleOversized_self (d : Delivery) : (s.settleOversized sub d).view sub.id =
      { s.view sub.id with lane := (s.lanes sub.id).discardOversized sub d } := by
  rw [settleOversized, view_settlePoison_self, view_modify_self, lanes_modify_self]
  rfl

theorem view_settleOversized_other (ne : sub.id ≠ id) (d : Delivery) :
    (s.settleOversized sub d).view id = s.view id := by
  rw [settleOversized, view_settlePoison_other ne, view_modify_other ne]

theorem view_enroll_self (d : Delivery) :
    (s.enroll sub d).view sub.id = { s.view sub.id with lane := (s.lanes sub.id).enroll d } := by
  rw [enroll, view_scheduler, view_modify_self]

theorem view_enroll_other (ne : sub.id ≠ id) (d : Delivery) : (s.enroll sub d).view id = s.view id := by
  rw [enroll, view_scheduler, view_modify_other ne]

theorem view_handedOff_self (item : Item) (rest : List Delivery) (own : item.subscription = sub.id) :
    (s.handedOff sub item rest).view sub.id =
      { s.view sub.id with queue := (s.view sub.id).queue ++ [item] } := by
  simp [view, handedOff, QueueItem.itemOf, own]

theorem lanes_handedOff (item : Item) (rest : List Delivery) :
    (s.handedOff sub item rest).lanes = s.lanes := rfl

theorem view_handedOff_other (ne : sub.id ≠ id) (item : Item) (rest : List Delivery)
    (own : item.subscription = sub.id) : (s.handedOff sub item rest).view id = s.view id := by
  simp [view, handedOff, QueueItem.itemOf, own, ne]

end State

theorem resolveAttempts_ok {d : Delivery} {attempts : Nat}
    (resolved : resolveAttempts sub.maxAttempts d.headers d.redelivered = .ok attempts) :
    sub.poisons d = false ∧ sub.item d attempts = sub.handed d := by
  unfold resolveAttempts validateAttempts at resolved
  unfold Subscription.poisons Subscription.handed
  cases cap : sub.maxAttempts with
  | none =>
    rw [cap] at resolved
    cases resolved
    exact ⟨rfl, rfl⟩
  | some maximum =>
    rw [cap] at resolved
    dsimp only at resolved
    split at resolved
    · cases resolved
    · rename_i within
      cases resolved
      exact ⟨by simpa using within, rfl⟩

theorem resolveAttempts_error {d : Delivery} {error : AttemptsError}
    (resolved : resolveAttempts sub.maxAttempts d.headers d.redelivered = .error error) :
    sub.poisons d = true ∧ sub.item d error.attempts = sub.handed d := by
  unfold resolveAttempts validateAttempts at resolved
  unfold Subscription.poisons Subscription.handed
  cases cap : sub.maxAttempts with
  | none =>
    rw [cap] at resolved
    cases resolved
  | some maximum =>
    rw [cap] at resolved
    dsimp only at resolved
    split at resolved
    · rename_i above
      cases resolved
      exact ⟨by simpa using above, rfl⟩
    · cases resolved

theorem Path.single {v w : View} {capacity : Nat} (move : Quiet sub capacity v w) : Path sub capacity v w :=
  Relation.ReflTransGen.single move

theorem Path.refl (sub : Subscription) (capacity : Nat) (v : View) : Path sub capacity v v :=
  Relation.ReflTransGen.refl

theorem Path.trans {u v w : View} {capacity : Nat} (first : Path sub capacity u v)
    (second : Path sub capacity v w) : Path sub capacity u w :=
  Relation.ReflTransGen.trans first second

theorem Path.of_eq {v w : View} {capacity : Nat} (same : w = v) : Path sub capacity v w :=
  same ▸ Path.refl sub capacity w

theorem Flows.single {v w : View} {capacity : Nat} (move : Flow sub capacity v w) : Flows sub capacity v w :=
  Relation.ReflTransGen.single move

theorem Flows.refl (sub : Subscription) (capacity : Nat) (v : View) : Flows sub capacity v v :=
  Relation.ReflTransGen.refl

theorem Flows.trans {u v w : View} {capacity : Nat} (first : Flows sub capacity u v)
    (second : Flows sub capacity v w) : Flows sub capacity u w :=
  Relation.ReflTransGen.trans first second

theorem Flows.of_eq {v w : View} {capacity : Nat} (same : w = v) : Flows sub capacity v w :=
  same ▸ Flows.refl sub capacity w

theorem Flow.finishing {v w : View} {capacity : Nat} (move : Flow sub capacity v w)
    (finishing : Option Finishing) : Flow sub capacity { v with finishing } { w with finishing } := by
  cases move with
  | park front fits => exact .park front fits
  | enroll front idle fits => exact .enroll front idle fits
  | refuse front oversized => exact .refuse front oversized
  | unpark front fits => exact .unpark front fits
  | unparkOversized front oversized => exact .unparkOversized front oversized
  | poison front late poisoned => exact .poison front late poisoned
  | earlyAck front early acked fresh => exact .earlyAck front early acked fresh
  | handEarly front early acked => exact .handEarly front early acked
  | tokenize front late sound => exact .tokenize front late sound
  | hand front late sound => exact .hand front late sound

theorem Flows.finishing {v w : View} {capacity : Nat} (flows : Flows sub capacity v w)
    (finishing : Option Finishing) : Path sub capacity { v with finishing } { w with finishing } := by
  induction flows with
  | refl => exact Path.refl _ _ _
  | tail _ move ih => exact ih.trans (Path.single (.flow (move.finishing finishing)))

theorem Flows.path {v w : View} {capacity : Nat} (flows : Flows sub capacity v w) : Path sub capacity v w := by
  induction flows with
  | refl => exact Path.refl _ _ _
  | tail _ move ih => exact ih.trans (Path.single (.flow move))

namespace State

@[simp] theorem view_stuck : (s.stuck sub).view id = s.view id := rfl

@[simp] theorem view_recordDelivery (attempts : Nat) : (s.recordDelivery attempts).view id = s.view id := rfl

@[simp] theorem view_recordAck : s.recordAck.view id = s.view id := rfl

/-- The acknowledgement before the hand-off, at most once for each tag the ring remembers. -/
def earlyAcked (s : State) (settings : Settings) (sub : Subscription) (d : Delivery) : State :=
  if sub.noAck || (s.lanes sub.id).earlyAcked.contains d.tag then s
  else s.modify sub.id fun lane => lane.earlyAck settings.earlyAckedCapacity d.tag

theorem dispatchEarly_eq (d : Delivery) (rest : List Delivery) (attempts : Nat) :
    s.dispatchEarly settings sub d rest attempts = if (s.earlyAcked settings sub d).handoffFull settings then
        ((s.earlyAcked settings sub d).stuck sub, false)
      else
        (((((s.earlyAcked settings sub d).handedOff sub (sub.item d attempts) rest).modify sub.id fun lane =>
          lane.handEarly (sub.item d attempts) d.size rest).recordDelivery attempts).recordAck, true) := rfl

theorem view_earlyAcked_other (ne : sub.id ≠ id) (d : Delivery) :
    (s.earlyAcked settings sub d).view id = s.view id := by
  unfold earlyAcked
  split
  · rfl
  · exact view_modify_other ne _

theorem view_dispatchEarly_other (ne : sub.id ≠ id) (d : Delivery) (rest : List Delivery) (attempts : Nat) :
    (s.dispatchEarly settings sub d rest attempts).1.view id = s.view id := by
  rw [dispatchEarly_eq]
  split
  · rw [view_stuck, view_earlyAcked_other ne]
  · rw [view_recordAck, view_recordDelivery, view_modify_other ne,
      view_handedOff_other ne (sub.item d attempts) rest rfl, view_earlyAcked_other ne]

theorem view_dispatchToken_other (ne : sub.id ≠ id) (d : Delivery) (rest : List Delivery) (attempts : Nat) :
    (s.dispatchToken settings sub d rest attempts).1.view id = s.view id := by
  unfold dispatchToken
  dsimp only
  split
  · rw [view_stuck, view_modify_other ne]
  · rw [view_recordDelivery, view_modify_other ne, view_handedOff_other ne (sub.item d attempts) rest rfl,
      view_modify_other ne]

theorem view_dispatchDelivery_other (ne : sub.id ≠ id) (d : Delivery) (rest : List Delivery) :
    (s.dispatchDelivery settings sub d rest).1.view id = s.view id := by
  unfold dispatchDelivery
  split
  · split
    · exact view_dispatchEarly_other ne _ _ _
    · exact view_dispatchToken_other ne _ _ _
  · split
    · rw [view_dispatchEarly_other ne, view_recordSettlementError]
    · rw [view_settlePoison_other ne, view_modify_other ne]

section Front

variable {d : Delivery} {rest : List Delivery} {attempts : Nat}

theorem earlyAcked_flows (front : (s.lanes sub.id).buffer = d :: rest) (early : sub.earlyAck = true) :
    Flows sub settings.earlyAckedCapacity (s.view sub.id) ((s.earlyAcked settings sub d).view sub.id) := by
  unfold earlyAcked
  split
  · exact Flows.refl _ _ _
  · rename_i fresh
    simp only [Bool.or_eq_true, List.contains_iff_mem, not_or, Bool.not_eq_true] at fresh
    rw [view_modify_self]
    exact Flows.single (.earlyAck front early fresh.1 fresh.2)

theorem earlyAcked_remembered (s : State) (settings : Settings) (sub : Subscription) (d : Delivery) :
    sub.noAck = true ∨ d.tag ∈ ((s.earlyAcked settings sub d).lanes sub.id).earlyAcked := by
  unfold earlyAcked
  split
  · rename_i known
    simpa using known
  · rw [lanes_modify_self]
    exact .inr (List.mem_append_right _ List.mem_cons_self)

theorem earlyAcked_buffer : ((s.earlyAcked settings sub d).lanes sub.id).buffer = (s.lanes sub.id).buffer := by
  unfold earlyAcked
  split
  · rfl
  · rw [lanes_modify_self]
    rfl

theorem dispatchEarly_flows (front : (s.lanes sub.id).buffer = d :: rest) (early : sub.earlyAck = true)
    (item : sub.item d attempts = sub.handed d) :
    Flows sub settings.earlyAckedCapacity (s.view sub.id)
      ((s.dispatchEarly settings sub d rest attempts).1.view sub.id) := by
  have acked := @earlyAcked_flows settings sub s d rest front early
  have front' : ((s.earlyAcked settings sub d).lanes sub.id).buffer = d :: rest :=
    earlyAcked_buffer.trans front
  rw [dispatchEarly_eq]
  split
  · exact acked
  · refine acked.trans ?_
    rw [view_recordAck, view_recordDelivery, view_modify_self, view_handedOff_self _ _ rfl, item]
    exact Flows.single (.handEarly front' early (earlyAcked_remembered s settings sub d))

theorem dispatchToken_flows (front : (s.lanes sub.id).buffer = d :: rest) (late : sub.earlyAck = false)
    (sound : sub.poisons d = false) (item : sub.item d attempts = sub.handed d) :
    Flows sub settings.earlyAckedCapacity (s.view sub.id)
      ((s.dispatchToken settings sub d rest attempts).1.view sub.id) := by
  unfold dispatchToken
  dsimp only
  rw [item]
  split
  · rw [view_stuck, view_modify_self]
    exact Flows.single (.tokenize front late sound)
  · rw [view_recordDelivery, view_modify_self, view_handedOff_self _ _ rfl, view_modify_self]
    rw [lanes_handedOff, lanes_modify_self]
    exact Flows.single (.hand front late sound)

theorem dispatchDelivery_flows (front : (s.lanes sub.id).buffer = d :: rest) :
    Flows sub settings.earlyAckedCapacity (s.view sub.id)
      ((s.dispatchDelivery settings sub d rest).1.view sub.id) := by
  unfold dispatchDelivery
  split
  · rename_i attempts resolved
    obtain ⟨sound, item⟩ := resolveAttempts_ok resolved
    split
    · exact dispatchEarly_flows front ‹_› item
    · exact dispatchToken_flows front (Bool.eq_false_iff.mpr ‹_›) sound item
  · rename_i error resolved
    obtain ⟨poisoned, item⟩ := resolveAttempts_error resolved
    split
    · exact @dispatchEarly_flows settings sub (s.recordSettlementError _) d rest _ front ‹_› item
    · rw [view_settlePoison_self, view_modify_self, lanes_modify_self]
      exact Flows.single (.poison front (Bool.eq_false_iff.mpr ‹_›) poisoned)

end Front

variable (known : settings.Knows sub)

include known

/-- One pass of the scheduler hands over, poisons or leaves the head of one buffer. -/
theorem dispatchOnce_flows :
    Flows sub settings.earlyAckedCapacity (s.view sub.id) ((s.dispatchOnce settings).1.view sub.id) := by
  unfold dispatchOnce
  split
  · split
    · exact Flows.refl _ _ _
    · exact Flows.of_eq (by simp [view, QueueItem.itemOf])
  · split
    · exact Flows.refl _ _ _
    · rename_i name scheduler _
      dsimp only
      split
      · exact Flows.refl _ _ _
      · exact Flows.refl _ _ _
      · rename_i d rest found front here
        have own : found.id = name := Settings.runtime_id here
        have knows := Settings.runtime_knows here
        by_cases same : found.id = sub.id
        · obtain rfl := known.unique knows same
          exact @dispatchDelivery_flows settings found { s with scheduler } d rest (own ▸ front)
        · exact Flows.of_eq (view_dispatchDelivery_other same _ _)

/-- The whole dispatch loop, by induction on its passes. -/
theorem dispatchLoop_flows (passes : Nat) (s : State) :
    Flows sub settings.earlyAckedCapacity (s.view sub.id) ((dispatchLoop settings passes s).view sub.id) := by
  induction passes generalizing s with
  | zero => exact Flows.refl _ _ _
  | succ passes ih =>
    have once := @dispatchOnce_flows settings sub s known
    unfold dispatchLoop
    split
    · rename_i next continues
      rw [continues] at once
      exact once.trans (ih next)
    · rename_i next stops
      rw [stops] at once
      exact once

/-- Parked deliveries enter their buffers in order. The induction is on the queue as it was found. -/
theorem drainParked_flows {parked : List (String × Delivery)} (s : State) (here : s.parked = parked) :
    Flows sub settings.earlyAckedCapacity (s.view sub.id) ((s.drainParked settings parked).view sub.id) := by
  induction parked generalizing s with
  | nil =>
    refine Flows.of_eq ?_
    simp [drainParked, view, here]
  | cons entry rest ih =>
    obtain ⟨name, d⟩ := entry
    have unparked : (s.view sub.id).parked = ofSub sub.id ((name, d) :: rest) := by rw [← here]; rfl
    unfold drainParked
    split
    · rename_i unknown
      have ne : name ≠ sub.id := fun same => by
        rw [same, known] at unknown
        cases unknown
      refine Flows.trans (Flows.of_eq ?_) (ih { s with parked := rest } rfl)
      simp [view, here, ofSub_cons_other d rest ne]
    · rename_i found runtime
      have own : found.id = name := Settings.runtime_id runtime
      have knows := Settings.runtime_knows runtime
      by_cases same : found.id = sub.id
      · obtain rfl := known.unique knows same
        rw [← own, ofSub_cons_self] at unparked
        split
        · split
          · rename_i oversized
            refine Flows.trans (Flows.single (.unparkOversized unparked oversized)) ?_
            refine Flows.trans (Flows.of_eq ?_) (ih ({ s with parked := rest }.settleOversized found d) ?_)
            · rw [view_settleOversized_self]
              rfl
            · exact parked_settleOversized d
          · exact Flows.of_eq (by simp [view, here])
        · rename_i fits
          refine Flows.trans (Flows.single (.unpark unparked (Bool.eq_false_iff.mpr fits))) ?_
          refine Flows.trans (Flows.of_eq ?_) (ih ({ s with parked := rest }.enroll found d) ?_)
          · rw [view_enroll_self]
            rfl
          · rfl
      · have skipped : ofSub sub.id ((name, d) :: rest) = ofSub sub.id rest :=
          ofSub_cons_other d rest (own ▸ same)
        split
        · split
          · refine Flows.trans (Flows.of_eq ?_) (ih ({ s with parked := rest }.settleOversized found d) ?_)
            · rw [view_settleOversized_other same]
              simp [view, here, skipped]
            · exact parked_settleOversized d
          · exact Flows.of_eq (by simp [view, here])
        · refine Flows.trans (Flows.of_eq ?_) (ih ({ s with parked := rest }.enroll found d) rfl)
          rw [view_enroll_other same]
          simp [view, here, skipped]

theorem drainPending_flows :
    Flows sub settings.earlyAckedCapacity (s.view sub.id) ((s.drainPending settings).view sub.id) :=
  drainParked_flows known s rfl

theorem dispatch_flows :
    Flows sub settings.earlyAckedCapacity (s.view sub.id) ((s.dispatch settings).view sub.id) :=
  (drainPending_flows known).trans (dispatchLoop_flows known _ _)

/-- An arrival is refused, parked, or enrolled when nothing is parked before it. -/
theorem handleDelivery_flows {d : Delivery} {rest : List (String × Except TransportError Delivery)}
    (here : settings.Knows other) (arrives : s.incoming = (other.id, .ok d) :: rest) :
    Flows sub settings.earlyAckedCapacity (s.view sub.id)
      (({ s with incoming := rest }.handleDelivery settings other d).view sub.id) := by
  unfold handleDelivery
  dsimp only
  by_cases same : other.id = sub.id
  · obtain rfl := known.unique here same
    have incoming : (s.view other.id).incoming = d :: (ofSub other.id rest).filterMap arriving := by
      simp [view, arrives, arriving]
    rw [lanes_modify_self]
    split
    · split
      · rename_i oversized
        refine Flows.trans (Flows.single (.refuse incoming oversized)) (Flows.of_eq ?_)
        rw [view_settleOversized_self, view_modify_self, lanes_modify_self]
        rfl
      · rename_i fits
        refine Flows.trans (Flows.single (.park incoming (Bool.eq_false_iff.mpr fits))) (Flows.of_eq ?_)
        simp [view, recordBackpressure, modify]
    · rename_i within
      split
      · rename_i idle
        have empty : (s.view other.id).parked = [] := by
          have : s.parked = [] := List.isEmpty_iff.mp idle
          simp [view, this]
        refine Flows.trans (Flows.single (.enroll incoming empty (Bool.eq_false_iff.mpr within))) ?_
        refine Flows.trans (Flows.of_eq ?_) (dispatch_flows known)
        rw [view_enroll_self, view_modify_self, lanes_modify_self]
        rfl
      · have fits : other.oversized d.size = false := by
          simp only [Subscription.overBudget, Subscription.oversized, decide_eq_true_eq, not_lt,
            decide_eq_false_iff_not] at within ⊢
          exact (Nat.le_add_left _ _).trans within
        refine Flows.trans (Flows.single (.park incoming fits)) ?_
        refine Flows.trans (Flows.of_eq ?_) ((drainPending_flows known).trans (dispatch_flows known))
        simp [view, modify]
  · have skipped : (({ s with incoming := rest } : State).modify other.id fun lane => lane.receive d).view
        sub.id = s.view sub.id := by
      rw [view_modify_other same]
      simp [view, arrives, ofSub_cons_other _ _ same]
    have appended : ofSub sub.id (s.parked ++ [(other.id, d)]) = ofSub sub.id s.parked := by
      simp [ofSub_cons_other d [] same]
    split
    · split
      · refine Flows.of_eq ?_
        rw [view_settleOversized_other same, skipped]
      · refine Flows.of_eq (Eq.trans ?_ skipped)
        simp only [view, recordBackpressure, modify, appended]
    · split
      · refine Flows.trans (Flows.of_eq ?_) (dispatch_flows known)
        rw [view_enroll_other same, skipped]
      · refine Flows.trans (Flows.of_eq (Eq.trans ?_ skipped))
          ((drainPending_flows known).trans (dispatch_flows known))
        simp only [view, modify, appended]

theorem handleIncoming_flows {name : String} {result : Except TransportError Delivery}
    {rest : List (String × Except TransportError Delivery)} (arrives : s.incoming = (name, result) :: rest) :
    Flows sub settings.earlyAckedCapacity (s.view sub.id)
      (({ s with incoming := rest }.handleIncoming settings name result).view sub.id) := by
  unfold handleIncoming
  split
  · rename_i d found runtime
    obtain rfl : found.id = name := Settings.runtime_id runtime
    exact handleDelivery_flows known runtime arrives
  · rename_i d unknown
    have ne : name ≠ sub.id := fun same => by
      rw [same, known] at unknown
      cases unknown
    refine Flows.of_eq ?_
    simp [view, arrives, ofSub_cons_other _ _ ne]
  · refine Flows.trans (Flows.of_eq ?_) (dispatch_flows known)
    by_cases same : name = sub.id
    · simp [view, recordSourceError, arrives, same, List.filterMap_cons, arriving]
    · simp [view, recordSourceError, arrives, ofSub_cons_other _ _ same]

end State

end RabbitRs.Consumer
