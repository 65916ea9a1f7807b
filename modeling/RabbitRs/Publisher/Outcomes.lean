import RabbitRs.Publisher.Correlation

/-!
The outcomes of whole runs. While sequences last, a waiter hears of its own publication only; once
they have run out, publications are filed under one sequence and confirmations cross.
-/

namespace RabbitRs.Publisher

open StepMachine Keyed

def acceptedRequests : List (State × Event) → List PublishRequest
  | [] => []
  | (_, .publish request) :: earlier => acceptedRequests earlier ++ [request]
  | _ :: earlier => acceptedRequests earlier

def Requests (trace : List (State × Event)) (ticket : Nat) (request : PublishRequest) : Prop :=
  ∃ original, (acceptedRequests trace)[ticket]? = some original ∧
    request = { original with deadline := request.deadline }

/-- The request was written for the attempt by a step of the trace; in every state since the
attempt is outstanding and the actor is not suspended. -/
def Issued (a : Attempt) (request : PublishRequest) : List (State × Event) → State → Prop
  | [], _ => False
  | (before, _) :: earlier, now => a ∈ now.attempts ∧ now.phase ≠ .suspended ∧
      ((∃ more write, now.wire = before.wire ++ more ∧ .publish a.channel request write ∈ more) ∨
        Issued a request earlier before)

def Answers (result : ConfirmationResult) (messageId : String) : PublishOutcome → Prop
  | .confirmed id => id = messageId ∧ result = .completed (.ok (.ack none))
  | .returned id reply => id = messageId ∧ (result = .completed (.ok (.ack (some reply))) ∨
      result = .completed (.ok (.nack (some reply))))

/-- The outcome came from a confirmation of a write of the ticket's own publication. -/
def ConfirmedBy (trace : List (State × Event)) (ticket : Nat) (outcome : PublishOutcome) : Prop :=
  ∃ later s index result earlier confirmation request,
    trace = later ++ (s, .confirmed index result) :: earlier ∧
    s.confirmations[index]? = some confirmation ∧ confirmation.ticket = ticket ∧
    Requests trace ticket request ∧ Issued confirmation.attempt request earlier s ∧
    Answers result request.properties.messageId outcome

/-- Fewer wire attempts so far than sequences there are. -/
def Numbered (s : State) (_ : Event) : Prop := s.sequence < 2 ^ 64 - 1

theorem acceptedRequests_cons (s : State) (event : Event) (trace : List (State × Event)) :
    ∃ more, acceptedRequests ((s, event) :: trace) = acceptedRequests trace ++ more := by
  cases event with
  | publish request => exact ⟨[request], rfl⟩
  | _ => exact ⟨[], (List.append_nil _).symm⟩

theorem Requests.cons {trace : List (State × Event)} {ticket : Nat} {request : PublishRequest}
    (requests : Requests trace ticket request) (s : State) (event : Event) :
    Requests ((s, event) :: trace) ticket request := by
  obtain ⟨original, found, same⟩ := requests
  obtain ⟨more, grown⟩ := acceptedRequests_cons s event trace
  refine ⟨original, ?_, same⟩
  rw [grown, List.getElem?_append_left (List.getElem?_eq_some_iff.mp found).1]
  exact found

theorem ConfirmedBy.cons {trace : List (State × Event)} {ticket : Nat} {outcome : PublishOutcome}
    (confirmed : ConfirmedBy trace ticket outcome) (s : State) (event : Event) :
    ConfirmedBy ((s, event) :: trace) ticket outcome := by
  obtain ⟨later, u, index, result, earlier, confirmation, request, rfl, found, own, requests, rest⟩ :=
    confirmed
  exact ⟨(s, event) :: later, u, index, result, earlier, confirmation, request, rfl, found, own,
    requests.cons s event, rest⟩

def factsOf (trace : List (State × Event)) (Known : Attempt → Prop) : Facts where
  Own r := Requests trace r.ticket r.request
  Just p := ∀ outcome, p.2 = .ok outcome → ConfirmedBy trace p.1 outcome
  Known := Known
  own_continues := by
    rintro r r' ⟨original, found, same⟩ ⟨ticket, request⟩
    refine ⟨original, ticket ▸ found, ?_⟩
    rw [request, same]
  just_error := by
    intro ticket error outcome same
    cases same

def KnownAt (trace : List (State × Event)) (s : State) (a : Attempt) : Prop :=
  ∃ request, Requests trace a.ticket request ∧ Issued a request trace s

theorem confirmationOutcome_answers {retained : RetainedPublish} {result : ConfirmationResult}
    {outcome : PublishOutcome} (same : confirmationOutcome retained result = .ok outcome) :
    Answers result retained.request.properties.messageId outcome := by
  unfold confirmationOutcome at same
  split at same
  case h_3 reply =>
    obtain rfl := Except.ok.inj same
    exact ⟨rfl, .inl rfl⟩
  case h_4 reply =>
    obtain rfl := Except.ok.inj same
    exact ⟨rfl, .inr rfl⟩
  case h_5 =>
    obtain rfl := Except.ok.inj same
    exact ⟨rfl, rfl⟩
  all_goals cases same

section

variable {sha256 : Bytes → Bytes} {settings : Settings} {s t : State} {event : Event}
  {trace : List (State × Event)}

theorem step_accepted (next : step sha256 settings s event = some t)
    (counted : s.accepted = (acceptedRequests trace).length) :
    t.accepted = (acceptedRequests ((s, event) :: trace)).length := by
  by_cases publishes : ∃ request, event = .publish request
  · obtain ⟨request, rfl⟩ := publishes
    cases step_turns next
    simp [acceptedRequests, counted]
  · have moved := (step_turns next).moves (fun request same => publishes ⟨request, same⟩) 0
    have same : acceptedRequests ((s, event) :: trace) = acceptedRequests trace := by
      cases event with
      | publish request => exact absurd ⟨request, rfl⟩ publishes
      | _ => rfl
    rw [moved.1, counted, same]

theorem confirmed_own {index : Nat} {result : ConfirmationResult} {confirmation : PendingConfirmation}
    {entry : InFlightPublish} (correlated : Correlated (factsOf trace (KnownAt trace s)) s)
    (found : s.confirmations[index]? = some confirmation)
    (filed : s.ledger.lookup confirmation.sequence = some entry) {outcome : PublishOutcome}
    (said : confirmationOutcome entry.retained result = .ok outcome) :
    ConfirmedBy ((s, .confirmed index result) :: trace) entry.retained.ticket outcome := by
  have member : confirmation ∈ s.confirmations := List.mem_of_getElem? found
  have ticket := correlated.filed.confirms confirmation member entry filed
  obtain ⟨request, requests, issued⟩ := correlated.filed.known confirmation.attempt
    (List.mem_append_right _ (List.mem_map_of_mem member))
  have answers := confirmationOutcome_answers said
  have named : entry.retained.request.properties.messageId = request.properties.messageId := by
    obtain ⟨original, accepted, same⟩ := correlated.filed.ledger filed
    obtain ⟨original', accepted', same'⟩ := requests
    have one : original = original' := by
      refine Option.some.inj (accepted.symm.trans ?_)
      rw [ticket]
      exact accepted'
    rw [same, same', one]
  rw [named] at answers
  refine ⟨[], s, index, result, trace, confirmation, request, rfl, found, ticket.symm, ?_, issued,
    answers⟩
  rw [ticket]
  exact requests.cons s _

theorem traced_correlated (confirms : settings.config.enablesConfirms = true)
    (traced : Traced (machine sha256 settings) Numbered trace s) :
    s.accepted = (acceptedRequests trace).length ∧ Correlated (factsOf trace (KnownAt trace s)) s := by
  induction traced with
  | start initial =>
    obtain ⟨channel, rfl⟩ := initial
    refine ⟨rfl, ⟨?_, ?_, ?_⟩⟩
    · constructor <;> simp [initial, State.attempts]
    · unfold initial
      split <;> exact own_nil
    · unfold initial
      split <;> exact fun declares => Bool.noConfusion declares
  | @next trace s t event traced room next ih =>
    obtain ⟨counted, correlated⟩ := ih
    refine ⟨step_accepted next counted, ?_⟩
    -- during the step an attempt is known from the state before, or because it is written
    have before : Correlated (factsOf ((s, event) :: trace) fun a => a ∈ s.attempts ∨
        ∃ request more write, Requests ((s, event) :: trace) a.ticket request ∧
          t.wire = s.wire ++ more ∧ WireEvent.publish a.channel request write ∈ more) s :=
      correlated.mono (fun r own => Requests.cons own s event)
        (fun p just outcome ok => (just outcome ok).cons s event) fun a member => .inl member
    have after := (step_turns next).correlated confirms room before ?extends_
    case extends_ =>
      refine ⟨?_, ?_, ?_⟩
      · rintro r rfl ticket
        refine ⟨r.request, ?_, rfl⟩
        rw [ticket, counted]
        simp [acceptedRequests]
      · intro a r more write own ticket wire written
        exact .inr ⟨r.request, more, write, ticket ▸ own, wire, written⟩
      · rintro index result confirmation entry rfl found filed outcome said
        exact confirmed_own correlated found filed said
    refine after.mono (fun r own => own) (fun p just => just) fun a member => ?_
    have awake : t.phase ≠ .suspended := by
      intro same
      rw [(after.filed.suspended same).2] at member
      exact (List.not_mem_nil member).elim
    rcases after.filed.known a member with outstanding | ⟨request, more, write, requests, wire, written⟩
    · obtain ⟨request, requests, issued⟩ := correlated.filed.known a outstanding
      exact ⟨request, requests.cons s event, member, awake, .inr issued⟩
    · exact ⟨request, requests, member, awake, .inl ⟨more, write, wire, written⟩⟩

/-- While sequences last: a waiter is told Confirmed or Returned only by a confirmation of a write
of its own publication that no suspension discarded, and every confirmation the transport delivers
is of such a write and resolves no other waiter. -/
theorem waiters_resolved_by_own_confirmation (confirms : settings.config.enablesConfirms = true)
    (traced : Traced (machine sha256 settings) Numbered trace s) :
    (∀ ticket outcome, (ticket, .ok outcome) ∈ s.resolved → ConfirmedBy trace ticket outcome) ∧
      ∀ index result t, step sha256 settings s (.confirmed index result) = some t →
        ∃ confirmation request, s.confirmations[index]? = some confirmation ∧
          Requests trace confirmation.ticket request ∧
          Issued confirmation.attempt request trace s ∧
          ∀ p ∈ t.resolved, p ∈ s.resolved ∨ p.1 = confirmation.ticket := by
  have filed := (traced_correlated confirms traced).2.filed
  refine ⟨fun ticket outcome resolved => filed.resolved _ resolved outcome rfl, ?_⟩
  intro index result t next
  have known (confirmation : PendingConfirmation) (found : s.confirmations[index]? = some confirmation) :
      ∃ request, Requests trace confirmation.ticket request ∧ Issued confirmation.attempt request trace s :=
    filed.known confirmation.attempt
      (List.mem_append_right _ (List.mem_map_of_mem (List.mem_of_getElem? found)))
  cases step_turns next with
  | @stale _ confirmation _ found _ _ | @loses _ confirmation _ entry found _ _ _ _ =>
    obtain ⟨request, requests, issued⟩ := known confirmation found
    exact ⟨confirmation, request, found, requests, issued, fun p member => .inl member⟩
  | @confirms _ confirmation _ entry found _ filedAs _ _ =>
    obtain ⟨request, requests, issued⟩ := known confirmation found
    refine ⟨confirmation, request, found, requests, issued, fun p member => ?_⟩
    rcases List.mem_append.mp member with before | sent
    · exact .inl before
    · obtain rfl := List.mem_singleton.mp sent
      exact .inr (filed.confirms confirmation (List.mem_of_getElem? found) entry filedAs)

end

def isConfirmed (ticket : Nat) (messageId : String) : Nat × Outcome → Bool
  | (n, .ok (.confirmed id)) => n == ticket && id == messageId
  | _ => false

theorem isConfirmed_eq {ticket : Nat} {messageId : String} {p : Nat × Outcome}
    (same : isConfirmed ticket messageId p = true) : p = (ticket, .ok (.confirmed messageId)) := by
  unfold isConfirmed at same
  split at same
  · simp only [Bool.and_eq_true, beq_iff_eq] at same
    rw [same.1, same.2]
  · cases same

def noDigest : Bytes → Bytes := fun _ => List.replicate 32 0

def confirming : Machine State Event := machine noDigest safeSettings

def firstChannel : Channel := { opened := 1, id := 0 }

/-- The order whose first write was lost is confirmed for its second one. -/
theorem replayed_order_confirmedBy : ∃ trace s, Traced confirming Numbered trace s ∧
    (0, .ok (.confirmed "order-1")) ∈ s.resolved ∧ ConfirmedBy trace 0 (.confirmed "order-1") := by
  obtain ⟨trace, s, traced, told⟩ := exists_traced confirming (fun s _ => s.sequence < 2 ^ 64 - 1) ⟨firstChannel, rfl⟩
    orderReplayed (fun _ s => s.resolved.any (isConfirmed 0 "order-1") = true) (by decide +kernel)
  obtain ⟨p, member, confirmed⟩ := List.any_eq_true.mp told
  rw [isConfirmed_eq confirmed] at member
  have own := waiters_resolved_by_own_confirmation rfl traced
  exact ⟨trace, s, traced, member, own.1 0 (.confirmed "order-1") member⟩

def undeliverable : PublishRequest :=
  { order with properties := { messageId := "order-0", delayMs := some 1 } }

def lastSequence : Nat := 2 ^ 64 - 1

def worn (sequence accepted : Nat) (resolved : List (Nat × Outcome)) : State :=
  { initial safeSettings firstChannel with mode := .idle, sequence, accepted, resolved }

theorem wear (n a : Nat) (resolved : List (Nat × Outcome)) (before : List (State × Event)) :
    ∃ after error, trace confirming (fun _ _ => true) before (worn n a resolved)
      [.publish undeliverable, .receive, .proceed .pending, .proceed .pending] =
        some (after, worn (min (n + 1) lastSequence) (a + 1) (resolved ++ [(a, .error error)])) ∧
      after.map Prod.snd = [.proceed .pending, .proceed .pending, .receive, .publish undeliverable] ++
        before.map Prod.snd :=
  ⟨_, _, rfl, rfl⟩

theorem worn_traced (n : Nat) : ∃ trace resolved,
    Traced confirming (fun _ _ => True) trace (worn (min n lastSequence) n resolved) ∧
      ∀ index result, Event.confirmed index result ∉ trace.map Prod.snd := by
  induction n with
  | zero =>
    have started : Traced confirming (fun _ _ => True) [] (initial safeSettings firstChannel) :=
      .start ⟨firstChannel, rfl⟩
    have ready := started.next (e := .confirmsEnabled (.ok ())) trivial
      (rfl : confirming.step _ _ = some (worn 0 0 []))
    exact ⟨_, _, ready, by simp⟩
  | succ n ih =>
    obtain ⟨trace, resolved, traced, quiet⟩ := ih
    obtain ⟨after, error, ran, events⟩ := wear (min n lastSequence) n resolved trace
    have next : min (min n lastSequence + 1) lastSequence = min (n + 1) lastSequence := by omega
    rw [next] at ran
    refine ⟨after, _, traced_of_trace (fun _ _ _ => trivial) traced ran, ?_⟩
    intro index result
    rw [events]
    simpa using quiet index result

structure Spent (s : State) (pending : List RetainedPublish) (tickets : List Nat) : Prop where
  mode : s.mode = .draining pending 0 (.deferred none)
  clock : s.clock = 0
  phase : s.phase = .ready
  channel : s.channel = some firstChannel
  sequence : s.sequence = lastSequence
  generation : s.generation = 1
  declaredTopology : s.declaredTopology = []
  confirmations : s.confirmations.map (fun c => (c.sequence, c.generation, c.ticket)) =
    tickets.map fun ticket => (lastSequence, 1, ticket)

def orderItem (ticket : Nat) : RetainedPublish := { ticket, request := order, timeout := order.deadline }

theorem batch_spent (a : Nat) (resolved : List (Nat × Outcome)) (before : List (State × Event)) :
    ∃ after s, trace confirming (fun _ _ => true) before (worn lastSequence a resolved)
      [.publish order, .publish order, .receive] = some (after, s) ∧
      after.map Prod.snd = [.receive, .publish order, .publish order] ++ before.map Prod.snd ∧
      Spent s [orderItem a, orderItem (a + 1)] [] :=
  ⟨_, _, rfl, rfl, rfl, rfl, rfl, rfl, rfl, rfl, rfl, rfl⟩

theorem Spent.write {s : State} {ticket : Nat} {rest : List RetainedPublish} {tickets : List Nat}
    (spent : Spent s (orderItem ticket :: rest) tickets) :
    ∃ t, confirming.step s (.proceed (.completed (.ok ()))) = some t ∧ Spent t rest (tickets ++ [ticket]) ∧
      ∃ entry, t.ledger.lookup lastSequence = some entry ∧ entry.generation = 1 ∧
        entry.retained.ticket = ticket ∧ entry.retained.request = order := by
  have next : min (s.sequence + 1) (2 ^ 64 - 1) = lastSequence := by
    rw [spent.sequence]
    rfl
  have routed : routeTransportRequest noDigest order none true =
      .ok (transportPublish order "" "orders" none true) := rfl
  refine ⟨attemptWrite noDigest safeSettings s (orderItem ticket) firstChannel rest (.deferred none)
    (.completed (.ok ())), ?_, ?_⟩
  · have live : overdue 0 (orderItem ticket) = false := rfl
    simp only [confirming, machine, step, spent.mode, drainNext, live, spent.channel]
    rfl
  · unfold attemptWrite
    simp only [next, orderItem, show safeSettings.delayStrategy = none from rfl,
      show safeSettings.config.mandatoryFlag = true from rfl, routed]
    unfold pollWrite handlePublishCompletion State.insertPublishing
    simp only [State.resolveAll, AList.lookup_insert, State.insertLedger,
      show safeSettings.config.enablesConfirms = true from rfl, if_true, spent.phase, reduceCtorEq,
      if_false]
    refine ⟨⟨?_, spent.clock, rfl, spent.channel, rfl, spent.generation, spent.declaredTopology, ?_⟩,
      _, rfl, spent.generation, rfl, rfl⟩
    · rw [spent.clock]
    · simp only [List.map_append, spent.confirmations, spent.generation]
      rfl

theorem Spent.confirm {s : State} {a b : Nat} {entry : InFlightPublish} (spent : Spent s [] [a, b])
    (filed : s.ledger.lookup lastSequence = some entry) (generation : entry.generation = 1)
    (ticket : entry.retained.ticket = b) (request : entry.retained.request = order) :
    ∃ idle t confirmation, confirming.step s (.proceed .pending) = some idle ∧
      confirming.step idle (.confirmed 0 (.completed (.ok (.ack none)))) = some t ∧
      idle.confirmations[0]? = some confirmation ∧ confirmation.ticket = a ∧
      (b, .ok (.confirmed "order-1")) ∈ t.resolved := by
  obtain ⟨first, rest, same⟩ : ∃ first rest, s.confirmations = first :: rest := by
    cases same : s.confirmations with
    | nil => simpa [same] using spent.confirmations
    | cons first rest => exact ⟨first, rest, rfl⟩
  have known := spent.confirmations
  simp only [same, List.map_cons, List.cons.injEq, Prod.mk.injEq] at known
  obtain ⟨⟨sequence, own, first_⟩, _⟩ := known
  refine ⟨{ s with mode := .idle }, resolveConfirmation
    { s with mode := .idle, confirmations := s.confirmations.eraseIdx 0 } first
      (.completed (.ok (.ack none))), first, ?_, ?_, ?_, first_, ?_⟩
  · simp only [confirming, machine, step, spent.mode]
    rfl
  · simp only [confirming, machine, step, same]
    rfl
  · rw [same]
    rfl
  · have found : s.ledger.lookup first.sequence = some entry := by
      rw [sequence]
      exact filed
    simp only [resolveConfirmation, found, generation, own, ne_eq, not_true_eq_false, if_false,
      ConfirmationResult.recoverable, Bool.false_eq_true]
    refine List.mem_append_right _ ?_
    simp [confirmationOutcome, confirmedOutcome, ticket, request, order]

/-- After the last sequence the confirmation of one publication resolves the waiter of another. -/
theorem exhausted_sequence_crosses : ∃ trace s ticket outcome,
    Traced confirming (fun _ _ => True) trace s ∧ (ticket, .ok outcome) ∈ s.resolved ∧
      ¬ ConfirmedBy trace ticket outcome := by
  obtain ⟨trace, resolved, traced, quiet⟩ := worn_traced lastSequence
  rw [Nat.min_self] at traced
  obtain ⟨after, s, ran, events, spent⟩ := batch_spent lastSequence resolved trace
  have batched := traced_of_trace (fun _ _ _ => trivial) traced ran
  obtain ⟨s₁, first, spent₁, _⟩ := spent.write
  obtain ⟨s₂, second, spent₂, entry, filed, generation, ticket, request⟩ := spent₁.write
  obtain ⟨idle, t, confirmation, waits, confirmed, found, own, told⟩ :=
    Spent.confirm spent₂ filed generation ticket request
  have ends := (((batched.next trivial first).next trivial second).next trivial waits).next trivial
    confirmed
  refine ⟨_, t, lastSequence + 1, _, ends, told, ?_⟩
  rintro ⟨later, u, index, result, earlier, delivered, request, split, at_, delivers, _⟩
  cases later with
  | nil =>
    obtain ⟨head, rfl⟩ := List.cons.inj split
    obtain ⟨rfl, same⟩ := Prod.mk.inj head
    cases same
    obtain rfl := Option.some.inj (found.symm.trans at_)
    rw [own] at delivers
    exact absurd delivers (Nat.succ_ne_self _).symm
  | cons head later =>
    have member : Event.confirmed index result ∈
        [.proceed .pending, .proceed (.completed (.ok ())), .proceed (.completed (.ok ()))] ++
          after.map Prod.snd := by
      have tail := (List.cons.inj split).2
      have events := congrArg (List.map Prod.snd) tail
      simp only [List.map_cons] at events
      rw [List.cons_append, List.cons_append, List.cons_append, List.nil_append, events]
      simp
    rw [events] at member
    simp only [List.cons_append, List.nil_append, List.mem_cons, reduceCtorEq, false_or] at member
    exact quiet index result member
end RabbitRs.Publisher
