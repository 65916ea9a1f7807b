import RabbitRs.Lib.Machine
import RabbitRs.Topology.Plan

/-!
The topology reconciler (`topology/reconciler.rs`): the operations of a plan against a channel that
may fail or be abandoned at any of them, and the marker of the plan applied for a generation.
-/

namespace RabbitRs

open StepMachine

inductive TopologyOperation where
  | declareExchange (exchange : ExchangeSpec)
  | declareQueue (queue : QueueSpec)
  | bindQueue (binding : BindingSpec)
  | verifyExchange (exchange : ExchangeSpec)
  | verifyQueue (queue : QueueSpec)
  deriving DecidableEq

/-- How an operation ends for the caller: `dropped` when the future is dropped while it is awaited. -/
inductive ChannelAnswer where
  | succeeded
  | failed (error : TransportError)
  | dropped
  deriving DecidableEq

inductive ReconcileStop where
  | failed (error : TransportError)
  | interrupted
  deriving DecidableEq

def ChannelAnswer.stop : ChannelAnswer → Option ReconcileStop
  | .succeeded => none
  | .failed error => some (.failed error)
  | .dropped => some .interrupted

structure ReconcileSession where
  issued : List TopologyOperation := []
  stop : Option ReconcileStop := none
  deriving DecidableEq

/-- One `channel.….await?`; `answers` has the answer to each operation of the call by its number. -/
def ReconcileSession.issue (answers : Nat → ChannelAnswer) (session : ReconcileSession)
    (operation : TopologyOperation) : ReconcileSession :=
  match session.stop with
  | some _ => session
  | none => { issued := session.issued ++ [operation], stop := (answers session.issued.length).stop }

def ReconcileSession.each (answers : Nat → ChannelAnswer) (session : ReconcileSession)
    (operations : List TopologyOperation) : ReconcileSession :=
  operations.foldl (issue answers) session

structure TopologyReconciler where
  applied : Option (Nat × TopologyPlan) := none

def TopologyReconciler.isApplied (reconciler : TopologyReconciler) (generation : Nat) (plan : TopologyPlan) :
    Bool :=
  match reconciler.applied with
  | some (appliedGeneration, appliedPlan) => appliedGeneration = generation && appliedPlan = plan
  | none => false

/-- A call of `reconcile`, with what the channel will answer. -/
structure ReconcileCall where
  plan : TopologyPlan
  generation : Nat
  answers : Nat → ChannelAnswer

/-- The calls on the channel of one run of `reconcile` past its first test. -/
def TopologyPlan.issue (plan : TopologyPlan) (answers : Nat → ChannelAnswer) : ReconcileSession :=
  match plan.mode with
  | .declare =>
    let session := ReconcileSession.each answers {} (plan.exchanges.map .declareExchange)
    let session := session.each answers (plan.queues.map .declareQueue)
    session.each answers (plan.bindings.map .bindQueue)
  | .verify =>
    let session := ReconcileSession.each answers {} (plan.exchanges.map .verifyExchange)
    session.each answers (plan.queues.map .verifyQueue)
  | .external => {}

def TopologyReconciler.reconcile (reconciler : TopologyReconciler) (call : ReconcileCall) :
    ReconcileSession × TopologyReconciler :=
  if reconciler.isApplied call.generation call.plan then ({}, reconciler)
  else
    let session := call.plan.issue call.answers
    match session.stop with
    | some _ => (session, reconciler)
    | none => (session, { applied := some (call.generation, call.plan) })

def reconciling : Machine TopologyReconciler ReconcileCall where
  Initial reconciler := reconciler = {}
  step reconciler call := some (reconciler.reconcile call).2

def TopologyPlan.operations (plan : TopologyPlan) : List TopologyOperation :=
  match plan.mode with
  | .declare => plan.exchanges.map .declareExchange ++ plan.queues.map .declareQueue ++
      plan.bindings.map .bindQueue
  | .verify => plan.exchanges.map .verifyExchange ++ plan.queues.map .verifyQueue
  | .external => []

/-- The operations were issued in order, all with success, or up to and with the first that was not. -/
def RunsThrough (operations : List TopologyOperation) (answers : Nat → ChannelAnswer)
    (session : ReconcileSession) : Prop :=
  (session.stop = none ∧ session.issued = operations ∧ ∀ i < operations.length, answers i = .succeeded) ∨
  ∃ k < operations.length, ∃ stop, session.stop = some stop ∧ session.issued = operations.take (k + 1) ∧
    (∀ i < k, answers i = .succeeded) ∧ (answers k).stop = some stop

section

variable {answers : Nat → ChannelAnswer}

theorem ChannelAnswer.eq_succeeded {answer : ChannelAnswer} (going : answer.stop = none) :
    answer = .succeeded := by
  cases answer with
  | succeeded => rfl
  | failed error | dropped => cases going

theorem ReconcileSession.each_stopped {session : ReconcileSession} {stop : ReconcileStop}
    (stopped : session.stop = some stop) (operations : List TopologyOperation) :
    session.each answers operations = session := by
  induction operations with
  | nil => rfl
  | cons operation rest ih =>
    have same : session.issue answers operation = session := by
      rw [issue, stopped]
    rw [each, List.foldl_cons, same]
    exact ih

/-- By induction on what is left to issue; `done` has been issued with success. -/
theorem ReconcileSession.each_runsThrough (done rest : List TopologyOperation)
    (succeeded : ∀ i < done.length, answers i = .succeeded) :
    RunsThrough (done ++ rest) answers (ReconcileSession.each answers { issued := done } rest) := by
  induction rest generalizing done with
  | nil => exact .inl ⟨rfl, (List.append_nil done).symm, by rwa [List.append_nil]⟩
  | cons operation rest ih =>
    have first : ReconcileSession.each answers { issued := done } (operation :: rest) =
        ReconcileSession.each answers
          { issued := done ++ [operation], stop := (answers done.length).stop } rest := rfl
    rw [first]
    cases answer : (answers done.length).stop with
    | none =>
      have further : ∀ i < (done ++ [operation]).length, answers i = .succeeded := by
        intro i below
        rw [List.length_append, List.length_singleton] at below
        by_cases last : i = done.length
        · rw [last]
          exact ChannelAnswer.eq_succeeded answer
        · exact succeeded i (by omega)
      have went := ih (done ++ [operation]) further
      rw [List.append_assoc] at went
      exact went
    | some stop =>
      rw [ReconcileSession.each_stopped rfl]
      refine .inr ⟨done.length, ?_, stop, rfl, ?_, succeeded, answer⟩
      · rw [List.length_append, List.length_cons]
        omega
      · rw [List.take_append, List.take_of_length_le (Nat.le_succ _), Nat.add_sub_cancel_left]
        rfl

theorem TopologyPlan.issue_eq (plan : TopologyPlan) :
    plan.issue answers = ReconcileSession.each answers {} plan.operations := by
  unfold issue operations
  split
  · simp only [ReconcileSession.each, List.foldl_append]
  · simp only [ReconcileSession.each, List.foldl_append]
  · rfl

theorem TopologyPlan.issue_runsThrough (plan : TopologyPlan) :
    RunsThrough plan.operations answers (plan.issue answers) := by
  rw [plan.issue_eq]
  exact ReconcileSession.each_runsThrough [] plan.operations fun _ below => absurd below (Nat.not_lt_zero _)

end

section

variable {reconciler : TopologyReconciler} {call : ReconcileCall}

theorem reconcile_applied (applied : reconciler.isApplied call.generation call.plan = true) :
    reconciler.reconcile call = ({}, reconciler) := if_pos applied

theorem reconcile_session (missing : reconciler.isApplied call.generation call.plan = false) :
    (reconciler.reconcile call).1 = call.plan.issue call.answers := by
  rw [TopologyReconciler.reconcile, missing, if_neg Bool.false_ne_true]
  dsimp only
  split <;> rfl

theorem isApplied_iff {generation : Nat} {plan : TopologyPlan} :
    reconciler.isApplied generation plan = true ↔ reconciler.applied = some (generation, plan) := by
  unfold TopologyReconciler.isApplied
  split
  · case h_1 known same =>
    rw [same]
    simp
  · case h_2 none =>
    rw [none]
    simp

theorem reconcile_stopped {stop : ReconcileStop} (stopped : (reconciler.reconcile call).1.stop = some stop) :
    (reconciler.reconcile call).2 = reconciler ∧ reconciler.isApplied call.generation call.plan = false := by
  cases applied : reconciler.isApplied call.generation call.plan with
  | true =>
    rw [reconcile_applied applied] at stopped
    cases stopped
  | false =>
    rw [reconcile_session applied] at stopped
    refine ⟨?_, rfl⟩
    rw [TopologyReconciler.reconcile, applied, if_neg Bool.false_ne_true]
    dsimp only
    rw [stopped]

end

def tookEffect (taken : TopologyReconciler × ReconcileCall) : Bool :=
  !taken.1.isApplied taken.2.generation taken.2.plan && (taken.1.reconcile taken.2).1.stop = none

def issuedOk (taken : TopologyReconciler × ReconcileCall) : Bool :=
  !(taken.1.reconcile taken.2).1.issued.isEmpty && (taken.1.reconcile taken.2).1.stop = none

/-- The latest call that took effect was this one, and it succeeded with every operation. -/
def AppliedBy (trace : List (TopologyReconciler × ReconcileCall)) (generation : Nat) (plan : TopologyPlan) :
    Prop :=
  ∃ before answers, trace.find? tookEffect = some (before, ⟨plan, generation, answers⟩) ∧
    (∀ i < plan.operations.length, answers i = .succeeded) ∧
    (plan.operations ≠ [] → trace.find? issuedOk = some (before, ⟨plan, generation, answers⟩))

section

variable {reconciler : TopologyReconciler} {call : ReconcileCall}
  {trace : List (TopologyReconciler × ReconcileCall)} {generation : Nat} {plan : TopologyPlan}

theorem AppliedBy.idle (applied : AppliedBy trace generation plan)
    (idle : tookEffect (reconciler, call) = false) (silent : issuedOk (reconciler, call) = false) :
    AppliedBy ((reconciler, call) :: trace) generation plan := by
  obtain ⟨before, answers, latest, succeeded, issued⟩ := applied
  refine ⟨before, answers, ?_, succeeded, fun some => ?_⟩
  · rw [List.find?_cons_of_neg (by rw [idle]; exact Bool.false_ne_true)]
    exact latest
  · rw [List.find?_cons_of_neg (by rw [silent]; exact Bool.false_ne_true)]
    exact issued some

theorem appliedBy_next (known : ∀ generation plan, reconciler.isApplied generation plan = true →
      AppliedBy trace generation plan)
    (applied : (reconciler.reconcile call).2.isApplied generation plan = true) :
    AppliedBy ((reconciler, call) :: trace) generation plan := by
  cases already : reconciler.isApplied call.generation call.plan with
  | true =>
    rw [reconcile_applied already] at applied
    refine (known generation plan applied).idle ?_ ?_
    · rw [tookEffect, already]
      rfl
    · rw [issuedOk, reconcile_applied already]
      rfl
  | false =>
    have session := reconcile_session already
    cases stopped : (reconciler.reconcile call).1.stop with
    | some stop =>
      rw [(reconcile_stopped stopped).1] at applied
      refine (known generation plan applied).idle ?_ ?_
      · rw [tookEffect, stopped, decide_eq_false (by exact nofun), Bool.and_false]
      · rw [issuedOk, stopped, decide_eq_false (by exact nofun), Bool.and_false]
    | none =>
      have marked : (reconciler.reconcile call).2.applied = some (call.generation, call.plan) := by
        rw [session] at stopped
        rw [TopologyReconciler.reconcile, already, if_neg Bool.false_ne_true]
        dsimp only
        rw [stopped]
      rw [isApplied_iff, marked] at applied
      obtain ⟨rfl, rfl⟩ := Prod.mk.inj (Option.some.inj applied)
      have ran := @TopologyPlan.issue_runsThrough call.answers call.plan
      rw [← session] at ran
      rcases ran with ⟨-, issued, succeeded⟩ | ⟨_, _, stop, failed, _⟩
      · refine ⟨reconciler, call.answers, ?_, succeeded, fun some => ?_⟩
        · refine List.find?_cons_of_pos ?_
          rw [tookEffect, already, stopped]
          rfl
        · refine List.find?_cons_of_pos ?_
          rw [issuedOk, issued, stopped, List.isEmpty_eq_false_iff.mpr some]
          rfl
      · rw [stopped] at failed
        cases failed

/-- In every sequence of calls: a call for a pair that is applied issues nothing, any other call issues
the operations of its plan in order up to the first that fails; what counts as applied was run to
its end by the latest call that was, which is the latest `Ok` after operations unless the plan has
none; and a call that stopped early changes nothing, so its retry starts the plan again. -/
theorem applied_plans_ran_through (traced : Traced reconciling (fun _ _ => True) trace reconciler) :
    (∀ before call, (before, call) ∈ trace →
      if before.isApplied call.generation call.plan then (before.reconcile call).1 = {}
      else RunsThrough call.plan.operations call.answers (before.reconcile call).1) ∧
    (∀ generation plan, reconciler.isApplied generation plan = true → AppliedBy trace generation plan) ∧
    ∀ before call stop, (before, call) ∈ trace → (before.reconcile call).1.stop = some stop →
      (before.reconcile call).2 = before ∧ before.isApplied call.generation call.plan = false ∧
      ∀ answers, RunsThrough call.plan.operations answers
        ((before.reconcile call).2.reconcile { call with answers }).1 := by
  refine ⟨fun before call _ => ?_, ?_, ?_⟩
  · split
    · case isTrue applied => rw [reconcile_applied applied]
    · case isFalse missing =>
      rw [reconcile_session (Bool.eq_false_of_not_eq_true missing)]
      exact call.plan.issue_runsThrough
  · induction traced with
    | start fresh =>
      obtain rfl := fresh
      exact fun _ _ applied => absurd applied Bool.false_ne_true
    | next _ _ next ih =>
      cases next
      exact fun generation plan applied => appliedBy_next ih applied
  · intro before call stop _ stopped
    obtain ⟨same, missing⟩ := reconcile_stopped stopped
    refine ⟨same, missing, fun answers => ?_⟩
    rw [same, @reconcile_session before { call with answers } missing]
    exact call.plan.issue_runsThrough

end

def ordersSpec : QueueSpec where
  name := "orders"
  durable := true
  exclusive := false
  autoDelete := false
  kind := .quorum
  deadLetterExchange := none
  deadLetterRoutingKey := none
  messageTtl := none
  expires := none
  deliveryLimit := none
  arguments := []

def ordersTopology : TopologyPlan where
  mode := .declare
  exchanges := [directExchangeSpec "orders"]
  queues := [ordersSpec]
  bindings := [⟨"orders", "orders", "orders"⟩]

def refusedQueue : ChannelAnswer := .failed { kind := .protocol, message := "PRECONDITION_FAILED" }

def ordersCalls : List ReconcileCall := [
  ⟨ordersTopology, 1, fun n => if n = 1 then refusedQueue else .succeeded⟩,
  ⟨ordersTopology, 1, fun _ => .succeeded⟩,
  ⟨ordersTopology, 1, fun _ => .dropped⟩]

theorem orders_applied_by_retry : ∃ trace reconciler, Traced reconciling (fun _ _ => True) trace reconciler ∧
    trace.length = 3 ∧ reconciler.isApplied 1 ordersTopology = true ∧ AppliedBy trace 1 ordersTopology := by
  obtain ⟨trace, reconciler, traced, calls, applied⟩ := exists_traced reconciling (fun _ _ => True) rfl ordersCalls
    (fun trace reconciler => trace.length = 3 ∧ reconciler.isApplied 1 ordersTopology = true) (by decide +kernel)
  exact ⟨trace, reconciler, traced, calls, applied, (applied_plans_ran_through traced).2.1 1 ordersTopology applied⟩

def externalTopology : TopologyPlan := { ordersTopology with mode := .external }

/-- A plan without operations counts as applied, and the latest `Ok` after operations was another's. -/
theorem external_plan_applied_silently : ∃ trace reconciler,
    Traced reconciling (fun _ _ => True) trace reconciler ∧
    reconciler.isApplied 2 externalTopology = true ∧
    ∃ before call, trace.find? issuedOk = some (before, call) ∧ call.generation = 1 ∧
      call.plan ≠ externalTopology := by
  obtain ⟨trace, reconciler, traced, applied, ⟨before, call⟩, latest, holds⟩ :=
    exists_traced reconciling (fun _ _ => True) rfl
      [⟨ordersTopology, 1, fun _ => .succeeded⟩, ⟨externalTopology, 2, fun _ => .succeeded⟩]
      (fun trace reconciler => reconciler.isApplied 2 externalTopology = true ∧
        ∃ taken, trace.find? issuedOk = some taken ∧ taken.2.generation = 1 ∧ taken.2.plan ≠ externalTopology)
      (by decide +kernel)
  exact ⟨trace, reconciler, traced, applied, before, call, latest, holds⟩

end RabbitRs
