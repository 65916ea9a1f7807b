import RabbitRs.Publisher.DelayedWrites
import RabbitRs.Recovery.Establishment

/-!
The keep-alive of the TTL delay queues (`DelayKeepAlive`, `pool/recovery_coordinator.rs`) beside the
publisher actor and the blind pump, on a broker that deletes a queue once its `x-expires` elapses
without a declaration of it.
-/

namespace RabbitRs.KeepAlive

open StepMachine
open Establishment (configured requestProfile)

structure Queue where
  spec : QueueSpec
  used : Nat

def expiry (spec : QueueSpec) : Option Nat :=
  match (queueArguments spec).lookup "x-expires" with
  | some (.longUInt ms) => some (ms.toNat * 10 ^ 6)
  | _ => none

def Queue.lives (queue : Queue) (now : Nat) : Bool :=
  (expiry queue.spec).all fun age => now < queue.used + age

/-- A running tick; `clean` is cleared by a redeclare that did not reach the broker. -/
structure Pass where
  started : Nat
  rest : List QueueSpec
  clean : Bool := true

/-- `kept` is when the last tick started that reached
the broker for every queue, `astray` the delay queues that were gone when they were written to. -/
structure System where
  actor : Publisher.State
  pump : Pump.State
  due : Nat
  clock : Nat := 0
  requested : List WorkerProfile := []
  queues : AList (fun _ : String => Queue) := ∅
  pass : Option Pass := none
  kept : Nat := 0
  astray : List String := []

namespace System

def hasQueue (s : System) (name : String) : Bool := (s.queues.lookup name).any fun queue => queue.lives s.clock

/-- A declaration is refused when a queue of the name has other arguments. -/
def accepts (s : System) (spec : QueueSpec) : Bool :=
  (s.queues.lookup spec.name).all fun queue => !queue.lives s.clock || queue.spec = spec

def declare (s : System) (spec : QueueSpec) : System :=
  { s with queues := s.queues.insert spec.name { spec, used := s.clock } }

/-- A passive declaration counts as use of the queue, if it is there. -/
def verify (s : System) (name : String) : System :=
  match s.queues.lookup name with
  | some queue =>
    if queue.lives s.clock then { s with queues := s.queues.insert name { queue with used := s.clock } } else s
  | none => s

/-- What the broker does with an entry of a publisher's log. -/
def observe (s : System) : Publisher.WireEvent → Option System
  | .declare _ (.exchange _) _ => some s
  | .declare _ (.queue spec) _ => if s.accepts spec then some (s.declare spec) else none
  | .publish _ request write =>
    -- the default exchange routes to the queue of that name
    if request.delay ≠ 0 && write.exchange = "" && !s.hasQueue write.routingKey then
      some { s with astray := write.routingKey :: s.astray }
    else some s

end System

/-- Retry destinations of the requested subscriptions, then the publish routes over the configured
ones. -/
def keepAliveDestinations (v : ValidatedConfig) (broker : String) (requested : List WorkerProfile) :
    List Destination :=
  let hosted (worker : WorkerProfile) := worker.subscriptions.filter fun sub => sub.broker = broker
  let retries := requested.flatMap fun worker =>
    (hosted ((configured v worker.name).getD worker)).map fun sub => ⟨sub.queue, sub.queue⟩
  let routed := (v.config.routes.filter fun route => route.2.broker = broker).flatMap fun route =>
    v.config.workers.flatMap fun worker => (hosted worker).map fun sub =>
      ⟨route.2.exchange, resolveRoutingKey route.2.routingKey sub.queue⟩
  routed.foldl (fun known destination => if known.contains destination then known else known ++ [destination]) retries

inductive Event where
  | advance (nanos : Nat)
  | actor (event : Publisher.Event)
  | pump (event : Pump.Event)
  | request (worker : WorkerProfile)
  | begin
  | redeclare (reached : Bool)
  | finish
  | abandon

section

variable (sha256 : Bytes → Bytes) (v : ValidatedConfig) (broker : String) (plan : TtlBucketPlan)
  (actorSettings : Publisher.Settings) (pumpSettings : Pump.Settings)

/-- `(plan.expiry_margin() / 2).max(1 ms)`. -/
def period : Nat := max (plan.expiryMargin.nanos / 2) (10 ^ 6)

def tended (requested : List WorkerProfile) : List QueueSpec :=
  (keepAliveDestinations v broker requested).flatMap fun destination =>
    plan.buckets.filterMap fun bucket => (plan.queueFor sha256 destination bucket).toOption

/-- The timer is late when it is polled more than five milliseconds after it was due, and then
counts from there (`MissedTickBehavior::Delay`). -/
def nextDue (s : System) : Nat :=
  if s.due + 5 * 10 ^ 6 < s.clock then s.clock + period plan else s.due + period plan

def step (s : System) : Event → Option System
  | .advance nanos =>
    (Publisher.step sha256 actorSettings s.actor (.tick nanos)).map fun actor =>
      { s with actor, clock := s.clock + nanos }
  | .actor (.tick _) => none
  | .actor event => do
    let actor ← Publisher.step sha256 actorSettings s.actor event
    (actor.wire.drop s.actor.wire.length).foldlM System.observe { s with actor }
  | .pump event => do
    let pump ← Pump.step sha256 pumpSettings s.pump event
    (pump.wire.drop s.pump.wire.length).foldlM System.observe { s with pump }
  | .request worker => some { s with requested := requestProfile v s.requested worker }
  | .begin =>
    match s.pass with
    | none =>
      if s.due ≤ s.clock then
        some { s with
          due := nextDue plan s
          pass := some { started := s.clock, rest := tended sha256 v broker plan s.requested } }
      else none
    | some _ => none
  | .redeclare reached =>
    match s.pass with
    | some { started, rest := spec :: rest, clean } =>
      let s := if reached then s.verify spec.name else s
      some { s with pass := some { started, rest, clean := clean && reached } }
    | _ => none
  | .finish =>
    match s.pass with
    | some { started, rest := [], clean } =>
      some { s with pass := none, kept := if clean then started else s.kept }
    | _ => none
  -- no admin channel: the rest of the tick is skipped
  | .abandon =>
    match s.pass with
    | some { started := _, rest := _ :: _, clean := _ } => some { s with pass := none }
    | _ => none

def machine : Machine System Event where
  Initial s := ∃ channel slot due, s =
    { actor := Publisher.initial actorSettings channel, pump := { slot := some slot }, due }
  step := step sha256 v broker plan actorSettings pumpSettings

end

end RabbitRs.KeepAlive
