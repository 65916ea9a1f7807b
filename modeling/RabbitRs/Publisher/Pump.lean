import RabbitRs.Lib.Machine
import RabbitRs.Publisher.Wire

/-!
The blind publish pump (`publisher/pump.rs`): a bounded intake queue, one task that routes each job
and pipelines its write, and a channel slot that recovery swaps under it. The task awaits only
declarations and barriers.
-/

namespace RabbitRs.Pump

open StepMachine History Publisher

structure Settings where
  bufferCapacity : Nat
  maxBufferedBytes : Nat
  delayStrategy : Option DelayStrategy

def Settings.inflightCap (settings : Settings) : Nat :=
  max (min (settings.bufferCapacity * 2) (2 ^ 64 - 1)) 128

/-- A job without a request is a flush barrier. -/
inductive Job where
  | publish (request : PublishRequest)
  | barrier (waiter : Nat)

/-- A publish future; the write happens when it is first polled. -/
structure InFlight where
  channel : Channel
  request : PublishRequest
  write : TransportPublish
  written : Bool := false

inductive Mode where
  | idle
  | declaring (request : PublishRequest) (channel : Channel) (declaration : Declaration)
      (write : TransportPublish)
  | flushing (waiter : Nat)
  | draining
  | stopped

def Mode.declares : Mode → Bool
  | .declaring _ _ _ _ => true
  | _ => false

/-- `waiting` are the senders that reserved their bytes and wait for room in the queue. -/
structure State where
  slot : Option Channel
  waiting : List PublishRequest := []
  queue : List Job := []
  handlesOpen : Bool := true
  budget : Nat := 0
  mode : Mode := .idle
  inflight : List InFlight := []
  declaredTopology : List String := []
  flushed : List Nat := []
  wire : List WireEvent := []

def State.release (s : State) (request : PublishRequest) : State :=
  { s with budget := s.budget - request.payload.length }

inductive Event where
  | reserve (request : PublishRequest)
  | enqueue (index : Nat)
  | flush (waiter : Nat)
  | setChannel (channel : Option Channel)
  | dropHandles
  | receive
  | declared (result : Except TransportError Unit)
  | poll (index : Nat)
  | complete (index : Nat)
  | drained

section

variable (sha256 : Bytes → Bytes) (settings : Settings)

def State.push (s : State) (channel : Channel) (request : PublishRequest) (write : TransportPublish) : State :=
  { s with mode := .idle, inflight := s.inflight ++ [{ channel, request, write }] }

/-- A job without a channel or a route is dropped, and its reservation with it. -/
def takeJob (s : State) (request : PublishRequest) : State :=
  match s.slot with
  | none => s.release request
  | some channel =>
    match routeTransportRequest sha256 request settings.delayStrategy false with
    | .error _ => s.release request
    | .ok write =>
      match ensureDelayTopology sha256 settings.delayStrategy request s.declaredTopology with
      | .error _ => s.release request
      | .ok none => s.push channel request write
      | .ok (some declaration) => { s with mode := .declaring request channel declaration write }

def receiveNext (s : State) : Option State :=
  match s.queue with
  | [] => if s.handlesOpen then none else some { s with mode := .draining }
  | .publish request :: rest => some (takeJob sha256 settings { s with queue := rest } request)
  | .barrier waiter :: rest => some { s with queue := rest, mode := .flushing waiter }

def State.polls (s : State) : Bool :=
  match s.mode with
  | .idle | .flushing _ | .draining => true
  | .declaring _ _ _ _ | .stopped => false

@[simp] def step (s : State) : Event → Option State
  | .reserve request =>
    if s.handlesOpen && s.budget + request.payload.length ≤ settings.maxBufferedBytes then
      some { s with
        waiting := s.waiting ++ [request]
        budget := s.budget + request.payload.length }
    else none
  | .enqueue index =>
    s.waiting[index]?.bind fun request =>
      if s.queue.length < max settings.bufferCapacity 1 then
        some { s with
          waiting := s.waiting.eraseIdx index
          queue := s.queue ++ [.publish request] }
      else none
  | .flush waiter =>
    if s.handlesOpen && s.queue.length < max settings.bufferCapacity 1 then
      some { s with queue := s.queue ++ [.barrier waiter] }
    else none
  | .setChannel channel => if s.handlesOpen then some { s with slot := channel } else none
  -- a waiting sender borrows its handle
  | .dropHandles =>
    if s.handlesOpen && s.waiting.isEmpty then some { s with handlesOpen := false } else none
  | .receive =>
    match s.mode with
    | .idle =>
      if s.inflight.length < settings.inflightCap then receiveNext sha256 settings s else none
    | _ => none
  | .declared result =>
    match s.mode with
    | .declaring request channel declaration write =>
      match result with
      | .error _ => some { s.release request with mode := .idle }
      | .ok () =>
        let s : State := { s with
          declaredTopology := declaration.name :: s.declaredTopology
          wire := s.wire ++ [.declare channel declaration request] }
        some (s.push channel request write)
    | _ => none
  | .poll index =>
    s.inflight[index]?.bind fun future =>
      if s.polls && !future.written then
        some { s with
          inflight := s.inflight.set index { future with written := true }
          wire := s.wire ++ [.publish future.channel future.request future.write] }
      else none
  | .complete index =>
    s.inflight[index]?.bind fun future =>
      if s.polls && future.written then
        some { s.release future.request with inflight := s.inflight.eraseIdx index }
      else none
  | .drained =>
    if s.inflight.isEmpty then
      match s.mode with
      | .flushing waiter => some { s with mode := .idle, flushed := s.flushed ++ [waiter] }
      | .draining => some { s with mode := .stopped }
      | _ => none
    else none

def machine : Machine State Event where
  Initial s := ∃ channel, s = { slot := some channel }
  step := step sha256 settings

end

section

variable {sha256 : Bytes → Bytes} {settings : Settings} {s t : State}

/-- A future will write what its request was routed to, through declared infrastructure. -/
def InFlight.ready (sha256 : Bytes → Bytes) (settings : Settings) (declared : List String)
    (future : InFlight) : Prop :=
  routeTransportRequest sha256 future.request settings.delayStrategy false = .ok future.write ∧
    Prepared sha256 settings.delayStrategy declared future.request

structure HonestPump (sha256 : Bytes → Bytes) (settings : Settings) (s : State) : Prop where
  mirrored : Mirrored sha256 settings.delayStrategy s.declaredTopology s.wire
  ready : ∀ future ∈ s.inflight, future.ready sha256 settings s.declaredTopology
  declaring : ∀ request channel declaration write,
    s.mode = .declaring request channel declaration write →
    routeTransportRequest sha256 request settings.delayStrategy false = .ok write ∧
      ensureDelayTopology sha256 settings.delayStrategy request s.declaredTopology = .ok (some declaration)

theorem HonestPump.quiet (known : HonestPump sha256 settings s)
    (quiet : t.mode.declares = false)
    (wire : t.wire = s.wire) (declared : t.declaredTopology = s.declaredTopology)
    (inflight : ∀ future ∈ t.inflight, future ∈ s.inflight) : HonestPump sha256 settings t := by
  refine ⟨?_, ?_, ?_⟩
  · rw [declared, wire]
    exact known.mirrored
  · intro future member
    rw [declared]
    exact known.ready future (inflight future member)
  · intro request channel declaration write mode
    rw [mode] at quiet
    cases quiet

theorem HonestPump.handle (known : HonestPump sha256 settings s) (mode : t.mode = s.mode)
    (wire : t.wire = s.wire) (declared : t.declaredTopology = s.declaredTopology)
    (inflight : t.inflight = s.inflight) : HonestPump sha256 settings t := by
  refine ⟨?_, ?_, ?_⟩
  · rw [declared, wire]
    exact known.mirrored
  · rw [declared, inflight]
    exact known.ready
  · intro request channel declaration write declaring
    rw [declared]
    exact known.declaring request channel declaration write (mode.symm.trans declaring)

theorem push_honest {channel : Channel} {request : PublishRequest} {write : TransportPublish}
    (mirrored : Mirrored sha256 settings.delayStrategy s.declaredTopology s.wire)
    (ready : ∀ future ∈ s.inflight, future.ready sha256 settings s.declaredTopology)
    (routed : routeTransportRequest sha256 request settings.delayStrategy false = .ok write)
    (prepared : Prepared sha256 settings.delayStrategy s.declaredTopology request) :
    HonestPump sha256 settings (s.push channel request write) := by
  refine ⟨mirrored, ?_, fun _ _ _ _ mode => Mode.noConfusion mode⟩
  intro future member
  rcases List.mem_append.mp member with old | new
  · exact ready future old
  · obtain rfl := List.mem_singleton.mp new
    exact ⟨routed, prepared⟩

theorem takeJob_honest {request : PublishRequest} (known : HonestPump sha256 settings s) :
    HonestPump sha256 settings (takeJob sha256 settings s request) := by
  have dropped : HonestPump sha256 settings (s.release request) := known.handle rfl rfl rfl rfl
  unfold takeJob
  split
  · exact dropped
  case h_2 channel _ =>
    split
    · exact dropped
    case h_2 write routed =>
      split
      case h_1 => exact dropped
      case h_2 ready => exact push_honest known.mirrored known.ready routed (prepared_of_ensured ready)
      case h_3 declaration missing =>
        refine ⟨known.mirrored, known.ready, ?_⟩
        rintro _ _ _ _ mode
        obtain ⟨rfl, rfl, rfl, rfl⟩ := Mode.declaring.inj mode
        exact ⟨routed, missing⟩

theorem receive_honest (next : step sha256 settings s .receive = some t)
    (known : HonestPump sha256 settings s) : HonestPump sha256 settings t := by
  simp only [step] at next
  split at next
  case h_2 => cases next
  case h_1 idle =>
    split at next
    case isFalse => cases next
    unfold receiveNext at next
    split at next
    · split at next
      · cases next
      · cases next
        exact known.quiet rfl rfl rfl fun _ member => member
    case h_2 request rest _ =>
      cases next
      have shorter : HonestPump sha256 settings { s with queue := rest } := known.handle rfl rfl rfl rfl
      exact takeJob_honest shorter
    · cases next
      exact known.quiet rfl rfl rfl fun _ member => member

theorem declared_honest {result : Except TransportError Unit}
    (next : step sha256 settings s (.declared result) = some t)
    (known : HonestPump sha256 settings s) : HonestPump sha256 settings t := by
  simp only [step] at next
  split at next
  case h_2 => cases next
  case h_1 request channel declaration write declaring =>
    obtain ⟨routed, missing⟩ := known.declaring request channel declaration write declaring
    split at next
    · cases next
      exact known.quiet rfl rfl rfl fun _ member => member
    · cases next
      obtain ⟨mirrored, prepared⟩ := known.mirrored.declare channel missing
      refine push_honest mirrored ?_ routed prepared
      intro future member
      obtain ⟨futureRouted, futurePrepared⟩ := known.ready future member
      exact ⟨futureRouted, futurePrepared.mono (List.subset_cons_self _ _)⟩

theorem poll_honest {index : Nat} (next : step sha256 settings s (.poll index) = some t)
    (known : HonestPump sha256 settings s) : HonestPump sha256 settings t := by
  simp only [step, Option.bind_eq_some_iff] at next
  obtain ⟨future, found, next⟩ := next
  split at next
  · cases next
    obtain ⟨routed, prepared⟩ := known.ready future (List.mem_of_getElem? found)
    refine ⟨known.mirrored.publish future.channel prepared routed, ?_, known.declaring⟩
    intro other member
    rcases List.mem_or_eq_of_mem_set member with old | rfl
    · exact known.ready other old
    · exact ⟨routed, prepared⟩
  · cases next

theorem step_honest {event : Event} (next : step sha256 settings s event = some t)
    (known : HonestPump sha256 settings s) : HonestPump sha256 settings t := by
  cases event with
  | reserve request | flush waiter | setChannel channel | dropHandles =>
    simp only [step] at next
    split at next
    · cases next
      exact known.handle rfl rfl rfl rfl
    · cases next
  | enqueue index =>
    simp only [step, Option.bind_eq_some_iff] at next
    obtain ⟨request, _, next⟩ := next
    split at next
    · cases next
      exact known.handle rfl rfl rfl rfl
    · cases next
  | receive => exact receive_honest next known
  | declared result => exact declared_honest next known
  | poll index => exact poll_honest next known
  | complete index =>
    simp only [step, Option.bind_eq_some_iff] at next
    obtain ⟨future, _, next⟩ := next
    split at next
    · cases next
      exact ⟨known.mirrored, fun other member => known.ready other (List.mem_of_mem_eraseIdx member),
        known.declaring⟩
    · cases next
  | drained =>
    simp only [step] at next
    split at next
    · split at next
      · cases next
        exact known.quiet rfl rfl rfl fun _ member => member
      · cases next
        exact known.quiet rfl rfl rfl fun _ member => member
      · cases next
    · cases next

theorem reachable_honest (reached : Reachable (machine sha256 settings) s) : HonestPump sha256 settings s := by
  refine reached.invariant ?_ (fun _ known _ next => step_honest next known)
  rintro s ⟨channel, rfl⟩
  exact ⟨⟨each_nil, fun name => Iff.rfl⟩, fun _ member => absurd member List.not_mem_nil,
    fun _ _ _ _ mode => Mode.noConfusion mode⟩

theorem takeJob_wire (s : State) (request : PublishRequest) : (takeJob sha256 settings s request).wire = s.wire := by
  unfold takeJob
  split
  · rfl
  · split
    · rfl
    · split <;> rfl

theorem step_appends {event : Event} (next : step sha256 settings s event = some t) :
    ∃ new, t.wire = s.wire ++ new ∧ ∀ channel declaration request, .declare channel declaration request ∈ new →
      ∃ result write, event = .declared result ∧ s.mode = .declaring request channel declaration write := by
  have same {event : Event} (wire : t.wire = s.wire) :
      ∃ new, t.wire = s.wire ++ new ∧ ∀ channel declaration request, .declare channel declaration request ∈ new →
        ∃ result write, event = .declared result ∧ s.mode = .declaring request channel declaration write :=
    ⟨[], by rw [wire, List.append_nil], fun _ _ _ logged => absurd logged List.not_mem_nil⟩
  cases event with
  | reserve request | flush waiter | setChannel channel | dropHandles =>
    simp only [step] at next
    split at next <;> cases next
    exact same rfl
  | enqueue index =>
    simp only [step, Option.bind_eq_some_iff] at next
    obtain ⟨request, _, next⟩ := next
    split at next <;> cases next
    exact same rfl
  | receive =>
    simp only [step] at next
    split at next
    case h_2 => cases next
    case h_1 idle =>
      split at next
      case isFalse => cases next
      unfold receiveNext at next
      split at next
      · split at next <;> cases next
        exact same rfl
      case h_2 request rest _ =>
        cases next
        exact same (takeJob_wire { s with queue := rest } request)
      · cases next
        exact same rfl
  | declared result =>
    simp only [step] at next
    split at next
    case h_2 => cases next
    case h_1 request channel declaration write declaring =>
      split at next <;> cases next
      · exact same rfl
      · refine ⟨[.declare channel declaration request], rfl, fun channel' declaration' request' logged => ?_⟩
        obtain ⟨rfl, rfl, rfl⟩ := WireEvent.declare.inj (List.mem_singleton.mp logged)
        exact ⟨_, write, rfl, declaring⟩
  | poll index =>
    simp only [step, Option.bind_eq_some_iff] at next
    obtain ⟨future, _, next⟩ := next
    split at next <;> cases next
    exact ⟨_, rfl, by simp⟩
  | complete index =>
    simp only [step, Option.bind_eq_some_iff] at next
    obtain ⟨future, _, next⟩ := next
    split at next <;> cases next
    exact same rfl
  | drained =>
    simp only [step] at next
    split at next
    · split at next <;> cases next <;> exact same rfl
    · cases next

end

end RabbitRs.Pump
