import RabbitRs.Lib.Machine
import RabbitRs.Lib.Tally
import RabbitRs.Publisher.DelayRoute

/-!
The publish buffer of the PHP extension (`classes/publish_buffer.rs`) and the `Pool` operations that
drive it. The PHP thread, the timers and the spawned drains are threads of control; a step is one
access of one of them to shared state.
-/

namespace RabbitRs.Buffer

def bufferThreshold : Nat := 64

def publishBufferMaxMessages : Nat := 4096

def publishBufferMaxBytes : Nat := 64 * 1024 * 1024

/-- Nanoseconds, like every instant here. -/
def teardownFlushBudget : Nat := 500000000

def maxConcurrentDrains : Nat := 8

def maxPendingErrors : Nat := 4096

structure Settings where
  flushInterval : Nat
  flushThreshold : Nat := bufferThreshold

structure NativePublish where
  broker : String
  request : PublishRequest

/-- A publication the buffer accepted; the code keeps no `ticket`, it tells them apart here. -/
structure Accepted extends NativePublish where
  ticket : Nat

def payloadBytes (publishes : List Accepted) : Nat :=
  Tally.total (fun publish => publish.request.payload.length) publishes

def firstMessageId (publishes : List Accepted) : String :=
  (publishes.head?.map fun publish => publish.request.properties.messageId).getD ""

inductive ClientErrorKind where
  | configuration | transport | publish | consumer | backpressure | closed
  deriving DecidableEq

def clientErrorKind : ClientErrorKind → String
  | .backpressure => "Backpressure"
  | .transport => "Transport"
  | .closed => "Closed"
  | .configuration => "Configuration"
  | .publish | .consumer => "Publish"

structure ClientError where
  kind : ClientErrorKind
  message : String

structure Returned where
  messageId : String
  code : UInt16

/-- What `publish_batch` answers: the outcomes that are not confirmations, or one failure. -/
abbrev BatchResult := Except ClientError (List Returned)

structure PendingPublishError where
  messageId : String
  kind : String
  message : String

def Returned.error (returned : Returned) : PendingPublishError where
  messageId := returned.messageId
  kind := "Returned"
  message := "message " ++ returned.messageId ++ " was returned as unroutable (AMQP " ++
    toString returned.code ++ ")"

def ClientError.pending (error : ClientError) (messageId : String) : PendingPublishError where
  messageId := messageId
  kind := clientErrorKind error.kind
  message := error.message

def saturation (messageId : String) : PendingPublishError where
  messageId := messageId
  kind := "Backpressure"
  message := "publish drain pipeline is saturated; retry after flush"

structure ErrorQueue where
  pending : List PendingPublishError := []
  dropped : Nat := 0

/-- `record_error`: bounded, the oldest record makes room. -/
def ErrorQueue.record (queue : ErrorQueue) (error : PendingPublishError) : ErrorQueue :=
  if maxPendingErrors ≤ queue.pending.length then
    { pending := queue.pending.tail ++ [error], dropped := queue.dropped + 1 }
  else { queue with pending := queue.pending ++ [error] }

def ErrorQueue.recordAll (queue : ErrorQueue) (errors : List PendingPublishError) : ErrorQueue :=
  errors.foldl ErrorQueue.record queue

/-- `rebuffer_or_drop` between its shared accesses: the flag check, the expiry split, the append. -/
inductive Disposal where
  | check (batch : List Accepted)
  | split (batch : List Accepted)
  | extend (batch : List Accepted)

def Disposal.held : Disposal → List Accepted
  | .check batch | .split batch | .extend batch => batch

/-- `ensure_flush_timer` between its shared accesses. -/
inductive Arming where
  | swap
  | spawn
  | push (timer : Nat)

inductive TimerPc where
  | sleeping
  | testLength
  | testAge
  | spawn
  | register (drain : Nat)
  | finished
  deriving DecidableEq

/-- A `run_flush_timer` task; it may wake any time from `armedAt` plus the interval on. -/
structure Timer where
  armedAt : Nat
  pc : TimerPc

/-- `run_timer_drain` from `take`; a drain spawned by `publish` starts at `publishing`. -/
inductive DrainPc where
  | take
  | awaitPermit (batch : List Accepted) (deadline : Nat)
  | saturated (disposal : Disposal) (messageId : String)
  | arm (arming : Arming) (messageId : String)
  | reportSaturation (messageId : String)
  | publishing (batch : List Accepted)
  | failed (disposal : Disposal) (error : PendingPublishError)
  | report (errors : List PendingPublishError)
  | finished

def DrainPc.held : DrainPc → List Accepted
  | .awaitPermit batch _ | .publishing batch => batch
  | .saturated disposal _ | .failed disposal _ => disposal.held
  | _ => []

def DrainPc.isFinished : DrainPc → Bool
  | .finished => true
  | _ => false

/-- Who waits for a synchronous flush: `flush`, `size` and `clear` raise its error, `publish`
making room and `close` swallow it, a pop raises it without surfacing earlier ones. -/
inductive Resume where
  | caller
  | makeRoom (publish : NativePublish)
  | pop
  | close

def Resume.raises : Resume → Bool
  | .caller | .pop => true
  | .makeRoom _ | .close => false

inductive Quiesce where
  | flush (resume : Resume)
  | pop
  | teardown

inductive PhpPc where
  | idle
  | testOverflow (publish : NativePublish)
  | retestOverflow (publish : NativePublish)
  | enqueue (publish : NativePublish)
  | armClock
  | testLength (started : Bool)
  | testAge (started : Bool)
  | takeTriggered
  | awaitPermit (batch : List Accepted) (deadline : Nat)
  | saturated (disposal : Disposal)
  | arm (arming : Arming) (saturated : Bool)
  | registerDrain (drain : Nat)
  | surface (resume : Resume)
  | drainErrors
  | abortTimers (quiesce : Quiesce) (deadline : Nat)
  | resetPending (quiesce : Quiesce) (deadline : Nat)
  | takeHandles (quiesce : Quiesce) (deadline : Nat)
  | awaitDrains (quiesce : Quiesce) (handles : List Nat) (deadline : Nat)
  | resetClock (resume : Resume)
  | takeAll (resume : Resume)
  | flushing (batch : List Accepted) (resume : Resume)
  | failed (disposal : Disposal) (error : PendingPublishError) (resume : Resume)
  | testEmpty
  | closeClaim
  | tearDown
  | testLeftover (deadline : Nat)
  | takeLeftover (deadline : Nat)
  | flushLeftover (batch : List Accepted) (deadline : Nat)

def PhpPc.held : PhpPc → List Accepted
  | .awaitPermit batch _ | .flushing batch _ | .flushLeftover batch _ => batch
  | .saturated disposal | .failed disposal _ _ => disposal.held
  | _ => []

def Resume.next : Resume → PhpPc
  | .caller | .pop => .idle
  | .makeRoom publish => .retestOverflow publish
  | .close => .closeClaim

/-- `Pool::flush` surfaces earlier errors after a flush that succeeded, a pop does not. -/
def Resume.succeeded : Resume → PhpPc
  | .pop => .idle
  | resume => .surface resume

/-- `accepted`, `completed`, `dropped`, `raised`, `swallowed` and `tornDown` only record what
happened: the publications a batch that answered `Ok` resolved, those counted in
`droppedPublications`, the errors PHP saw and those a caller ignored, and whether
`flush_teardown` returned. -/
structure State where
  clock : Nat := 0
  publishes : List Accepted := []
  bytes : Nat := 0
  lastFlush : Option Nat := none
  droppedPublications : Nat := 0
  errors : ErrorQueue := {}
  drainHandles : List Nat := []
  timerHandles : List Nat := []
  drainPermits : Nat := maxConcurrentDrains
  tearingDown : Bool := false
  timerPending : Bool := false
  claimOpen : Bool := true
  poolClosed : Bool := false
  php : PhpPc := .idle
  timers : List Timer := []
  drains : List DrainPc := []
  accepted : Nat := 0
  completed : List Accepted := []
  dropped : List Accepted := []
  raised : List PendingPublishError := []
  swallowed : List PendingPublishError := []
  tornDown : Bool := false

/-- `ensure_open`, in the process that built the pool. -/
def State.isOpen (s : State) : Bool := s.claimOpen && !s.poolClosed

def wouldOverflow (s : State) (payloadBytes : Nat) : Bool :=
  publishBufferMaxMessages ≤ s.publishes.length ||
    publishBufferMaxBytes < s.bytes + payloadBytes

def intervalElapsed (settings : Settings) (s : State) : Bool :=
  s.lastFlush.any fun instant => instant + settings.flushInterval ≤ s.clock

def State.push (s : State) (publish : NativePublish) : State :=
  { s with
    publishes := s.publishes ++ [{ publish with ticket := s.accepted }]
    bytes := s.bytes + publish.request.payload.length
    accepted := s.accepted + 1 }

def State.take (s : State) : State := { s with publishes := [], bytes := 0 }

def State.drop (s : State) (batch : List Accepted) : State :=
  { s with
    droppedPublications := s.droppedPublications + batch.length
    dropped := s.dropped ++ batch }

def State.complete (s : State) (batch : List Accepted) : State :=
  { s with completed := s.completed ++ batch }

def State.recordErrors (s : State) (errors : List PendingPublishError) : State :=
  { s with errors := s.errors.recordAll errors }

/-- Exceptions the operation ends with, as the caller of `resume` treats them. -/
def State.raiseAll (s : State) (resume : Resume) (errors : List PendingPublishError) : State :=
  { s with
    raised := if resume.raises then s.raised ++ errors else s.raised
    swallowed := if resume.raises then s.swallowed else s.swallowed ++ errors }

def State.raise (s : State) (resume : Resume) (error : PendingPublishError) : State :=
  s.raiseAll resume [error]

/-- `surface_publish_errors`: raises the first record and counts the rest as discarded. -/
def State.surfaceErrors (s : State) (resume : Resume) : State :=
  { s with errors := { pending := [], dropped := s.errors.dropped + (s.errors.pending.length - 1) }
  }.raiseAll resume s.errors.pending.head?.toList

def bufferFull (s : State) : PendingPublishError where
  messageId := ""
  kind := "Backpressure"
  message := "publish buffer is full (" ++ toString s.publishes.length ++ " messages, " ++
    toString s.bytes ++ " buffered bytes); retry after flush"

def expired (clock : Nat) (publish : Accepted) : Bool := publish.request.deadline ≤ clock

/-- One access of `rebuffer_or_drop`; `none` once it returned. -/
def State.dispose (s : State) : Disposal → State × Option Disposal
  | .check batch =>
    if s.tearingDown || s.poolClosed then (s.drop batch, none) else (s, some (.split batch))
  | .split batch =>
    (s.drop (batch.filter (expired s.clock)),
      some (.extend (batch.filter fun publish => !expired s.clock publish)))
  | .extend batch =>
    ({ s with publishes := s.publishes ++ batch, bytes := s.bytes + payloadBytes batch }, none)

def timerFinished (timers : List Timer) (timer : Nat) : Bool :=
  (timers[timer]?.map Timer.pc) == some .finished

def drainFinished (drains : List DrainPc) (drain : Nat) : Bool :=
  drains[drain]?.any DrainPc.isFinished

/-- One access of `ensure_flush_timer`; `none` once it returned. -/
def State.arm (s : State) : Arming → State × Option Arming
  | .swap => if s.timerPending then (s, none) else ({ s with timerPending := true }, some .spawn)
  | .spawn =>
    ({ s with timers := s.timers ++ [{ armedAt := s.clock, pc := .sleeping }] },
      some (.push s.timers.length))
  | .push timer =>
    ({ s with timerHandles :=
        (s.timerHandles ++ [timer]).filter fun handle => !timerFinished s.timers handle }, none)

theorem State.dispose_frame {s t : State} {disposal : Disposal} {later : Option Disposal}
    (disposed : s.dispose disposal = (t, later)) :
    ∃ publishes bytes droppedPublications dropped,
      t = { s with publishes, bytes, droppedPublications, dropped } := by
  cases disposal with
  | check batch =>
    simp only [State.dispose] at disposed
    split at disposed <;> cases disposed <;> exact ⟨_, _, _, _, rfl⟩
  | split batch | extend batch =>
    cases disposed
    exact ⟨_, _, _, _, rfl⟩

theorem State.arm_frame {s t : State} {arming : Arming} {later : Option Arming}
    (armed : s.arm arming = (t, later)) :
    ∃ timerPending timers timerHandles, t = { s with timerPending, timers, timerHandles } := by
  cases arming with
  | swap =>
    simp only [State.arm] at armed
    split at armed <;> cases armed <;> exact ⟨_, _, _, rfl⟩
  | spawn | push timer =>
    cases armed
    exact ⟨_, _, _, rfl⟩

def State.registerDrain (s : State) (drain : Nat) : State :=
  { s with drainHandles :=
      (s.drainHandles ++ [drain]).filter fun handle => !drainFinished s.drains handle }

/-- `JoinHandle::abort` stops a timer only in its sleep: nothing after it yields. -/
def Timer.abort (timer : Timer) : Timer :=
  if timer.pc = .sleeping then { timer with pc := .finished } else timer

def State.abortTimers (s : State) : State :=
  { s with
    timers := s.timers.mapIdx fun i timer => if i ∈ s.timerHandles then timer.abort else timer
    timerHandles := [] }

inductive Answer where
  | proceed
  | timeout
  | batch (result : BatchResult)

inductive Event where
  | tick (nanos : Nat)
  | closePool
  | publish (publish : NativePublish)
  | flush
  | stats
  | drainErrors
  | pop
  | close
  | destruct
  | php (answer : Answer)
  | timer (timer : Nat)
  | drain (drain : Nat) (answer : Answer)

/-- `flush_batch` once its batch answered; a failure other than `Closed` goes to
`rebuffer_or_drop`. -/
def flushAnswer (s : State) (batch : List Accepted) (resume : Resume) : BatchResult → State × PhpPc
  | .ok [] => (s.complete batch, resume.succeeded)
  | .ok (first :: rest) =>
    (((s.complete batch).recordErrors (rest.map Returned.error)).raise resume first.error,
      resume.next)
  | .error error =>
    if error.kind = .closed then
      ((s.drop batch).raise resume (error.pending (firstMessageId batch)), resume.next)
    else (s, .failed (.check batch) (error.pending (firstMessageId batch)) resume)

def quiesced (deadline : Nat) : Quiesce → PhpPc
  | .flush resume => .resetClock resume
  | .pop => .idle
  | .teardown => .testLeftover deadline

section

variable (settings : Settings)

/-- One step of the PHP thread: `Pool::publish`, `Pool::flush` and `close`, a consumer's
`flush_nonempty`, and `flush_teardown`. -/
def phpNext (s : State) : PhpPc → Answer → Option (State × PhpPc)
  | .testOverflow publish, .proceed =>
    some (s, if wouldOverflow s publish.request.payload.length then
        (if s.isOpen then
          .abortTimers (.flush (.makeRoom publish)) (s.clock + teardownFlushBudget)
        else .retestOverflow publish)
      else .enqueue publish)
  | .retestOverflow publish, .proceed =>
    if wouldOverflow s publish.request.payload.length then
      some (s.raise .caller (bufferFull s), .idle)
    else some (s, .enqueue publish)
  | .enqueue publish, .proceed =>
    some (s.push publish, if s.publishes.isEmpty then .armClock else .testLength false)
  | .armClock, .proceed => some ({ s with lastFlush := some s.clock }, .testLength true)
  | .testLength started, .proceed =>
    some (s, if settings.flushThreshold ≤ s.publishes.length then .takeTriggered
      else .testAge started)
  | .testAge started, .proceed =>
    some (s, if intervalElapsed settings s then .takeTriggered
      else if started then .arm .swap false else .surface .caller)
  | .takeTriggered, .proceed =>
    some (s.take, if s.publishes.isEmpty then .surface .caller
      else .awaitPermit s.publishes (s.clock + teardownFlushBudget))
  | .awaitPermit batch _, .proceed =>
    if 0 < s.drainPermits then
      some ({ s with drainPermits := s.drainPermits - 1, drains := s.drains ++ [.publishing batch] },
        .registerDrain s.drains.length)
    else none
  | .awaitPermit batch deadline, .timeout =>
    if s.drainPermits = 0 ∧ deadline ≤ s.clock then some (s, .saturated (.check batch)) else none
  | .saturated disposal, .proceed =>
    match s.dispose disposal with
    | (t, some later) => some (t, .saturated later)
    | (t, none) => some (t, .arm .swap true)
  | .arm arming saturated, .proceed =>
    match s.arm arming with
    | (t, some later) => some (t, .arm later saturated)
    | (t, none) =>
      if saturated then some (t.raise .caller (saturation ""), .idle)
      else some (t, .surface .caller)
  | .registerDrain drain, .proceed => some (s.registerDrain drain, .surface .caller)
  | .surface resume, .proceed => some (s.surfaceErrors resume, resume.next)
  | .drainErrors, .proceed =>
    some ({ s with errors := { s.errors with pending := [] }
                   raised := s.raised ++ s.errors.pending }, .idle)
  | .abortTimers quiesce deadline, .proceed => some (s.abortTimers, .resetPending quiesce deadline)
  | .resetPending quiesce deadline, .proceed =>
    some ({ s with timerPending := false }, .takeHandles quiesce deadline)
  | .takeHandles quiesce deadline, .proceed =>
    some ({ s with drainHandles := [] }, .awaitDrains quiesce s.drainHandles deadline)
  | .awaitDrains quiesce handles deadline, .proceed =>
    if handles.all (drainFinished s.drains) ∨ deadline ≤ s.clock then
      some (s, quiesced deadline quiesce)
    else none
  | .resetClock resume, .proceed => some ({ s with lastFlush := some s.clock }, .takeAll resume)
  | .takeAll resume, .proceed =>
    some (s.take, if s.publishes.isEmpty then resume.succeeded else .flushing s.publishes resume)
  | .flushing batch resume, .batch result => some (flushAnswer s batch resume result)
  | .failed disposal error resume, .proceed =>
    match s.dispose disposal with
    | (t, some later) => some (t, .failed later error resume)
    | (t, none) => some (t.raise resume error, resume.next)
  | .testEmpty, .proceed =>
    some (s, .abortTimers (if s.publishes.isEmpty then .pop else .flush .pop)
      (s.clock + teardownFlushBudget))
  | .closeClaim, .proceed => some ({ s with claimOpen := false }, .idle)
  | .tearDown, .proceed =>
    some ({ s with tearingDown := true }, .abortTimers .teardown (s.clock + teardownFlushBudget))
  | .testLeftover deadline, .proceed =>
    if s.publishes.isEmpty then some ({ s with tornDown := true }, .idle)
    else some (s, .takeLeftover deadline)
  | .takeLeftover deadline, .proceed => some (s.take, .flushLeftover s.publishes deadline)
  | .flushLeftover batch _, .batch (.ok returned) =>
    some ({ (s.complete batch).recordErrors (returned.map Returned.error) with tornDown := true },
      .idle)
  | .flushLeftover batch _, .batch (.error _) =>
    some ({ s.drop batch with tornDown := true }, .idle)
  | .flushLeftover batch deadline, .timeout =>
    if deadline ≤ s.clock then some ({ s.drop batch with tornDown := true }, .idle) else none
  | _, _ => none

def timerNext (s : State) (timer : Timer) : Option (State × TimerPc) :=
  match timer.pc with
  | .sleeping =>
    if timer.armedAt + settings.flushInterval ≤ s.clock then
      some ({ s with timerPending := false }, .testLength)
    else none
  | .testLength =>
    some (s, if settings.flushThreshold ≤ s.publishes.length then .spawn else .testAge)
  | .testAge => some (s, if intervalElapsed settings s then .spawn else .finished)
  | .spawn => some ({ s with drains := s.drains ++ [.take] }, .register s.drains.length)
  | .register drain => some (s.registerDrain drain, .finished)
  | .finished => none

def drainNext (s : State) : DrainPc → Answer → Option (State × DrainPc)
  | .take, .proceed =>
    some (s.take, if s.publishes.isEmpty then .finished
      else .awaitPermit s.publishes (s.clock + teardownFlushBudget))
  | .awaitPermit batch _, .proceed =>
    if 0 < s.drainPermits then
      some ({ s with drainPermits := s.drainPermits - 1 }, .publishing batch)
    else none
  | .awaitPermit batch deadline, .timeout =>
    if s.drainPermits = 0 ∧ deadline ≤ s.clock then
      some (s, .saturated (.check batch) (firstMessageId batch))
    else none
  | .saturated disposal messageId, .proceed =>
    match s.dispose disposal with
    | (t, some later) => some (t, .saturated later messageId)
    | (t, none) => some (t, .arm .swap messageId)
  | .arm arming messageId, .proceed =>
    match s.arm arming with
    | (t, some later) => some (t, .arm later messageId)
    | (t, none) => some (t, .reportSaturation messageId)
  | .reportSaturation messageId, .proceed =>
    some (s.recordErrors [saturation messageId], .finished)
  | .publishing batch, .batch (.ok returned) =>
    some (s.complete batch, .report (returned.map Returned.error))
  | .publishing batch, .batch (.error error) =>
    if error.kind = .closed then
      some (s.drop batch, .report [error.pending (firstMessageId batch)])
    else some (s, .failed (.check batch) (error.pending (firstMessageId batch)))
  | .failed disposal error, .proceed =>
    match s.dispose disposal with
    | (t, some later) => some (t, .failed later error)
    | (t, none) => some (t, .report [error])
  | .report errors, .proceed =>
    some ({ s.recordErrors errors with drainPermits := s.drainPermits + 1 }, .finished)
  | _, _ => none

theorem timerNext_frame {s t : State} {timer : Timer} {later : TimerPc}
    (next : timerNext settings s timer = some (t, later)) :
    ∃ timerPending drains drainHandles, t = { s with timerPending, drains, drainHandles } ∧
      (drains = s.drains ∨ drains = s.drains ++ [.take]) := by
  unfold timerNext at next
  split at next
  · split at next <;> cases next
    exact ⟨_, _, _, rfl, .inl rfl⟩
  · cases next
    exact ⟨_, _, _, rfl, .inl rfl⟩
  · cases next
    exact ⟨_, _, _, rfl, .inl rfl⟩
  · cases next
    exact ⟨_, _, _, rfl, .inr rfl⟩
  · cases next
    exact ⟨_, _, _, rfl, .inl rfl⟩
  · cases next

theorem drainNext_frame {s t : State} {pc later : DrainPc} {answer : Answer}
    (next : drainNext s pc answer = some (t, later)) :
    ∃ publishes bytes droppedPublications dropped completed errors drainPermits timerPending
        timers timerHandles,
      t = { s with publishes, bytes, droppedPublications, dropped, completed, errors,
                   drainPermits, timerPending, timers, timerHandles } := by
  cases pc <;> cases answer <;>
    simp only [drainNext, reduceCtorEq, Option.some.injEq, Prod.mk.injEq] at next
  case awaitPermit.proceed | awaitPermit.timeout =>
    split at next <;> cases next
    exact ⟨_, _, _, _, _, _, _, _, _, _, rfl⟩
  case saturated.proceed disposal messageId | failed.proceed disposal error =>
    split at next <;> cases next <;> rename_i disposed <;>
      obtain ⟨_, _, _, _, rfl⟩ := State.dispose_frame disposed <;>
      exact ⟨_, _, _, _, _, _, _, _, _, _, rfl⟩
  case arm.proceed arming messageId =>
    split at next <;> cases next <;> rename_i armed <;>
      obtain ⟨_, _, _, rfl⟩ := State.arm_frame armed <;>
      exact ⟨_, _, _, _, _, _, _, _, _, _, rfl⟩
  case publishing.batch batch result =>
    rcases result with error | returned
    · simp only at next
      split at next <;> cases next <;> exact ⟨_, _, _, _, _, _, _, _, _, _, rfl⟩
    · cases next
      exact ⟨_, _, _, _, _, _, _, _, _, _, rfl⟩
  all_goals
    obtain ⟨rfl, rfl⟩ := next
    exact ⟨_, _, _, _, _, _, _, _, _, _, rfl⟩

def enter (s : State) (pc : PhpPc) : Option State :=
  match s.php with
  | .idle => some { s with php := pc }
  | _ => none

/-- A method of the `Pool` object that refuses a closed pool; the destructor ran on an object
nothing refers to any more. -/
def enterOpen (s : State) (pc : PhpPc) : Option State :=
  if s.isOpen && !s.tearingDown then enter s pc else none

def step (s : State) : Event → Option State
  | .tick nanos => some { s with clock := s.clock + nanos }
  | .closePool => some { s with poolClosed := true }
  | .publish publish => enterOpen s (.testOverflow publish)
  | .flush => enterOpen s (.abortTimers (.flush .caller) (s.clock + teardownFlushBudget))
  | .stats => enterOpen s (.surface .caller)
  | .drainErrors => enterOpen s .drainErrors
  | .pop => enter s .testEmpty
  | .close =>
    if s.tearingDown then none
    else enter s (if s.isOpen then
        .abortTimers (.flush .close) (s.clock + teardownFlushBudget) else .closeClaim)
  | .destruct => if s.tearingDown then none else enter s .tearDown
  | .php answer => (phpNext settings s s.php answer).map fun (t, pc) => { t with php := pc }
  | .timer i => s.timers[i]?.bind fun timer =>
      (timerNext settings s timer).map fun (t, pc) =>
        { t with timers := t.timers.set i { timer with pc := pc } }
  | .drain i answer => s.drains[i]?.bind fun drain =>
      (drainNext s drain answer).map fun (t, pc) => { t with drains := t.drains.set i pc }

/-- The operations PHP can be in right after a call; only a consumer outlives its pool. -/
inductive Entered (s : State) : PhpPc → Prop where
  | publish (publish : NativePublish) : s.tearingDown = false → Entered s (.testOverflow publish)
  | flush (resume : Resume) (deadline : Nat) : s.tearingDown = false →
      Entered s (.abortTimers (.flush resume) deadline)
  | stats : s.tearingDown = false → Entered s (.surface .caller)
  | drainErrors : s.tearingDown = false → Entered s .drainErrors
  | close : s.tearingDown = false → Entered s .closeClaim
  | destruct : s.tearingDown = false → Entered s .tearDown
  | pop : Entered s .testEmpty

/-- What a step can be: time or the pool's closing, a PHP call, or one step of one thread. -/
inductive Stepped (s : State) : Event → State → Prop where
  | tick (nanos : Nat) : Stepped s (.tick nanos) { s with clock := s.clock + nanos }
  | closePool : Stepped s .closePool { s with poolClosed := true }
  | enter {event : Event} {pc : PhpPc} : s.php = .idle → Entered s pc → Stepped s event { s with php := pc }
  | php {answer : Answer} {t : State} {pc : PhpPc} : phpNext settings s s.php answer = some (t, pc) →
      Stepped s (.php answer) { t with php := pc }
  | timer {i : Nat} {timer : Timer} {t : State} {pc : TimerPc} : s.timers[i]? = some timer →
      timerNext settings s timer = some (t, pc) →
      Stepped s (.timer i) { t with timers := t.timers.set i { timer with pc := pc } }
  | drain {i : Nat} {answer : Answer} {drain pc : DrainPc} {t : State} : s.drains[i]? = some drain →
      drainNext s drain answer = some (t, pc) →
      Stepped s (.drain i answer) { t with drains := t.drains.set i pc }

variable {settings}

theorem entered_of_enter {s t : State} {pc : PhpPc} {event : Event} (entered : Entered s pc)
    (found : enter s pc = some t) : Stepped settings s event t := by
  unfold enter at found
  split at found <;> cases found
  exact .enter ‹_› entered

theorem entered_of_enterOpen {s t : State} {pc : PhpPc} {event : Event}
    (entered : s.tearingDown = false → Entered s pc) (found : enterOpen s pc = some t) :
    Stepped settings s event t := by
  unfold enterOpen at found
  split at found
  · rename_i allowed
    simp only [Bool.and_eq_true, Bool.not_eq_true'] at allowed
    exact entered_of_enter (entered allowed.2) found
  · cases found

theorem stepped_of_step {s t : State} {event : Event} (found : step settings s event = some t) :
    Stepped settings s event t := by
  cases event with
  | tick nanos =>
    cases found
    exact .tick nanos
  | closePool =>
    cases found
    exact .closePool
  | publish publish => exact entered_of_enterOpen (.publish publish) found
  | flush => exact entered_of_enterOpen (.flush _ _) found
  | stats => exact entered_of_enterOpen .stats found
  | drainErrors => exact entered_of_enterOpen .drainErrors found
  | pop => exact entered_of_enter .pop found
  | close =>
    simp only [step] at found
    split at found
    · cases found
    · have standing := Bool.eq_false_iff.mpr ‹_›
      split at found
      · exact entered_of_enter (.flush _ _ standing) found
      · exact entered_of_enter (.close standing) found
  | destruct =>
    simp only [step] at found
    split at found
    · cases found
    · exact entered_of_enter (.destruct (Bool.eq_false_iff.mpr ‹_›)) found
  | php answer =>
    obtain ⟨⟨u, later⟩, next, rfl⟩ := Option.map_eq_some_iff.mp found
    exact .php next
  | timer i =>
    obtain ⟨timer, member, mapped⟩ := Option.bind_eq_some_iff.mp found
    obtain ⟨⟨u, later⟩, next, rfl⟩ := Option.map_eq_some_iff.mp mapped
    exact .timer member next
  | drain i answer =>
    obtain ⟨drain, member, mapped⟩ := Option.bind_eq_some_iff.mp found
    obtain ⟨⟨u, later⟩, next, rfl⟩ := Option.map_eq_some_iff.mp mapped
    exact .drain member next

variable (settings)

def machine : StepMachine.Machine State Event where
  Initial s := s = {}
  step := step settings

end

end RabbitRs.Buffer
