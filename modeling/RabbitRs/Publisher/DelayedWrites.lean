import RabbitRs.Publisher.Frames
import RabbitRs.Publisher.Pump

/-!
The publisher actor keeps its log honest: the declared cache is what the log declared, and every
delayed write comes after the declaration of what it is routed through.
-/

namespace RabbitRs.Publisher

open StepMachine History

section

variable {sha256 : Bytes → Bytes} {settings : Settings} {s t : State}

structure HonestActor (sha256 : Bytes → Bytes) (settings : Settings) (s : State) : Prop where
  mirrored : Mirrored sha256 settings.delayStrategy s.declaredTopology s.wire
  declaring : ∀ item channel declaration pending resume,
    s.mode = .declaring item channel declaration pending resume →
    ensureDelayTopology sha256 settings.delayStrategy item.request s.declaredTopology = .ok (some declaration)

theorem Writes.honest {channel : Channel} {request : PublishRequest}
    (wrote : Writes sha256 settings channel request s t)
    (mirrored : Mirrored sha256 settings.delayStrategy s.declaredTopology s.wire)
    (prepared : Prepared sha256 settings.delayStrategy s.declaredTopology request) :
    HonestActor sha256 settings t := by
  refine ⟨?_, ?_⟩
  · rw [wrote.declaredTopology]
    rcases wrote.wire with same | ⟨write, routed, appended⟩
    · rw [same]
      exact mirrored
    · rw [appended]
      exact mirrored.publish channel prepared routed
  · intro item channel declaration pending resume mode
    have quiet := wrote.quiet
    rw [mode] at quiet
    cases quiet

theorem HonestActor.quiet (known : HonestActor sha256 settings s) (quiet : t.mode.declares = false)
    (wire : t.wire = s.wire) (declared : t.declaredTopology = s.declaredTopology) :
    HonestActor sha256 settings t := by
  refine ⟨?_, ?_⟩
  · rw [declared, wire]
    exact known.mirrored
  · intro item channel declaration pending resume mode
    rw [mode] at quiet
    cases quiet

theorem Passes.honest (passed : Passes s t) (known : HonestActor sha256 settings s) :
    HonestActor sha256 settings t :=
  known.quiet passed.quiet passed.wire passed.declaredTopology

theorem HonestActor.handle (known : HonestActor sha256 settings s) (mode : t.mode = s.mode)
    (wire : t.wire = s.wire) (declared : t.declaredTopology = s.declaredTopology) :
    HonestActor sha256 settings t := by
  refine ⟨?_, ?_⟩
  · rw [declared, wire]
    exact known.mirrored
  · intro item channel declaration pending resume declaring
    rw [declared]
    exact known.declaring item channel declaration pending resume (mode.symm.trans declaring)

theorem Logs.honest {event : Event} (logs : Logs sha256 settings s event t)
    (known : HonestActor sha256 settings s) : HonestActor sha256 settings t := by
  cases logs with
  | stays mode wire declared => exact known.handle mode wire declared
  | passes passed => exact passed.honest known
  | asks missing =>
    refine ⟨known.mirrored, ?_⟩
    rintro _ _ _ _ _ mode
    obtain ⟨rfl, rfl, rfl, rfl, rfl⟩ := Mode.declaring.inj mode
    exact missing
  | writes _ _ ready wrote => exact wrote.honest known.mirrored (prepared_of_ensured ready)
  | declares declaring wrote =>
    have missing := known.declaring _ _ _ _ _ declaring
    obtain ⟨mirrored, prepared⟩ := known.mirrored.declare _ missing
    exact wrote.honest mirrored prepared

theorem reachable_honest (reached : Reachable (machine sha256 settings) s) : HonestActor sha256 settings s := by
  refine reached.invariant ?_ (fun _ known _ next => (step_turns next).logs.honest known)
  rintro s ⟨channel, rfl⟩
  refine ⟨⟨each_nil, fun name => Iff.rfl⟩, ?_⟩
  intro item channel declaration pending resume mode
  unfold initial at mode
  split at mode <;> cases mode

theorem step_wire {event : Event} (next : step sha256 settings s event = some t) : t.wire = s.wire ∨
    (∃ poll item rest now resume channel write, event = .proceed poll ∧
      s.mode = .draining (item :: rest) now resume ∧ overdue now item = false ∧
      t.wire = s.wire ++ [.publish channel item.request write]) ∨
    ∃ poll item channel declaration pending resume, event = .declared (.ok ()) poll ∧
      s.mode = .declaring item channel declaration pending resume ∧
      (t.wire = s.wire ++ [.declare channel declaration item.request] ∨ ∃ write, t.wire = s.wire ++
          [.declare channel declaration item.request, .publish channel item.request write]) := by
  cases (step_turns next).logs with
  | stays _ wire _ => exact .inl wire
  | passes passed => exact .inl passed.wire
  | asks => exact .inl rfl
  | @writes poll item rest now resume channel _ draining early _ wrote =>
    rcases wrote.wire with kept | ⟨write, -, appended⟩
    · exact .inl kept
    · exact .inr (.inl ⟨poll, item, rest, now, resume, channel, write, rfl, draining, early, appended⟩)
  | @declares poll item channel declaration pending resume _ declaring wrote =>
    refine .inr (.inr ⟨poll, item, channel, declaration, pending, resume, rfl, declaring, ?_⟩)
    rcases wrote.wire with kept | ⟨write, -, appended⟩
    · exact .inl kept
    · refine .inr ⟨write, appended.trans ?_⟩
      rw [List.append_assoc]
      rfl

theorem step_appends {event : Event} (next : step sha256 settings s event = some t) :
    ∃ new, t.wire = s.wire ++ new ∧ ∀ channel declaration request, .declare channel declaration request ∈ new →
      ∃ result poll item pending resume, event = .declared result poll ∧
        s.mode = .declaring item channel declaration pending resume ∧ item.request = request := by
  rcases step_wire next with kept | ⟨_, _, _, _, _, _, _, -, -, -, appended⟩ |
    ⟨poll, item, channel, declaration, pending, resume, rfl, declaring, appended⟩
  · exact ⟨[], by rw [kept, List.append_nil], fun _ _ _ logged => absurd logged List.not_mem_nil⟩
  · exact ⟨_, appended, by simp⟩
  · have own (channel' : Channel) (declaration' : Declaration) (request : PublishRequest)
        (logged : WireEvent.declare channel' declaration' request = .declare channel declaration item.request) :
        ∃ result' poll' item' pending' resume', Event.declared (.ok ()) poll = .declared result' poll' ∧
          s.mode = .declaring item' channel' declaration' pending' resume' ∧ item'.request = request := by
      obtain ⟨rfl, rfl, rfl⟩ := WireEvent.declare.inj logged
      exact ⟨.ok (), poll, item, pending, resume, rfl, declaring, rfl⟩
    rcases appended with alone | ⟨write, both⟩
    · exact ⟨_, alone, fun channel' declaration' request logged => own _ _ _ (by simpa using logged)⟩
    · exact ⟨_, both, fun channel' declaration' request logged => own _ _ _ (by simpa using logged)⟩

end

/-- The logs of the publisher actors and of the pumps a configuration gets. -/
def Logged (sha256 : Bytes → Bytes) (v : ValidatedConfig) (log : List WireEvent) : Prop :=
  (∃ settings s, settings.delayStrategy = some (DelayStrategy.compile v.config) ∧
    Reachable (machine sha256 settings) s ∧ s.wire = log) ∨
  ∃ settings s, settings.delayStrategy = some (DelayStrategy.compile v.config) ∧
    Reachable (Pump.machine sha256 settings) s ∧ s.wire = log

theorem Logged.honest {sha256 : Bytes → Bytes} {v : ValidatedConfig} {log : List WireEvent}
    (logged : Logged sha256 v log) : Honest sha256 (some (DelayStrategy.compile v.config)) log := by
  rcases logged with ⟨settings, s, configured, reached, rfl⟩ | ⟨settings, s, configured, reached, rfl⟩
  · rw [← configured]
    exact (reachable_honest reached).mirrored.honest
  · rw [← configured]
    exact (Pump.reachable_honest reached).mirrored.honest

/-- A delayed publication that is written honours its delay exactly when the configuration can
express it. -/
theorem delayed_write_honours_iff {sha256 : Bytes → Bytes} {v : ValidatedConfig}
    {before after : List WireEvent} {channel : Channel} {request : PublishRequest}
    {write : TransportPublish}
    (logged : Logged sha256 v (before ++ .publish channel request write :: after))
    (delayed : request.delay ≠ 0) :
    HonoursDelay (DelayStrategy.compile v.config) before request write ↔
      Expressible sha256 v.config before request := by
  have whole := logged.honest
  have split : before ++ .publish channel request write :: after =
      (before ++ [.publish channel request write]) ++ after := by simp
  rw [split] at whole
  exact honoursDelay_iff (Each.initial whole) delayed

def State.lastDelay (s : State) : Option UInt64 :=
  match s.wire.getLast? with
  | some (.publish _ request _) => some request.delay
  | _ => none

theorem lastDelay_split {s : State} {delay : UInt64} (last : s.lastDelay = some delay) :
    ∃ before channel request write,
      s.wire = before ++ [.publish channel request write] ∧ request.delay = delay := by
  unfold State.lastDelay at last
  split at last
  · case h_1 channel request write found =>
    obtain ⟨before, split⟩ := List.getLast?_eq_some_iff.mp found
    exact ⟨before, channel, request, write, split, Option.some.inj last⟩
  · cases last

def mainBroker : BrokerConfig where
  name := "main"
  hosts := [⟨"localhost", 5672⟩]
  vhost := "/"
  credentials := ⟨"guest", "guest"⟩
  heartbeat := .fromSecs 30

/-- SHA-256 of the two inputs behind the name of the delay queue of `orders` for fifty days. -/
def ordersDigest (input : Bytes) : Bytes :=
  if input.length = 7 then
    [78, 158, 146, 142, 97, 255, 183, 84, 214, 195, 195, 71, 165, 7, 164, 245,
    146, 24, 211, 83, 197, 12, 59, 233, 142, 177, 181, 224, 1, 214, 83, 82]
  else
    [38, 129, 148, 38, 247, 185, 220, 186, 42, 69, 151, 4, 101, 203, 169, 244,
    150, 28, 155, 119, 29, 219, 116, 107, 150, 138, 53, 45, 199, 195, 57, 135]

def unconfirmedSettings (strategy : DelayStrategy) : Settings where
  config := { bufferCapacity := 8, confirmTimeout := .fromSecs 30, safety := .unconfirmed }
  delayStrategy := some strategy

def delayedOrder (delay : UInt64) : PublishRequest where
  destination := { exchange := "", routingKey := "orders" }
  payload := [1, 2, 3]
  properties := { messageId := "order-1", delayMs := some delay }
  deadline := 30000000000

def publishDelayed (delay : UInt64) : List Event :=
  [.publish (delayedOrder delay), .receive, .proceed .pending, .declared (.ok ()) (.completed (.ok ()))]

def pluginConfig : Config := { brokers := [mainBroker], workers := [], topologyMode := .declare }

def fiftyDayConfig : Config where
  brokers := [mainBroker]
  workers := []
  topologyMode := .declare
  delay := { mode := .ttl, buckets := [.fromSecs 4320000] }

def pluginOnly : ValidatedConfig := ⟨pluginConfig, pluginConfig, by rfl⟩

def fiftyDays : ValidatedConfig := ⟨fiftyDayConfig, fiftyDayConfig, by rfl⟩

theorem delayedOrder_logged {digest : Bytes → Bytes} {v : ValidatedConfig} {delay : UInt64}
    (ran : (run (machine digest (unconfirmedSettings (DelayStrategy.compile v.config)))
      (fun _ _ => true) (initial (unconfirmedSettings (DelayStrategy.compile v.config))
        { opened := 1, id := 0 }) (publishDelayed delay)).any
      (fun s => s.lastDelay == some delay) = true) :
    ∃ before channel request write, request.delay = delay ∧
      Logged digest v (before ++ [.publish channel request write]) := by
  have fresh : (machine digest (unconfirmedSettings (DelayStrategy.compile v.config))).Initial
      (initial (unconfirmedSettings (DelayStrategy.compile v.config)) { opened := 1, id := 0 }) :=
    ⟨_, rfl⟩
  obtain ⟨s, reached, last⟩ := exists_of_run (fun _ _ _ => trivial) fresh ran
  obtain ⟨before, channel, request, write, split, asked⟩ := lastDelay_split (beq_iff_eq.mp last)
  exact ⟨before, channel, request, write, asked, .inl ⟨_, s, rfl, reached, split⟩⟩

theorem fiveSeconds_honoured : ∃ before channel request write,
    Logged ordersDigest pluginOnly (before ++ [.publish channel request write]) ∧
      request.delay = 5000 ∧ HonoursDelay .plugin before request write := by
  obtain ⟨before, channel, request, write, asked, logged⟩ :=
    @delayedOrder_logged ordersDigest pluginOnly 5000 (by decide +kernel)
  refine ⟨before, channel, request, write, logged, asked, ?_⟩
  have delayed : request.delay ≠ 0 := by
    rw [asked]
    decide
  apply (delayed_write_honours_iff logged delayed).mpr
  change request.delay.toNat ≤ i64Max
  rw [asked]
  decide

/-- The adapter clamps the TTL of a fifty-day queue below the delay it was chosen for. -/
theorem fiftyDays_shortened : ∃ before channel request write,
    fiftyDayConfig.validate = .ok fiftyDays ∧
      Logged ordersDigest fiftyDays (before ++ [.publish channel request write]) ∧
      request.delay = 4300000000 ∧
      ¬HonoursDelay (DelayStrategy.compile fiftyDays.config) before request write := by
  obtain ⟨before, channel, request, write, asked, logged⟩ :=
    @delayedOrder_logged ordersDigest fiftyDays 4300000000 (by decide +kernel)
  refine ⟨before, channel, request, write, rfl, logged, asked, ?_⟩
  rintro ⟨_, _, _, _, _, _, _, ⟨ttl, _, _, _, long, _⟩, _⟩
  have bound := ttl.toNat_lt
  rw [asked] at long
  exact absurd (long.trans_lt bound) (by decide)

end RabbitRs.Publisher
