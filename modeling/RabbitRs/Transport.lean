import Mathlib.Algebra.Group.Nat.Defs
import Mathlib.Data.Nat.Basic
import Mathlib.Order.Lattice

/-!
The transport boundary: declaration specs, publish requests and errors as `transport.rs` defines
them, and the argument tables the AMQP adapter (`transport/lapin.rs`) puts on the wire.
-/

namespace RabbitRs

abbrev Bytes := List UInt8

def u32Max : Nat := 2 ^ 32 - 1

def i64Max : Nat := 2 ^ 63 - 1

/-- `std::time::Duration`: a `u64` of seconds and a nanosecond part. -/
structure Duration where
  nanos : Nat
  bounded : nanos < 2 ^ 64 * 10 ^ 9
  deriving DecidableEq

namespace Duration

def ofNanos (n : Nat) : Duration :=
  ⟨min n (2 ^ 64 * 10 ^ 9 - 1), by omega⟩

def zero : Duration := ofNanos 0

def fromMillis (ms : UInt64) : Duration := ofNanos (ms.toNat * 10 ^ 6)

def fromSecs (secs : UInt64) : Duration := ofNanos (secs.toNat * 10 ^ 9)

def asMillis (d : Duration) : Nat := d.nanos / 10 ^ 6

def saturatingAdd (a b : Duration) : Duration := ofNanos (a.nanos + b.nanos)

theorem nanos_injective : Function.Injective nanos := by
  rintro ⟨a, _⟩ ⟨b, _⟩ same
  simpa using same

instance : LinearOrder Duration := LinearOrder.lift' nanos nanos_injective

theorem le_def {a b : Duration} : a ≤ b ↔ a.nanos ≤ b.nanos := Iff.rfl

theorem fromMillis_nanos (ms : UInt64) : (fromMillis ms).nanos = ms.toNat * 10 ^ 6 := by
  have bound := ms.toNat_lt
  simp only [fromMillis, ofNanos]
  omega

theorem fromMillis_le_iff {ms : UInt64} {d : Duration} : fromMillis ms ≤ d ↔ ms.toNat ≤ d.asMillis := by
  rw [le_def, fromMillis_nanos, asMillis, Nat.le_div_iff_mul_le (by decide)]

end Duration

inductive TransportErrorKind where
  | authentication | configuration | connection | protocol | closed
  deriving DecidableEq

structure TransportError where
  kind : TransportErrorKind
  message : String
  protocolCode : Option UInt16 := none
  deriving DecidableEq

def TransportError.isRecoverable (error : TransportError) : Bool :=
  match error.kind with
  | .connection | .closed => true
  | .authentication | .configuration | .protocol => false

inductive HeaderValue where
  | void
  | boolean (value : Bool)
  | integer (value : Int64)
  | double (bits : UInt64)
  | binary (value : Bytes)
  | array (values : List HeaderValue)
  | table (values : List (String × HeaderValue))
  | decimal (scale : UInt8) (value : UInt32)

namespace HeaderValue

mutual

def decEq (a b : HeaderValue) : Decidable (a = b) :=
  if same : a.ctorIdx = b.ctorIdx then
    match a, b, same with
    | .void, .void, _ => isTrue rfl
    | .boolean x, .boolean y, _ => decidable_of_iff (x = y) (by simp)
    | .integer x, .integer y, _ => decidable_of_iff (x = y) (by simp)
    | .double x, .double y, _ => decidable_of_iff (x = y) (by simp)
    | .binary x, .binary y, _ => decidable_of_iff (x = y) (by simp)
    | .array x, .array y, _ =>
      have := decEqArray x y
      decidable_of_iff (x = y) (by simp)
    | .table x, .table y, _ =>
      have := decEqTable x y
      decidable_of_iff (x = y) (by simp)
    | .decimal s x, .decimal t y, _ => decidable_of_iff (s = t ∧ x = y) (by simp)
  else isFalse fun equal => same (congrArg _ equal)

def decEqArray : (a b : List HeaderValue) → Decidable (a = b)
  | [], [] => isTrue rfl
  | [], _ :: _ | _ :: _, [] => isFalse nofun
  | x :: xs, y :: ys =>
    have := decEq x y
    have := decEqArray xs ys
    decidable_of_iff (x = y ∧ xs = ys) (by simp)

def decEqTable : (a b : List (String × HeaderValue)) → Decidable (a = b)
  | [], [] => isTrue rfl
  | [], _ :: _ | _ :: _, [] => isFalse nofun
  | (k, x) :: xs, (l, y) :: ys =>
    have := decEq x y
    have := decEqTable xs ys
    decidable_of_iff (k = l ∧ x = y ∧ xs = ys) (by simp [and_assoc])

end

instance : DecidableEq HeaderValue := decEq

end HeaderValue

/-- A `BTreeMap` of header values, in key order. -/
abbrev Headers := List (String × HeaderValue)

inductive QueueKind where
  | classic | quorum
  deriving DecidableEq

structure QueueSpec where
  name : String
  durable : Bool
  exclusive : Bool
  autoDelete : Bool
  kind : QueueKind
  deadLetterExchange : Option String
  deadLetterRoutingKey : Option String
  messageTtl : Option Duration
  expires : Option Duration
  deliveryLimit : Option UInt32
  arguments : Headers
  deriving DecidableEq

inductive ExchangeKind where
  | direct | fanout | topic | headers
  | delayed (underlying : ExchangeKind)
  deriving DecidableEq

structure ExchangeSpec where
  name : String
  kind : ExchangeKind
  durable : Bool
  autoDelete : Bool
  internal : Bool
  arguments : Headers
  deriving DecidableEq

structure BindingSpec where
  queue : String
  exchange : String
  routingKey : String
  deriving DecidableEq

structure PublishProperties where
  contentType : Option String
  correlationId : Option String
  messageId : Option String
  delayMs : Option UInt64
  headers : Headers
  persistent : Bool

structure TransportPublish where
  exchange : String
  routingKey : String
  payload : Bytes
  mandatory : Bool
  properties : PublishProperties

inductive AmqpValue where
  | void
  | boolean (value : Bool)
  | shortShortInt (value : Int8)
  | shortShortUInt (value : UInt8)
  | shortInt (value : Int16)
  | shortUInt (value : UInt16)
  | longInt (value : Int32)
  | longUInt (value : UInt32)
  | longLongInt (value : Int64)
  | float (bits : UInt32)
  | double (bits : UInt64)
  | decimalValue (scale : UInt8) (value : UInt32)
  | shortString (value : String)
  | longString (value : Bytes)
  | byteArray (value : Bytes)
  | timestamp (value : UInt64)
  | fieldArray (values : List AmqpValue)
  | fieldTable (values : List (String × AmqpValue))

abbrev FieldTable := List (String × AmqpValue)

/-- `FieldTable::insert`: a later entry of a name replaces the earlier one. -/
def FieldTable.put (table : FieldTable) (name : String) (value : AmqpValue) : FieldTable :=
  (name, value) :: table.filter (fun entry => entry.1 != name)

def FieldTable.putSome (table : FieldTable) (name : String) (value : Option AmqpValue) : FieldTable :=
  match value with
  | some value => table.put name value
  | none => table

theorem lookup_filter_other {key name : String} (other : key ≠ name) (table : FieldTable) :
    (table.filter fun entry => entry.1 != name).lookup key = table.lookup key := by
  induction table with
  | nil => rfl
  | cons entry rest ih =>
    obtain ⟨k, v⟩ := entry
    by_cases dropped : k = name
    · subst dropped
      simpa [List.lookup_cons, beq_eq_false_iff_ne.mpr other] using ih
    · simp only [List.filter_cons, bne_iff_ne, ne_eq, dropped, not_false_eq_true, if_true,
        List.lookup_cons, ih]

theorem FieldTable.lookup_put (table : FieldTable) (name key : String) (value : AmqpValue) :
    (table.put name value).lookup key = if key = name then some value else table.lookup key := by
  by_cases same : key = name
  · simp [put, same]
  · simp only [put, List.lookup_cons, beq_eq_false_iff_ne.mpr same, if_neg same,
      lookup_filter_other same]

theorem FieldTable.lookup_putSome (table : FieldTable) (name key : String) (value : Option AmqpValue) :
    (table.putSome name value).lookup key =
      if key = name then value.or (table.lookup key) else table.lookup key := by
  cases value with
  | none => simp [putSome]
  | some value => simp [putSome, lookup_put]

def longText (text : String) : AmqpValue := .longString text.toUTF8.toList

/-- Milliseconds as the adapter encodes them: a `u32`, clamped. -/
def durationMillis (d : Duration) : UInt32 := (min d.asMillis u32Max).toUInt32

theorem durationMillis_toNat (d : Duration) : (durationMillis d).toNat = min d.asMillis u32Max := by
  have bound : min d.asMillis u32Max < 2 ^ 32 := by unfold u32Max; omega
  simpa [durationMillis] using Nat.mod_eq_of_lt bound

mutual

def publishHeaderValue : HeaderValue → AmqpValue
  | .void => .void
  | .boolean value => .boolean value
  | .integer value => .longLongInt value
  | .double bits => .double bits
  | .binary value => .longString value
  | .array values => .fieldArray (publishHeaderArray values)
  | .table values => .fieldTable (publishHeaderTable values)
  | .decimal scale value => .decimalValue scale value

def publishHeaderArray : List HeaderValue → List AmqpValue
  | [] => []
  | value :: rest => publishHeaderValue value :: publishHeaderArray rest

/-- The keys of a header table are distinct, so inserting them one by one keeps them all. -/
def publishHeaderTable : List (String × HeaderValue) → FieldTable
  | [] => []
  | (name, value) :: rest => (name, publishHeaderValue value) :: publishHeaderTable rest

end

def putHeaders (table : FieldTable) (headers : Headers) : FieldTable :=
  headers.foldl (fun table header => table.put header.1 (publishHeaderValue header.2)) table

def queueArguments (spec : QueueSpec) : FieldTable :=
  let table : FieldTable := if spec.kind = .quorum then [("x-queue-type", longText "quorum")] else []
  let table := table.putSome "x-dead-letter-exchange" (spec.deadLetterExchange.map longText)
  let table := table.putSome "x-dead-letter-routing-key" (spec.deadLetterRoutingKey.map longText)
  let table := table.putSome "x-message-ttl" (spec.messageTtl.map fun ttl => .longUInt (durationMillis ttl))
  let table := table.putSome "x-expires" (spec.expires.map fun age => .longUInt (durationMillis age))
  let table := table.putSome "x-delivery-limit" (spec.deliveryLimit.map .longUInt)
  putHeaders table spec.arguments

def clampI64 (ms : UInt64) : Nat := min ms.toNat i64Max

/-- The header table of `publish_properties`: the caller's headers, then `x-delay`. -/
def publishHeaderFields (properties : PublishProperties) : FieldTable :=
  (putHeaders [] properties.headers).putSome "x-delay"
    (properties.delayMs.map fun ms => .longLongInt (Int64.ofNat (clampI64 ms)))

theorem queueArguments_lookup {spec : QueueSpec} (plain : spec.arguments = []) :
    (queueArguments spec).lookup "x-message-ttl" =
        spec.messageTtl.map (fun ttl => .longUInt (durationMillis ttl)) ∧
      (queueArguments spec).lookup "x-expires" =
        spec.expires.map (fun age => .longUInt (durationMillis age)) ∧
      (queueArguments spec).lookup "x-dead-letter-exchange" = spec.deadLetterExchange.map longText ∧
      (queueArguments spec).lookup "x-dead-letter-routing-key" =
        spec.deadLetterRoutingKey.map longText := by
  simp only [queueArguments, plain, putHeaders, List.foldl_nil, FieldTable.lookup_putSome]
  cases spec.kind <;> simp [List.lookup_cons]

theorem publishHeaderFields_delay (properties : PublishProperties) (ms : UInt64)
    (delayed : properties.delayMs = some ms) :
    (publishHeaderFields properties).lookup "x-delay" =
      some (.longLongInt (Int64.ofNat (clampI64 ms))) := by
  simp [publishHeaderFields, delayed, FieldTable.lookup_putSome]

end RabbitRs
