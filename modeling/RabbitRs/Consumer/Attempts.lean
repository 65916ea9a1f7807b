import RabbitRs.Transport

/-!
Attempt counting (`consumer/attempts.rs`): what a delivery's headers and its redelivered flag say
about how often the message was tried, and the headers a delayed release republishes it under.
-/

namespace RabbitRs.Consumer

def applicationAttemptsHeader : String := "x-rabbit-rs-attempts"

def acquiredCountHeader : String := "x-acquired-count"

def deliveryCountHeader : String := "x-delivery-count"

/-- `u32::from_str`: an optional plus sign and at least one digit, without overflow. -/
def parseU32 (text : Bytes) : Option Nat :=
  let digits := match text with
    | 43 :: rest => rest
    | _ => text
  if digits = [] then none
  else digits.foldlM (fun value byte =>
    if 48 ≤ byte ∧ byte ≤ 57 ∧ value * 10 + (byte.toNat - 48) ≤ u32Max then
      some (value * 10 + (byte.toNat - 48))
    else none) 0

def headerCount (headers : Headers) (name : String) : Option Nat :=
  match headers.lookup name with
  | some (.integer value) =>
    if 0 ≤ value.toInt ∧ value.toInt ≤ u32Max then some value.toInt.toNat else none
  | some (.binary value) => parseU32 value
  | _ => none

def saturatingSucc (count : Nat) : Nat := min (count + 1) u32Max

structure AttemptsError where
  attempts : Nat
  maxAttempts : UInt32
  deriving DecidableEq

def AttemptsError.message (error : AttemptsError) : String :=
  "delivery attempt " ++ toString error.attempts ++ " exceeds the configured maximum of "
    ++ toString error.maxAttempts.toNat

/-- The cap is inclusive; none disables it. -/
def validateAttempts (maxAttempts : Option UInt32) (attempts : Nat) : Except AttemptsError Nat :=
  match maxAttempts with
  | some maximum => if maximum.toNat < attempts then .error ⟨attempts, maximum⟩ else .ok attempts
  | none => .ok attempts

/-- The attempts the broker and the application count: the broker's acquisitions, else its failed
deliveries and this one, else what the redelivered flag tells. -/
def countAttempts (headers : Headers) (redelivered : Bool) : Nat :=
  let acquired := (headerCount headers acquiredCountHeader).map (max 1)
  let failed := (headerCount headers deliveryCountHeader).map saturatingSucc
  let broker := (acquired.or failed).getD (if redelivered then 2 else 1)
  let application := (headerCount headers applicationAttemptsHeader).getD 1
  max (max broker application) 1

def resolveAttempts (maxAttempts : Option UInt32) (headers : Headers) (redelivered : Bool) :
    Except AttemptsError Nat :=
  validateAttempts maxAttempts (countAttempts headers redelivered)

/-- `BTreeMap::insert` on headers in key order. -/
def putHeader (headers : Headers) (name : String) (value : HeaderValue) : Headers :=
  headers.filter (·.1 < name) ++ (name, value) :: headers.filter (name < ·.1)

def delayedHeaders (maxAttempts : Option UInt32) (headers : Headers) (attempts : Nat) :
    Except AttemptsError Headers := do
  let next ← validateAttempts maxAttempts (saturatingSucc attempts)
  let kept := headers.filter fun entry => entry.1 ≠ acquiredCountHeader ∧ entry.1 ≠ deliveryCountHeader
  return putHeader kept applicationAttemptsHeader (.integer (Int64.ofNat next))

end RabbitRs.Consumer
