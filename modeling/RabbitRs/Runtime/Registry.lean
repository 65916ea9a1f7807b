import RabbitRs.Consumer.Subscription
import RabbitRs.Lib.Keyed
import RabbitRs.Lib.Machine

/-!
The process registry of connection pools (`runtime.rs`, `pool/mod.rs`). Owners acquire claims on
shared handles under the registry lock, and release them without it. A step is one access to an
atomic, or what no other task can see.
-/

namespace RabbitRs.Runtime

open StepMachine
open Consumer (ConnectionKey)

/-- The shared client of a handle: not initialised, or in the lifecycle of `ClientPool`. -/
inductive Client where
  | absent | running | closing | closed
  deriving DecidableEq

def Client.torn : Client → Bool
  | .closing | .closed => true
  | .absent | .running => false

structure Handle where
  claims : Nat := 0
  closed : Bool := false
  client : Client := .absent
  deriving DecidableEq

namespace Handle

def addClaim (handle : Handle) : Handle := { handle with claims := handle.claims + 1 }

/-- Whether this was the last claim. A release without a claim is undone. -/
def releaseClaim (handle : Handle) : Bool × Handle :=
  if handle.claims = 0 then (false, handle)
  else (handle.claims == 1, { handle with claims := handle.claims - 1 })

def close (handle : Handle) : Handle := { handle with closed := true }

def initClient (handle : Handle) : Handle :=
  match handle.client with
  | .absent => { handle with client := .running }
  | _ => handle

/-- The start of `ClientPool::close`: a client that closes already is left to whoever closes it. -/
def startClose (handle : Handle) : Handle × Bool :=
  match handle.client with
  | .running => ({ handle with client := .closing }, true)
  | _ => (handle, false)

def finishClose (handle : Handle) : Handle := { handle with client := .closed }

end Handle

structure PoolEntry where
  handle : Nat
  lastUsed : Nat
  deriving DecidableEq

/-- Where an owner's call stands. Up to `holding` it is `acquire`, which closes an evicted pool
before it returns; from `checking` on it is `close_claim` after the last claim was released. -/
inductive Stage where
  | acquiring
  | retiring (victim : Nat)
  | evicting (victim : Nat)
  | awaiting (victim : Nat)
  | holding
  | checking
  | shutting
  | draining
  | leaving
  | gone
  deriving DecidableEq

namespace Stage

def claims : Stage → Bool
  | .acquiring | .retiring _ | .evicting _ | .awaiting _ | .holding => true
  | _ => false

def closes : Stage → Bool
  | .checking | .shutting | .draining | .leaving => true
  | _ => false

def victim : Stage → Option Nat
  | .retiring victim | .evicting victim | .awaiting victim => some victim
  | _ => none

end Stage

/-- A pool object. It releases its claim once: `claim_open` is swapped before. -/
structure Owner where
  handle : Nat
  stage : Stage
  deriving DecidableEq

/-- Who holds the mutex of the registry: an `acquire` that saw an open handle and has not counted
its claim, or one that looks for a pool to evict. -/
inductive Lock where
  | free
  | found (key : ConnectionKey)
  | scanning (owner : Nat) (rest : List ConnectionKey) (oldest : Option (ConnectionKey × Nat))

/-- A call of `RuntimeRegistry::close` on the pools it took: all handles are retired, then all
clients closed. -/
structure Shutdown where
  handles : List Nat
  retired : Nat := 0
  draining : List Nat := []

structure State where
  handles : List Handle := []
  pools : AList (fun _ : ConnectionKey => PoolEntry) := ∅
  lock : Lock := .free
  owners : List Owner := []
  shutdowns : List Shutdown := []

inductive Event where
  | acquire (key : ConnectionKey) (now : Nat)
  | claim (now : Nat)
  | scan
  | retireVictim (owner : Nat)
  | evict (owner : Nat)
  | evicted (owner : Nat) (inTime : Bool)
  | client (owner : Nat)
  | drop (owner : Nat)
  | close (owner : Nat)
  | check (owner : Nat)
  | shut (owner : Nat)
  | drained (owner : Nat)
  | leave (owner : Nat)
  | shutdown
  | retire (task : Nat)
  | shutClient (task serial : Nat)
  | shutDone (task serial : Nat)

def maxPools : Nat := 16

namespace State

def isClosed (s : State) (serial : Nat) : Bool := s.handles[serial]?.any (·.closed)

def setOwner (s : State) (i : Nat) (owner : Owner) : State := { s with owners := s.owners.set i owner }

def setHandle (s : State) (serial : Nat) (handle : Handle) : State :=
  { s with handles := s.handles.set serial handle }

/-- A new handle under the key, with the claim of the caller; past the cap a victim is looked for. -/
def openPool (s : State) (key : ConnectionKey) (now : Nat) : State :=
  let serial := s.handles.length
  let pools := s.pools.insert key { handle := serial, lastUsed := now }
  let fits := pools.entries.length ≤ maxPools
  { s with
    handles := s.handles ++ [Handle.addClaim {}]
    pools
    owners := s.owners ++ [{ handle := serial, stage := if fits then .holding else .acquiring }]
    lock := if fits then .free else .scanning s.owners.length pools.keys none }

/-- `min_by_key` keeps the first of the oldest pools without claims. -/
def consider (s : State) (key : ConnectionKey) (oldest : Option (ConnectionKey × Nat)) :
    Option (ConnectionKey × Nat) :=
  match s.pools.lookup key with
  | none => oldest
  | some entry =>
    if s.handles[entry.handle]?.any (·.claims == 0) then
      match oldest with
      | none => some (key, entry.lastUsed)
      | some (first, lastUsed) =>
        if entry.lastUsed < lastUsed then some (key, entry.lastUsed) else some (first, lastUsed)
    else oldest

def takeVictim (s : State) (i : Nat) (owner : Owner) (oldest : Option (ConnectionKey × Nat)) : State :=
  match oldest.bind fun found => (s.pools.lookup found.1).map fun entry => (found.1, entry) with
  | none => { s.setOwner i { owner with stage := .holding } with lock := .free }
  | some (key, entry) =>
    { s.setOwner i { owner with stage := .retiring entry.handle } with
      pools := s.pools.erase key
      lock := .free }

def onHandle (s : State) (i : Nat) (owner : Owner) (serial : Nat) (act : Handle → Handle × Stage) :
    Option State :=
  s.handles[serial]?.map fun handle =>
    (s.setHandle serial (act handle).1).setOwner i { owner with stage := (act handle).2 }

end State

@[simp] def step (s : State) : Event → Option State
  | .acquire key now =>
    match s.lock with
    | .free =>
      match s.pools.lookup key with
      | some entry =>
        if s.isClosed entry.handle then some (s.openPool key now) else some { s with lock := .found key }
      | none => some (s.openPool key now)
    | _ => none
  | .claim now =>
    match s.lock with
    | .found key =>
      (s.pools.lookup key).bind fun entry => s.handles[entry.handle]?.map fun handle =>
        { s.setHandle entry.handle handle.addClaim with
          pools := s.pools.insert key { entry with lastUsed := now }
          owners := s.owners ++ [{ handle := entry.handle, stage := .holding }]
          lock := .free }
    | _ => none
  | .scan =>
    match s.lock with
    | .scanning i (key :: rest) oldest => some { s with lock := .scanning i rest (s.consider key oldest) }
    | .scanning i [] oldest =>
      s.owners[i]?.bind fun owner =>
        match owner.stage with
        | .acquiring => some (s.takeVictim i owner oldest)
        | _ => none
    | _ => none
  | .retireVictim i =>
    s.owners[i]?.bind fun owner =>
      match owner.stage with
      | .retiring victim => s.onHandle i owner victim fun handle => (handle.close, .evicting victim)
      | _ => none
  | .evict i =>
    s.owners[i]?.bind fun owner =>
      match owner.stage with
      | .evicting victim => s.onHandle i owner victim fun handle =>
          (handle.startClose.1, if handle.startClose.2 then .awaiting victim else .holding)
      | _ => none
  | .evicted i inTime =>
    s.owners[i]?.bind fun owner =>
      match owner.stage with
      | .awaiting victim => s.onHandle i owner victim fun handle =>
          (if inTime then handle.finishClose else handle, .holding)
      | _ => none
  | .client i =>
    s.owners[i]?.bind fun owner =>
      match owner.stage with
      | .holding => s.onHandle i owner owner.handle fun handle => (handle.initClient, .holding)
      | _ => none
  | .drop i =>
    s.owners[i]?.bind fun owner =>
      match owner.stage with
      | .holding => s.onHandle i owner owner.handle fun handle => (handle.releaseClaim.2, .gone)
      | _ => none
  | .close i =>
    s.owners[i]?.bind fun owner =>
      match owner.stage with
      | .holding => s.onHandle i owner owner.handle fun handle =>
          (handle.releaseClaim.2, if handle.releaseClaim.1 then .checking else .gone)
      | _ => none
  | .check i =>
    s.owners[i]?.bind fun owner =>
      match owner.stage with
      | .checking => s.onHandle i owner owner.handle fun handle =>
          (handle, if handle.closed then .leaving else .shutting)
      | _ => none
  | .shut i =>
    s.owners[i]?.bind fun owner =>
      match owner.stage with
      | .shutting => s.onHandle i owner owner.handle fun handle =>
          (handle.startClose.1, if handle.startClose.2 then .draining else .leaving)
      | _ => none
  | .drained i =>
    s.owners[i]?.bind fun owner =>
      match owner.stage with
      | .draining => s.onHandle i owner owner.handle fun handle => (handle.finishClose, .leaving)
      | _ => none
  | .leave i =>
    s.owners[i]?.bind fun owner =>
      match owner.stage with
      | .leaving => s.onHandle i owner owner.handle fun handle => (handle.close, .gone)
      | _ => none
  | .shutdown =>
    match s.lock with
    | .free => some { s with
        pools := ∅
        shutdowns := s.shutdowns ++ [{ handles := (Keyed.values s.pools).map (·.handle) }] }
    | _ => none
  | .retire task =>
    s.shutdowns[task]?.bind fun shutdown => shutdown.handles[shutdown.retired]?.bind fun serial =>
      s.handles[serial]?.map fun handle =>
        { s.setHandle serial handle.close with
          shutdowns := s.shutdowns.set task { shutdown with retired := shutdown.retired + 1 } }
  | .shutClient task serial =>
    s.shutdowns[task]?.bind fun shutdown =>
      if shutdown.retired = shutdown.handles.length ∧ serial ∈ shutdown.handles then
        s.handles[serial]?.map fun handle =>
          { s.setHandle serial handle.startClose.1 with
            shutdowns := s.shutdowns.set task { shutdown with
              draining := if handle.startClose.2 then serial :: shutdown.draining else shutdown.draining } }
      else none
  | .shutDone task serial =>
    s.shutdowns[task]?.bind fun shutdown =>
      if serial ∈ shutdown.handles ∧ serial ∈ shutdown.draining then
        s.handles[serial]?.map fun handle =>
          { s.setHandle serial handle.finishClose with
            shutdowns := s.shutdowns.set task { shutdown with draining := shutdown.draining.erase serial } }
      else none

def machine : Machine State Event where
  Initial s := s = {}
  step := step

end RabbitRs.Runtime
