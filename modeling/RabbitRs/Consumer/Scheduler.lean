import Mathlib.Algebra.Ring.Int.Defs
import Mathlib.Data.List.Basic

/-!
The weighted fair scheduler over ready subscriptions (`consumer/scheduler.rs`).
-/

namespace RabbitRs.Consumer

structure SchedulerEntry where
  id : String
  weight : UInt16
  ready : Bool := false
  credit : Int := 0

structure Scheduler where
  entries : List SchedulerEntry := []
  cursor : Nat := 0

namespace Scheduler

def change (entries : List SchedulerEntry) (id : String) (f : SchedulerEntry → SchedulerEntry) :
    List SchedulerEntry :=
  match entries with
  | [] => []
  | entry :: rest => if entry.id = id then f entry :: rest else entry :: change rest id f

def register (scheduler : Scheduler) (id : String) (weight : UInt16) : Scheduler :=
  if scheduler.entries.any (·.id == id) then
    { scheduler with entries := change scheduler.entries id fun entry => { entry with weight } }
  else { scheduler with entries := scheduler.entries ++ [{ id, weight }] }

def markReady (scheduler : Scheduler) (id : String) : Scheduler :=
  { scheduler with entries := change scheduler.entries id fun entry =>
      if entry.ready then entry else { entry with ready := true, credit := 0 } }

def markEmpty (scheduler : Scheduler) (id : String) : Scheduler :=
  { scheduler with entries := change scheduler.entries id fun entry =>
      { entry with ready := false, credit := 0 } }

def credited (entries : List SchedulerEntry) : List SchedulerEntry :=
  entries.map fun entry =>
    if entry.ready then { entry with credit := entry.credit + entry.weight.toNat } else entry

def totalWeight (entries : List SchedulerEntry) : Int :=
  ((entries.filter (·.ready)).map fun entry => (entry.weight.toNat : Int)).sum

/-- `max_by_key`: of the positions with the highest credit the last one. -/
def choose (entries : List SchedulerEntry) (best : Option (Nat × SchedulerEntry)) :
    List Nat → Option (Nat × SchedulerEntry)
  | [] => best
  | index :: rest =>
    match entries[index]? with
    | some entry =>
      if entry.ready then
        match best with
        | some (_, leader) =>
          choose entries (if leader.credit ≤ entry.credit then some (index, entry) else best) rest
        | none => choose entries (some (index, entry)) rest
      else choose entries best rest
    | none => choose entries best rest

/-- The positions in the order they are looked at, from the cursor round. -/
def rotation (scheduler : Scheduler) : List Nat :=
  (List.range scheduler.entries.length).map fun offset =>
    (scheduler.cursor + offset) % scheduler.entries.length

def pick (scheduler : Scheduler) : Option (String × Scheduler) :=
  let entries := credited scheduler.entries
  (choose entries none scheduler.rotation).map fun (index, entry) =>
    (entry.id,
      { entries := entries.set index { entry with credit := entry.credit - totalWeight scheduler.entries }
        cursor := (index + 1) % scheduler.entries.length })

end Scheduler

end RabbitRs.Consumer
