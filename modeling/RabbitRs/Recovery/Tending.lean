import RabbitRs.Recovery.KeepAlive

/-!
The keep-alive reaches every delay queue in time: a queue that was declared for a covered
destination has been used since the last complete tick started.
-/

namespace RabbitRs.KeepAlive

open StepMachine History
open Publisher (WireEvent Honest Justified declaredNames)
open Establishment (requestProfile)

def bucketExpiry (plan : TtlBucketPlan) (bucket : Duration) : Nat :=
  (durationMillis (bucket.saturatingAdd plan.expiryMargin)).toNat * 10 ^ 6

theorem expiry_delayQueueSpec (sha256 : Bytes → Bytes) (plan : TtlBucketPlan) (destination : Destination)
    (bucket : Duration) :
    expiry (plan.delayQueueSpec sha256 destination bucket) = some (bucketExpiry plan bucket) := by
  unfold expiry bucketExpiry
  rw [(Publisher.delayQueueSpec_encoded plan destination bucket).2]

theorem bucketExpiry_pos (plan : TtlBucketPlan) (bucket : Duration) : 0 < bucketExpiry plan bucket := by
  have margin := Publisher.margin_nanos plan
  have age : 0 < (durationMillis (bucket.saturatingAdd plan.expiryMargin)).toNat := by
    rw [durationMillis_toNat]
    simp only [Duration.asMillis, Duration.saturatingAdd, Duration.ofNanos, u32Max]
    omega
  exact Nat.mul_pos age (by decide)

section

variable {v : ValidatedConfig} {broker : String} {plan : TtlBucketPlan} {requested : List WorkerProfile}
  {destination : Destination}

theorem mem_keep {known routed : List Destination} : destination ∈ routed.foldl
        (fun known destination => if known.contains destination then known else known ++ [destination]) known ↔
      destination ∈ known ∨ destination ∈ routed := by
  induction routed generalizing known with
  | nil => simp
  | cons first rest ih =>
    rw [List.foldl_cons, ih]
    split
    · case isTrue listed =>
      have old : first ∈ known := by simpa using listed
      grind
    · grind

theorem keepAliveDestinations_request (worker : WorkerProfile)
    (covered : destination ∈ keepAliveDestinations v broker requested) :
    destination ∈ keepAliveDestinations v broker (requestProfile v requested worker) := by
  unfold keepAliveDestinations at covered ⊢
  rw [mem_keep] at covered ⊢
  refine covered.imp_left fun retried => ?_
  obtain ⟨known, listed, hosted⟩ := List.mem_flatMap.mp retried
  refine List.mem_flatMap.mpr ⟨known, ?_, hosted⟩
  unfold requestProfile
  split
  · exact listed
  · exact (List.mem_orderedInsert _).mpr (.inr listed)

variable {sha256 : Bytes → Bytes}

theorem mem_tended {bucket : Duration} (covered : destination ∈ keepAliveDestinations v broker requested)
    (member : bucket ∈ plan.buckets) :
    plan.delayQueueSpec sha256 destination bucket ∈ tended sha256 v broker plan requested := by
  refine List.mem_flatMap.mpr ⟨destination, covered, List.mem_filterMap.mpr ⟨bucket, member, ?_⟩⟩
  have found : plan.bucketFor bucket = .ok bucket := by
    cases searched : plan.bucketFor bucket with
    | error error => exact absurd (TtlBucketPlan.bucketFor_error searched bucket member) (lt_irrefl bucket)
    | ok found =>
      obtain ⟨_, above, least⟩ := TtlBucketPlan.bucketFor_ok searched
      rw [le_antisymm (least bucket member le_rfl) above]
  rw [(TtlBucketPlan.queueFor_ok sha256).mpr ⟨bucket, found, rfl⟩]
  rfl

end

section

variable {sha256 : Bytes → Bytes} {v : ValidatedConfig} {broker : String} {plan : TtlBucketPlan}
  {actorSettings : Publisher.Settings} {pumpSettings : Pump.Settings} {s t : System} {names : List String}

def Alive (plan : TtlBucketPlan) (s : System) (name : String) : Prop :=
  ∃ queue bucket, bucket ∈ plan.buckets ∧ s.queues.lookup name = some queue ∧
    expiry queue.spec = some (bucketExpiry plan bucket) ∧ s.kept ≤ queue.used ∧
    ∀ pass, s.pass = some pass → pass.clean = true →
      (∃ spec ∈ pass.rest, spec.name = name) ∨ pass.started ≤ queue.used

structure Minded (sha256 : Bytes → Bytes) (v : ValidatedConfig) (broker : String) (plan : TtlBucketPlan)
    (s : System) (names : List String) : Prop where
  fresh : ∀ bucket ∈ plan.buckets, s.clock < s.kept + bucketExpiry plan bucket
  kept : s.kept ≤ s.clock
  started : ∀ pass, s.pass = some pass → s.kept ≤ pass.started ∧ pass.started ≤ s.clock
  alive : ∀ name ∈ names, Alive plan s name
  covered : ∀ name ∈ names, ∃ spec ∈ tended sha256 v broker plan s.requested, spec.name = name
  astray : s.astray = []

theorem Minded.hasQueue {name : String} (minded : Minded sha256 v broker plan s names) (member : name ∈ names) :
    s.hasQueue name = true := by
  obtain ⟨queue, bucket, listed, found, age, used, _⟩ := minded.alive name member
  have early : s.clock < queue.used + bucketExpiry plan bucket :=
    (minded.fresh bucket listed).trans_le (Nat.add_le_add_right used _)
  unfold System.hasQueue
  rw [found, Option.any_some, Queue.lives, age, Option.all_some]
  exact decide_eq_true early

theorem Alive.used {name : String} {spec : QueueSpec} {bucket : Duration}
    (minded : Minded sha256 v broker plan s names) (member : bucket ∈ plan.buckets)
    (age : expiry spec = some (bucketExpiry plan bucket)) :
    Alive plan { s with queues := s.queues.insert name { spec, used := s.clock } } name := by
  refine ⟨_, bucket, member, AList.lookup_insert _, age, minded.kept, fun pass running _ => .inr ?_⟩
  exact (minded.started pass running).2

theorem Alive.insert {name other : String} {queue : Queue} (alive : Alive plan s other) (different : other ≠ name) :
    Alive plan { s with queues := s.queues.insert name queue } other := by
  obtain ⟨known, bucket, member, found, rest⟩ := alive
  exact ⟨known, bucket, member, (AList.lookup_insert_ne different).trans found, rest⟩

theorem Minded.declare {spec : QueueSpec} {bucket : Duration} (minded : Minded sha256 v broker plan s names)
    (member : bucket ∈ plan.buckets) (age : expiry spec = some (bucketExpiry plan bucket))
    (covered : spec ∈ tended sha256 v broker plan s.requested) :
    Minded sha256 v broker plan (s.declare spec) (names ++ [spec.name]) := by
  refine ⟨minded.fresh, minded.kept, minded.started, ?_, ?_, minded.astray⟩
  · intro name listed
    by_cases same : name = spec.name
    · rw [same]
      exact Alive.used minded member age
    · have old : name ∈ names := by simpa [same] using listed
      exact (minded.alive name old).insert same
  · intro name listed
    rcases List.mem_append.mp listed with old | new
    · exact minded.covered name old
    · exact ⟨spec, covered, (List.mem_singleton.mp new).symm⟩

theorem Minded.observe {before : List WireEvent} {event : WireEvent} (minded : Minded sha256 v broker plan s names)
    (justified : Justified sha256 (some (.ttlBuckets plan)) before event) (known : declaredNames before ⊆ names)
    (covered : ∀ channel declaration request, event = .declare channel declaration request →
      request.destination ∈ keepAliveDestinations v broker s.requested)
    (observed : s.observe event = some t) :
    Minded sha256 v broker plan t (names ++ event.declaredName.toList) := by
  cases event with
  | declare channel declaration request =>
    obtain ⟨chosen, route, same, _, routed, rfl, _⟩ := justified
    cases same
    obtain ⟨bucket, found, queue, _⟩ := (routeRequested_shape sha256 routed).2
    have infrastructure : route.infrastructure = .queue (plan.delayQueueSpec sha256 request.destination bucket) := by
      simp only [DelayedRoute.infrastructure, queue]
    have member := (TtlBucketPlan.bucketFor_ok found).1
    simp only [System.observe, infrastructure] at observed
    split at observed <;> cases observed
    simp only [WireEvent.declaredName, infrastructure]
    exact minded.declare member (expiry_delayQueueSpec ..) (mem_tended (covered channel _ request rfl) member)
  | publish channel request write =>
    simp only [System.observe] at observed
    rw [WireEvent.declaredName, Option.toList_none, List.append_nil]
    split at observed
    case isFalse =>
      cases observed
      exact minded
    case isTrue gone =>
      -- a delayed write goes to a queue declared before, and that one is alive
      obtain ⟨⟨mandatory, written⟩, declared⟩ := justified
      simp only [Bool.and_eq_true, decide_eq_true_eq, Bool.not_eq_true'] at gone
      obtain ⟨⟨delayed, _⟩, absent⟩ := gone
      obtain ⟨route, routed, rfl⟩ := (routeTransportRequest_delayed sha256 delayed).mp written
      obtain ⟨bucket, _, queue, _, key⟩ := (routeRequested_shape sha256 routed).2
      have listed := known (declared _ route rfl delayed routed)
      have name : route.infrastructure.name = route.routingKey := by
        simp only [DelayedRoute.infrastructure, queue, Declaration.name, key]
        rfl
      rw [name] at listed
      cases absent.symm.trans (minded.hasQueue listed)

theorem observe_frame {event : WireEvent} (observed : s.observe event = some t) :
    t.actor = s.actor ∧ t.pump = s.pump ∧ t.requested = s.requested := by
  unfold System.observe at observed
  split at observed
  · cases observed
    exact ⟨rfl, rfl, rfl⟩
  · split at observed <;> cases observed
    exact ⟨rfl, rfl, rfl⟩
  · split at observed <;> cases observed <;> exact ⟨rfl, rfl, rfl⟩

theorem Minded.observeAll {before new : List WireEvent} (minded : Minded sha256 v broker plan s names)
    (honest : Honest sha256 (some (.ttlBuckets plan)) (before ++ new)) (known : declaredNames before ⊆ names)
    (covered : ∀ channel declaration request, .declare channel declaration request ∈ new →
      request.destination ∈ keepAliveDestinations v broker s.requested)
    (observed : new.foldlM System.observe s = some t) :
    Minded sha256 v broker plan t (names ++ declaredNames new) ∧
      t.actor = s.actor ∧ t.pump = s.pump ∧ t.requested = s.requested := by
  induction new generalizing before s names with
  | nil =>
    cases observed
    exact ⟨by simpa [declaredNames] using minded, rfl, rfl, rfl⟩
  | cons event rest ih =>
    obtain ⟨middle, first, later⟩ := Option.bind_eq_some_iff.mp observed
    obtain ⟨actor, pump, requested⟩ := observe_frame first
    have justified := honest before event rest rfl
    have split : declaredNames (before ++ [event]) = declaredNames before ++ event.declaredName.toList := by
      cases named : event.declaredName <;> simp [declaredNames, named]
    have mindful := minded.observe justified known
      (fun channel declaration request same => covered channel declaration request (same ▸ List.mem_cons_self)) first
    have onward : Honest sha256 (some (.ttlBuckets plan)) ((before ++ [event]) ++ rest) := by simpa using honest
    have listed : declaredNames (before ++ [event]) ⊆ names ++ event.declaredName.toList := by
      rw [split]
      exact List.append_subset.mpr
        ⟨List.Subset.trans known (List.subset_append_left _ _), List.subset_append_right _ _⟩
    obtain ⟨done, actor', pump', requested'⟩ := ih mindful onward listed (fun channel declaration request member =>
      requested ▸ covered channel declaration request (List.mem_cons_of_mem _ member)) later
    refine ⟨?_, actor'.trans actor, pump'.trans pump, requested'.trans requested⟩
    have joined : declaredNames (event :: rest) = event.declaredName.toList ++ declaredNames rest := by
      cases named : event.declaredName <;> simp [declaredNames, named]
    rwa [joined, ← List.append_assoc]

theorem Minded.subset {fewer : List String} (minded : Minded sha256 v broker plan s names) (less : fewer ⊆ names) :
    Minded sha256 v broker plan s fewer :=
  { minded with
    alive := fun name member => minded.alive name (less member)
    covered := fun name member => minded.covered name (less member) }

theorem verify_frame (s : System) (name : String) : ∃ queues, s.verify name = { s with queues } ∧
    ∀ other, other ≠ name → queues.lookup other = s.queues.lookup other := by
  unfold System.verify
  split
  · split
    · exact ⟨_, rfl, fun other different => AList.lookup_insert_ne different⟩
    · exact ⟨s.queues, rfl, fun _ _ => rfl⟩
  · exact ⟨s.queues, rfl, fun _ _ => rfl⟩

theorem verify_lookup {name : String} {queue : Queue} (found : s.queues.lookup name = some queue)
    (there : s.hasQueue name = true) : (s.verify name).queues.lookup name = some { queue with used := s.clock } := by
  unfold System.hasQueue at there
  rw [found, Option.any_some] at there
  unfold System.verify
  rw [found]
  simp only [there, if_true]
  exact AList.lookup_insert _

theorem Minded.redeclare {started : Nat} {spec : QueueSpec} {rest : List QueueSpec} {clean : Bool}
    (minded : Minded sha256 v broker plan s names) (running : s.pass = some { started, rest := spec :: rest, clean }) :
    Minded sha256 v broker plan { s.verify spec.name with pass := some { started, rest, clean } } names := by
  obtain ⟨queues, same, others⟩ := verify_frame s spec.name
  obtain ⟨first, last⟩ := minded.started _ running
  refine ⟨by rw [same]; exact minded.fresh, by rw [same]; exact minded.kept, ?_, ?_, by rw [same]; exact minded.covered,
    by rw [same]; exact minded.astray⟩
  · rintro _ ⟨⟩
    rw [same]
    exact ⟨first, last⟩
  · intro name member
    obtain ⟨queue, bucket, listed, found, age, used, ahead⟩ := minded.alive name member
    by_cases own : name = spec.name
    · -- it is there, so it was used just now
      subst own
      refine ⟨_, bucket, listed, verify_lookup found (minded.hasQueue member), age, ?_, ?_⟩
      · rw [same]
        exact minded.kept
      · rintro _ ⟨⟩ _
        exact .inr last
    · refine ⟨queue, bucket, listed, ?_, age, by rw [same]; exact used, ?_⟩
      · rw [same]
        exact (others name own).trans found
      · rintro _ ⟨⟩ tidy
        rcases ahead _ running tidy with ⟨other, waiting, named⟩ | done
        · refine .inl ⟨other, (List.mem_cons.mp waiting).resolve_left ?_, named⟩
          rintro rfl
          exact own named.symm
        · exact .inr done

theorem Minded.missed {started : Nat} {spec : QueueSpec} {rest : List QueueSpec} {clean : Bool}
    (minded : Minded sha256 v broker plan s names) (running : s.pass = some { started, rest := spec :: rest, clean }) :
    Minded sha256 v broker plan { s with pass := some { started, rest, clean := false } } names := by
  have bounds := minded.started _ running
  refine { minded with started := ?_, alive := ?_ }
  · rintro _ ⟨⟩
    exact bounds
  · intro name member
    obtain ⟨queue, bucket, listed, found, age, used, _⟩ := minded.alive name member
    refine ⟨queue, bucket, listed, found, age, used, ?_⟩
    rintro _ ⟨⟩ tidy
    cases tidy

theorem Minded.begins {due : Nat} (minded : Minded sha256 v broker plan s names) :
    Minded sha256 v broker plan { s with
      due, pass := some { started := s.clock, rest := tended sha256 v broker plan s.requested } } names := by
  refine { minded with started := ?_, alive := ?_ }
  · rintro _ ⟨⟩
    exact ⟨minded.kept, le_rfl⟩
  · intro name member
    obtain ⟨queue, bucket, listed, found, age, used, _⟩ := minded.alive name member
    refine ⟨queue, bucket, listed, found, age, used, ?_⟩
    rintro _ ⟨⟩ _
    exact .inl (minded.covered name member)

theorem Minded.stops (minded : Minded sha256 v broker plan s names) :
    Minded sha256 v broker plan { s with pass := none } names := by
  refine { minded with started := nofun, alive := ?_ }
  intro name member
  obtain ⟨queue, bucket, listed, found, age, used, _⟩ := minded.alive name member
  exact ⟨queue, bucket, listed, found, age, used, nofun⟩

theorem Minded.finishes {started : Nat} (minded : Minded sha256 v broker plan s names)
    (running : s.pass = some { started, rest := [] }) :
    Minded sha256 v broker plan { s with pass := none, kept := started } names := by
  obtain ⟨first, last⟩ := minded.started _ running
  refine { minded with fresh := ?_, kept := last, started := nofun, alive := ?_ }
  · intro bucket listed
    exact (minded.fresh bucket listed).trans_le (Nat.add_le_add_right first _)
  · intro name member
    obtain ⟨queue, bucket, listed, found, age, _, ahead⟩ := minded.alive name member
    refine ⟨queue, bucket, listed, found, age, ?_, nofun⟩
    rcases ahead _ running rfl with ⟨_, waiting, _⟩ | done
    · cases waiting
    · exact done

/-- The publication a queue is declared for has a covered destination, and the last complete tick
never gets as old as the shortest `x-expires`. -/
def Kept (v : ValidatedConfig) (broker : String) (plan : TtlBucketPlan) (s : System) : Event → Prop
  | .advance nanos => ∀ bucket ∈ plan.buckets, s.clock + nanos < s.kept + bucketExpiry plan bucket
  | .actor (.declared _ _) => ∀ item channel declaration pending resume,
      s.actor.mode = .declaring item channel declaration pending resume →
      item.request.destination ∈ keepAliveDestinations v broker s.requested
  | .pump (.declared _) => ∀ request channel declaration write,
      s.pump.mode = .declaring request channel declaration write →
      request.destination ∈ keepAliveDestinations v broker s.requested
  | _ => True

structure Sound (sha256 : Bytes → Bytes) (v : ValidatedConfig) (broker : String) (plan : TtlBucketPlan)
    (actorSettings : Publisher.Settings) (pumpSettings : Pump.Settings) (s : System) : Prop where
  actor : Reachable (Publisher.machine sha256 actorSettings) s.actor
  pump : Reachable (Pump.machine sha256 pumpSettings) s.pump
  minded : Minded sha256 v broker plan s (declaredNames s.actor.wire ++ declaredNames s.pump.wire)

theorem declaredNames_append (before new : List WireEvent) :
    declaredNames (before ++ new) = declaredNames before ++ declaredNames new := List.filterMap_append ..

theorem Sound.actorStep {event : Publisher.Event} {actor : Publisher.State}
    (configured : actorSettings.delayStrategy = some (.ttlBuckets plan))
    (sound : Sound sha256 v broker plan actorSettings pumpSettings s) (kept : Kept v broker plan s (.actor event))
    (stepped : Publisher.step sha256 actorSettings s.actor event = some actor)
    (observed : (actor.wire.drop s.actor.wire.length).foldlM System.observe { s with actor } = some t) :
    Sound sha256 v broker plan actorSettings pumpSettings t := by
  have reached := sound.actor.next stepped
  have honest := (Publisher.reachable_honest reached).mirrored.honest
  rw [configured] at honest
  obtain ⟨new, wire, declares⟩ := Publisher.step_appends stepped
  rw [wire, List.drop_left] at observed
  rw [wire] at honest
  have start : Minded sha256 v broker plan { s with actor } (declaredNames s.actor.wire ++ declaredNames s.pump.wire) :=
    { sound.minded with }
  obtain ⟨minded, same, pump, _⟩ := start.observeAll honest (List.subset_append_left _ _)
    (fun channel declaration request logged => by
      obtain ⟨result, poll, item, pending, resume, rfl, declaring, rfl⟩ := declares channel declaration request logged
      exact kept item channel declaration pending resume declaring) observed
  refine ⟨same ▸ reached, pump ▸ sound.pump, minded.subset ?_⟩
  rw [same, pump, wire, declaredNames_append]
  intro name member
  simp only [List.mem_append] at member ⊢
  tauto

theorem Sound.pumpStep {event : Pump.Event} {pump : Pump.State}
    (configured : pumpSettings.delayStrategy = some (.ttlBuckets plan))
    (sound : Sound sha256 v broker plan actorSettings pumpSettings s) (kept : Kept v broker plan s (.pump event))
    (stepped : Pump.step sha256 pumpSettings s.pump event = some pump)
    (observed : (pump.wire.drop s.pump.wire.length).foldlM System.observe { s with pump } = some t) :
    Sound sha256 v broker plan actorSettings pumpSettings t := by
  have reached := sound.pump.next stepped
  have honest := (Pump.reachable_honest reached).mirrored.honest
  rw [configured] at honest
  obtain ⟨new, wire, declares⟩ := Pump.step_appends stepped
  rw [wire, List.drop_left] at observed
  rw [wire] at honest
  have start : Minded sha256 v broker plan { s with pump } (declaredNames s.actor.wire ++ declaredNames s.pump.wire) :=
    { sound.minded with }
  obtain ⟨minded, actor, same, _⟩ := start.observeAll honest (List.subset_append_right _ _)
    (fun channel declaration request logged => by
      obtain ⟨result, write, rfl, declaring⟩ := declares channel declaration request logged
      exact kept request channel declaration write declaring) observed
  refine ⟨actor ▸ sound.actor, same ▸ reached, minded.subset ?_⟩
  rw [same, actor, wire, declaredNames_append, List.append_assoc]
  exact List.Subset.refl _

theorem Sound.step {event : Event} (actorConfigured : actorSettings.delayStrategy = some (.ttlBuckets plan))
    (pumpConfigured : pumpSettings.delayStrategy = some (.ttlBuckets plan))
    (sound : Sound sha256 v broker plan actorSettings pumpSettings s) (kept : Kept v broker plan s event)
    (stepped : step sha256 v broker plan actorSettings pumpSettings s event = some t) :
    Sound sha256 v broker plan actorSettings pumpSettings t := by
  obtain ⟨actor, pump, minded⟩ := sound
  cases event with
  | advance nanos =>
    simp only [KeepAlive.step, Option.map_eq_some_iff] at stepped
    obtain ⟨later, ticked, rfl⟩ := stepped
    have onward := actor.next (e := Publisher.Event.tick nanos) ticked
    cases ticked
    refine ⟨onward, pump, { minded with fresh := kept, kept := ?_, started := ?_ }⟩
    · exact minded.kept.trans (Nat.le_add_right _ _)
    · intro pass running
      exact ⟨(minded.started pass running).1, (minded.started pass running).2.trans (Nat.le_add_right _ _)⟩
  | actor event =>
    have taken : ∃ after, Publisher.step sha256 actorSettings s.actor event = some after ∧
        (after.wire.drop s.actor.wire.length).foldlM System.observe { s with actor := after } = some t := by
      cases event with
      | tick nanos => cases stepped
      | _ => exact Option.bind_eq_some_iff.mp stepped
    obtain ⟨after, stepped, observed⟩ := taken
    exact Sound.actorStep actorConfigured ⟨actor, pump, minded⟩ kept stepped observed
  | pump event =>
    obtain ⟨after, stepped, observed⟩ := Option.bind_eq_some_iff.mp stepped
    exact Sound.pumpStep pumpConfigured ⟨actor, pump, minded⟩ kept stepped observed
  | request worker =>
    cases stepped
    refine ⟨actor, pump, { minded with covered := fun name member => ?_ }⟩
    obtain ⟨spec, listed, named⟩ := minded.covered name member
    obtain ⟨destination, covered, queued⟩ := List.mem_flatMap.mp listed
    exact ⟨spec, List.mem_flatMap.mpr ⟨destination, keepAliveDestinations_request worker covered, queued⟩, named⟩
  | begin =>
    simp only [KeepAlive.step] at stepped
    split at stepped
    case h_1 =>
      split at stepped <;> cases stepped
      exact ⟨actor, pump, minded.begins⟩
    case h_2 => cases stepped
  | redeclare reached =>
    simp only [KeepAlive.step] at stepped
    split at stepped <;> cases stepped
    case h_1 started spec rest clean running =>
      cases reached with
      | true =>
        obtain ⟨queues, same, _⟩ := verify_frame s spec.name
        have tidy := minded.redeclare running
        simp only [if_true, Bool.and_true]
        rw [same] at tidy ⊢
        exact ⟨actor, pump, tidy⟩
      | false =>
        rw [Bool.and_false]
        exact ⟨actor, pump, minded.missed running⟩
  | finish =>
    simp only [KeepAlive.step] at stepped
    split at stepped <;> cases stepped
    case h_1 started clean running =>
      cases clean with
      | true => exact ⟨actor, pump, minded.finishes running⟩
      | false => exact ⟨actor, pump, minded.stops⟩
  | abandon =>
    simp only [KeepAlive.step] at stepped
    split at stepped <;> cases stepped
    exact ⟨actor, pump, minded.stops⟩

/-- Whenever the actor or the pump wrote a delayed publication, the delay queue it goes through was
there, as long as the keep-alive covers what is declared and its ticks are in time. -/
theorem delay_queues_outlive_cache
    (ttl : DelayStrategy.compile v.config = .ttlBuckets plan)
    (actorConfigured : actorSettings.delayStrategy = some (DelayStrategy.compile v.config))
    (pumpConfigured : pumpSettings.delayStrategy = some (DelayStrategy.compile v.config))
    (reached : Reaches (machine sha256 v broker plan actorSettings pumpSettings) (Kept v broker plan) s) :
    s.astray = [] := by
  rw [ttl] at actorConfigured pumpConfigured
  have preserved : Preserves (machine sha256 v broker plan actorSettings pumpSettings) (Kept v broker plan)
      (fun _ => True) (Sound sha256 v broker plan actorSettings pumpSettings) :=
    fun _ sound kept stepped => sound.step actorConfigured pumpConfigured kept stepped
  have sound : Sound sha256 v broker plan actorSettings pumpSettings s := by
    refine Reaches.invariant ?_ preserved reached
    rintro _ ⟨channel, slot, due, rfl⟩
    refine ⟨.start ⟨channel, rfl⟩, .start ⟨slot, rfl⟩, fun bucket _ => ?_, le_rfl, nofun, ?_, ?_, rfl⟩
    · rw [Nat.zero_add]
      exact bucketExpiry_pos plan bucket
    all_goals exact fun _ member => absurd member List.not_mem_nil
  exact sound.minded.astray

end

def sparsePlan : TtlBucketPlan where
  buckets := [.fromSecs 1]
  expiryMargin := .fromSecs 2
  sorted := List.pairwise_singleton _ _
  margin_pos := by decide

def sparseConfig : Config where
  brokers := [mainBroker]
  workers := [{ name := "orders", subscriptions := [ordersSubscription], scheduler := .weightedFair }]
  topologyMode := .declare
  delay := { mode := .ttl, buckets := [.fromSecs 1], queueExpiryMargin := .fromSecs 2 }

def sparse : ValidatedConfig := ⟨sparseConfig, sparseConfig, by rfl⟩

def sparseActor : Publisher.Settings := Publisher.unconfirmedSettings (DelayStrategy.compile sparse.config)

def sparsePump : Pump.Settings where
  bufferCapacity := 8
  maxBufferedBytes := 1024
  delayStrategy := some (DelayStrategy.compile sparse.config)

def sparseMachine : Machine System Event :=
  machine (fun _ => List.replicate 32 0) sparse "main" sparsePlan sparseActor sparsePump

def spawned : System where
  actor := Publisher.initial sparseActor { opened := 1, id := 0 }
  pump := { slot := some { opened := 1, id := 1 } }
  due := 0

def delayedTo (exchange : String) : PublishRequest where
  destination := { exchange, routingKey := "orders" }
  payload := [1, 2, 3]
  properties := { messageId := "order-1", delayMs := some 500 }
  deadline := 30000000000

def firstWrite (exchange : String) : List Event :=
  [.actor (.publish (delayedTo exchange)), .actor .receive, .actor (.proceed .pending),
    .actor (.declared (.ok ()) (.completed (.ok ()))), .actor (.proceed .pending)]

def laterWrite (exchange : String) : List Event :=
  [.actor (.publish (delayedTo exchange)), .actor .receive, .actor (.proceed (.completed (.ok ())))]

def ticks (queues : Nat) : List Event :=
  [.advance 1000000000, .begin] ++ List.replicate queues (.redeclare true) ++ [.finish]

def keptly (s : System) : Event → Bool
  | .advance nanos => sparsePlan.buckets.all fun bucket => s.clock + nanos < s.kept + bucketExpiry sparsePlan bucket
  | .actor (.declared _ _) =>
    match s.actor.mode with
    | .declaring item _ _ _ _ => (keepAliveDestinations sparse "main" s.requested).contains item.request.destination
    | _ => true
  | .pump (.declared _) => false
  | _ => true

theorem kept_of_keptly (s : System) (event : Event) (checked : keptly s event = true) :
    Kept sparse "main" sparsePlan s event := by
  cases event with
  | advance nanos => simpa [keptly, Kept] using checked
  | actor event =>
    cases event with
    | declared result poll =>
      intro item channel declaration pending resume declaring
      simp only [keptly, declaring] at checked
      simpa using checked
    | _ => trivial
  | pump event =>
    cases event with
    | declared result => cases checked
    | _ => trivial
  | _ => trivial

/-- The retry destination of a requested profile is written to again after `x-expires`. -/
theorem retried_order_kept : ∃ s, Reaches sparseMachine (Kept sparse "main" sparsePlan) s ∧
    s.actor.wire.length = 3 ∧ s.clock = 4000000000 ∧ s.astray = [] := by
  have ran : (run sparseMachine keptly spawned
      ([.request { name := "orders", subscriptions := [ordersSubscription], scheduler := .weightedFair }] ++
        firstWrite "orders" ++ ticks 1 ++ ticks 1 ++ ticks 1 ++ ticks 1 ++ laterWrite "orders")).any
      (fun s => decide (s.actor.wire.length = 3 ∧ s.clock = 4000000000)) = true := by
    decide +kernel
  have fresh : sparseMachine.Initial spawned := ⟨_, _, _, rfl⟩
  obtain ⟨s, reached, seen⟩ := exists_of_run kept_of_keptly fresh ran
  obtain ⟨written, clock⟩ := of_decide_eq_true seen
  exact ⟨s, reached, written, clock, delay_queues_outlive_cache rfl rfl rfl reached⟩

/-- A destination that is neither a retry destination nor a route is declared once and left to
expire, with the ticks in time; the next delayed publication to it goes nowhere. -/
theorem adhoc_order_astray : ∃ s, Reachable sparseMachine s ∧ s.kept = 3000000000 ∧ s.clock = 3000000000 ∧
    s.astray ≠ [] := by
  have fresh : sparseMachine.Initial spawned := ⟨_, _, _, rfl⟩
  exact exists_reachable sparseMachine fresh
    (firstWrite "" ++ ticks 0 ++ ticks 0 ++ ticks 0 ++ laterWrite "") _ (by decide +kernel)

end RabbitRs.KeepAlive
