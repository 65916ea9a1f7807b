import RabbitRs.Runtime.Registry

/-!
What claims guarantee. The proof looks at one handle at a time: its view counts the owners that
claim it, close it or evict it, and each step of the registry is a small step of every view.
-/

namespace RabbitRs.Runtime

open StepMachine

namespace State

def outstanding (s : State) (serial : Nat) : Nat :=
  Tally.total (fun owner => if owner.handle = serial ∧ owner.stage.claims = true then 1 else 0) s.owners

def closers (s : State) (serial : Nat) : Nat :=
  Tally.total (fun owner => if owner.handle = serial ∧ owner.stage.closes = true then 1 else 0) s.owners

def evictors (s : State) (serial : Nat) : Nat :=
  Tally.total (fun owner => if owner.stage.victim = some serial then 1 else 0) s.owners

def pooled (s : State) (serial : Nat) : Nat :=
  Tally.total (fun entry => if entry.handle = serial then 1 else 0) (Keyed.values s.pools)

def taken (s : State) (serial : Nat) : Bool := s.shutdowns.any fun shutdown => serial ∈ shutdown.handles

def holds (s : State) (key : Consumer.ConnectionKey) (serial : Nat) : Bool :=
  (s.pools.lookup key).any fun entry => entry.handle == serial

def found (s : State) (serial : Nat) : Bool :=
  match s.lock with
  | .found key => s.holds key serial
  | _ => false

def picked (s : State) (serial : Nat) : Bool :=
  match s.lock with
  | .scanning _ _ oldest => oldest.any fun candidate => s.holds candidate.1 serial
  | _ => false

end State

@[ext] structure View where
  handle : Option Handle
  outstanding : Nat
  closers : Nat
  evictors : Nat
  pooled : Nat
  taken : Bool
  found : Bool
  picked : Bool

def State.view (s : State) (serial : Nat) : View where
  handle := s.handles[serial]?
  outstanding := s.outstanding serial
  closers := s.closers serial
  evictors := s.evictors serial
  pooled := s.pooled serial
  taken := s.taken serial
  found := s.found serial
  picked := s.picked serial

/-- What a step can be for one handle. Where the registry relies on no `acquire` meeting a closing
handle, the step only has it when `calm` is granted. -/
inductive ViewStep (calm : Prop) (v : View) : View → Prop where
  | same : ViewStep calm v v
  | opened {pooled : Nat} : v.handle = none → pooled ≤ v.pooled + 1 → v.found = false → v.picked = false →
      ViewStep calm v { v with
        handle := some (Handle.addClaim {}), outstanding := v.outstanding + 1, pooled }
  | replaced {pooled : Nat} : pooled ≤ v.pooled → v.found = false → v.picked = false →
      ViewStep calm v { v with pooled }
  | found {handle : Handle} : v.handle = some handle → handle.closed = false → 0 < v.pooled →
      v.picked = false → (calm → v.closers = 0) → ViewStep calm v { v with found := true }
  | claimed {handle : Handle} : v.handle = some handle → v.found = true → v.picked = false →
      ViewStep calm v { v with
        handle := some handle.addClaim, outstanding := v.outstanding + 1, found := false }
  | considered {picked : Bool} : v.found = false →
      (picked = true → v.picked = true ∨ 0 < v.pooled ∧ ∃ handle, v.handle = some handle ∧ handle.claims = 0) →
      ViewStep calm v { v with picked }
  | evicted {handle : Handle} : v.handle = some handle → v.picked = true → v.found = false →
      ViewStep calm v { v with pooled := v.pooled - 1, evictors := v.evictors + 1, picked := false }
  | evicting {handle after : Handle} {evictors : Nat} : v.handle = some handle →
      after.claims = handle.claims → 0 < v.evictors → evictors ≤ v.evictors →
      ViewStep calm v { v with handle := some after, evictors }
  | initialised {handle : Handle} : v.handle = some handle →
      ViewStep calm v { v with handle := some handle.initClient }
  | released {handle : Handle} : v.handle = some handle → 0 < v.outstanding → ViewStep calm v { v with
        handle := some handle.releaseClaim.2, outstanding := v.outstanding - 1 }
  | closing {handle : Handle} : v.handle = some handle → 0 < v.outstanding → handle.claims = 1 →
      (calm → v.found = false) →
      ViewStep calm v { v with
        handle := some handle.releaseClaim.2, outstanding := v.outstanding - 1, closers := v.closers + 1 }
  | closed {handle after : Handle} {closers : Nat} : v.handle = some handle →
      after.claims = handle.claims → 0 < v.closers → closers ≤ v.closers →
      after.closed = true ∨ 0 < closers →
      ViewStep calm v { v with handle := some after, closers }
  | taken : v.found = false → v.picked = false →
      ViewStep calm v { v with taken := v.taken || decide (0 < v.pooled), pooled := 0 }
  | shut {handle after : Handle} : v.handle = some handle → after.claims = handle.claims →
      v.taken = true → ViewStep calm v { v with handle := some after }

structure View.Counted (v : View) : Prop where
  unopened : v.handle = none → v.outstanding = 0 ∧ v.closers = 0 ∧ v.evictors = 0 ∧ v.pooled = 0 ∧ v.taken = false
  counted : ∀ handle, v.handle = some handle → handle.claims = v.outstanding

structure View.Calm (v : View) : Prop where
  kept : ∀ handle, v.handle = some handle → 0 < v.outstanding ∨ v.found = true → v.taken = false →
    handle.closed = false ∧ handle.client.torn = false ∧ v.closers = 0 ∧ v.evictors = 0
  torn : ∀ handle, v.handle = some handle → handle.client.torn = true →
    v.taken = true ∨ handle.closed = true ∨ 0 < v.closers ∨ v.pooled = 0
  pooled : v.pooled ≤ 1 ∧ (0 < v.pooled → v.taken = false ∧ v.evictors = 0)
  found : v.found = true → 0 < v.pooled
  picked : v.picked = true → 0 < v.pooled ∧ v.outstanding = 0

theorem ViewStep.cast {calm : Prop} {v w w' : View} (step : ViewStep calm v w) (same : w' = w) :
    ViewStep calm v w' :=
  same ▸ step

theorem initClient_fields (handle : Handle) :
    handle.initClient.claims = handle.claims ∧ handle.initClient.closed = handle.closed ∧
      handle.initClient.client.torn = handle.client.torn := by
  unfold Handle.initClient
  cases held : handle.client <;> simp [held, Client.torn]

theorem releaseClaim_fields {handle : Handle} (claimed : 0 < handle.claims) :
    handle.releaseClaim = (handle.claims == 1, { handle with claims := handle.claims - 1 }) := by
  rw [Handle.releaseClaim, if_neg (by omega)]

variable {calm : Prop} {v w : View}

theorem ViewStep.counted (step : ViewStep calm v w) (before : v.Counted) : w.Counted := by
  obtain ⟨unopened, counted⟩ := before
  cases step with
  | same | found present _ _ _ _ | considered _ _ => exact ⟨unopened, counted⟩
  | opened absent _ _ _ =>
    obtain ⟨none, _⟩ := unopened absent
    refine ⟨nofun, fun handle same => ?_⟩
    cases same
    simp [Handle.addClaim, none]
  | replaced fewer _ _ =>
    refine ⟨fun absent => ?_, counted⟩
    obtain ⟨none, idle, left, gone, free⟩ := unopened absent
    exact ⟨none, idle, left, Nat.eq_zero_of_le_zero (gone ▸ fewer), free⟩
  | claimed present _ _ =>
    refine ⟨nofun, fun handle same => ?_⟩
    cases same
    simp [Handle.addClaim, counted _ present]
  | evicted present _ _ =>
    refine ⟨fun absent => ?_, counted⟩
    rw [present] at absent
    cases absent
  | evicting present kept _ _ | closed present kept _ _ _ | shut present kept _ =>
    refine ⟨nofun, fun handle same => ?_⟩
    cases same
    exact kept.trans (counted _ present)
  | initialised present =>
    refine ⟨nofun, fun handle same => ?_⟩
    cases same
    exact (initClient_fields _).1.trans (counted _ present)
  | released present claimed | closing present claimed _ _ =>
    refine ⟨nofun, fun handle same => ?_⟩
    cases same
    rw [← counted _ present] at claimed
    rw [releaseClaim_fields claimed, counted _ present]
  | taken _ _ =>
    refine ⟨fun absent => ?_, counted⟩
    obtain ⟨none, idle, left, gone, free⟩ := unopened absent
    exact ⟨none, idle, left, rfl, by simp [free, gone]⟩

theorem ViewStep.keeps_calm (step : ViewStep True v w) (known : v.Counted) (before : v.Calm) : w.Calm := by
  obtain ⟨kept, torn, pooled, found, picked⟩ := before
  cases step with
  | same => exact ⟨kept, torn, pooled, found, picked⟩
  | opened absent one seen chosen =>
    obtain ⟨_, idle, left, gone, free⟩ := known.unopened absent
    rw [gone] at one
    refine ⟨fun handle same _ _ => ?_, fun handle same => ?_, ⟨one, fun _ => ⟨free, left⟩⟩, ?_, ?_⟩
    · cases same
      exact ⟨rfl, rfl, idle, left⟩
    · cases same
      nofun
    · simp [seen]
    · simp [chosen]
  | replaced fewer seen chosen =>
    refine ⟨kept, fun handle same bad => ?_,
      ⟨fewer.trans pooled.1, fun some => pooled.2 (Nat.lt_of_lt_of_le some fewer)⟩, ?_, ?_⟩
    · rcases torn handle same bad with taken | closed | closer | gone
      · exact .inl taken
      · exact .inr (.inl closed)
      · exact .inr (.inr (.inl closer))
      · exact .inr (.inr (.inr (Nat.eq_zero_of_le_zero (gone ▸ fewer))))
    · simp [seen]
    · simp [chosen]
  | found present notClosed some chosen quiet =>
    have none := quiet trivial
    refine ⟨fun handle same _ free => ?_, torn, pooled, fun _ => some, picked⟩
    obtain rfl := Option.some.inj (present.symm.trans same)
    refine ⟨notClosed, ?_, none, (pooled.2 some).2⟩
    by_contra bad
    rcases torn _ present (by simpa using bad) with taken | closed | closer | gone
    · exact absurd (free.symm.trans taken) nofun
    · exact absurd (notClosed.symm.trans closed) nofun
    · omega
    · omega
  | @claimed handle present seen chosen =>
    refine ⟨fun other same _ free => ?_, fun other same bad => ?_, pooled, nofun, ?_⟩
    · cases same
      exact kept handle present (.inr seen) free
    · cases same
      exact torn handle present bad
    · simp [chosen]
  | considered seen choice =>
    refine ⟨kept, torn, pooled, found, fun chosen => ?_⟩
    rcases choice chosen with before | ⟨some, handle, present, unclaimed⟩
    · exact picked before
    · exact ⟨some, (known.counted _ present).symm.trans unclaimed⟩
  | evicted present chosen seen =>
    obtain ⟨some, idle⟩ := picked chosen
    have last : v.pooled - 1 = 0 := by omega
    refine ⟨fun handle same claimed _ => ?_, fun handle same bad => .inr (.inr (.inr last)), ?_, ?_, nofun⟩
    · rcases claimed with claimed | claimed
      · exact absurd claimed (by simp [idle])
      · simp [seen] at claimed
    · exact ⟨by simp [last], fun more => absurd more (by simp [last])⟩
    · simp [seen]
  | evicting present same some fewer =>
    have gone : v.pooled = 0 := by
      by_contra more
      have := (pooled.2 (by omega)).2
      omega
    refine ⟨fun handle _ claimed free => ?_, fun handle _ _ => .inr (.inr (.inr gone)), ?_, found, picked⟩
    · have := (kept _ present claimed free).2.2.2
      omega
    · exact ⟨pooled.1, fun more => absurd more (by simp [gone])⟩
  | @initialised handle present =>
    obtain ⟨_, flag, client⟩ := initClient_fields handle
    refine ⟨fun other same claimed free => ?_, fun other same bad => ?_, pooled, found, picked⟩
    · cases same
      rw [flag, client]
      exact kept _ present claimed free
    · cases same
      rw [client] at bad
      rw [flag]
      exact torn _ present bad
  | @released handle present claimed =>
    have positive : 0 < handle.claims := known.counted _ present ▸ claimed
    rw [releaseClaim_fields positive]
    refine ⟨fun other same left free => ?_, fun other same bad => ?_, pooled, found, fun chosen => ?_⟩
    · cases same
      exact kept handle present (.inl claimed) free
    · cases same
      exact torn handle present bad
    · have := (picked chosen).2
      omega
  | @closing handle present claimed last unseen =>
    have one : v.outstanding = 1 := (known.counted _ present).symm.trans last
    rw [releaseClaim_fields (by omega)]
    refine ⟨fun other same left free => ?_, fun other same bad => ?_, pooled, found, fun chosen => ?_⟩
    · rcases left with left | left
      · exact absurd left (by simp [one])
      · simp [unseen trivial] at left
    · exact .inr (.inr (.inl (Nat.succ_pos _)))
    · have := (picked chosen).2
      omega
  | closed present same some fewer retired =>
    refine ⟨fun other _ claimed free => ?_, fun other after bad => ?_, pooled, found, picked⟩
    · have := (kept _ present claimed free).2.2.1
      omega
    · cases after
      rcases retired with retired | left
      · exact .inr (.inl retired)
      · exact .inr (.inr (.inl left))
  | taken seen chosen =>
    refine ⟨fun handle same claimed free => ?_, fun _ _ _ => .inr (.inr (.inr rfl)), ⟨Nat.zero_le _, nofun⟩, ?_, ?_⟩
    · exact kept handle same claimed (Bool.or_eq_false_iff.mp free).1
    · simp [seen]
    · simp [chosen]
  | shut present same gone =>
    refine ⟨fun handle _ _ free => ?_, fun handle _ _ => .inl gone, pooled, found, picked⟩
    exact absurd (free.symm.trans gone) nofun

variable {s t : State} {i : Nat} {owner : Owner} {handle after : Handle} {stage : Stage}

theorem total_pos {counts : Owner → Prop} [DecidablePred counts] (at_ : s.owners[i]? = some owner)
    (counted : counts owner) : 0 < Tally.total (fun other => if counts other then 1 else 0) s.owners := by
  have weight := Tally.weight_le_total (fun other => if counts other then 1 else 0) (List.mem_of_getElem? at_)
  rwa [if_pos counted] at weight

theorem view_acted {serial : Nat} (at_ : s.owners[i]? = some owner) (present : s.handles[serial]? = some handle)
    (x : Nat) :
    ((s.setHandle serial after).setOwner i { owner with stage }).view x = { s.view x with
        handle := if serial = x then some after else (s.view x).handle
        outstanding := (s.view x).outstanding + (if owner.handle = x ∧ stage.claims = true then 1 else 0)
          - (if owner.handle = x ∧ owner.stage.claims = true then 1 else 0)
        closers := (s.view x).closers + (if owner.handle = x ∧ stage.closes = true then 1 else 0)
          - (if owner.handle = x ∧ owner.stage.closes = true then 1 else 0)
        evictors := (s.view x).evictors + (if stage.victim = some x then 1 else 0)
          - (if owner.stage.victim = some x then 1 else 0) } := by
  have inside := (List.getElem?_eq_some_iff.mp present).1
  have total (weight : Owner → Nat) : Tally.total weight (s.owners.set i { owner with stage }) =
      Tally.total weight s.owners + weight { owner with stage } - weight owner := by
    have := Tally.total_set weight { owner with stage } at_
    omega
  ext1
  · change (s.handles.set serial after)[x]? = _
    rw [List.getElem?_set, if_pos inside]
    rfl
  · exact total _
  · exact total _
  · exact total _
  all_goals rfl

theorem view_own (at_ : s.owners[i]? = some owner) (present : s.handles[owner.handle]? = some handle)
    (apart : owner.stage.victim = none) (apart' : stage.victim = none) (x : Nat) :
    ((s.setHandle owner.handle after).setOwner i { owner with stage }).view x = if owner.handle = x then
        { s.view x with
          handle := some after
          outstanding := (s.view x).outstanding + stage.claims.toNat - owner.stage.claims.toNat
          closers := (s.view x).closers + stage.closes.toNat - owner.stage.closes.toNat }
      else s.view x := by
  rw [view_acted at_ present]
  split
  case isTrue own => simp [own, apart, apart', Bool.toNat, cond_eq_ite]
  case isFalse other => simp [other, apart, apart']

theorem view_evicting {victim : Nat} (at_ : s.owners[i]? = some owner)
    (present : s.handles[victim]? = some handle) (evicts : owner.stage.victim = some victim)
    (claims : owner.stage.claims = true) (claims' : stage.claims = true) (idle : owner.stage.closes = false)
    (idle' : stage.closes = false) (only : ∀ x, stage.victim = some x → victim = x) (x : Nat) :
    ((s.setHandle victim after).setOwner i { owner with stage }).view x = if victim = x then
        { s.view x with
          handle := some after
          evictors := (s.view x).evictors + stage.victim.isSome.toNat - 1 }
      else s.view x := by
  rw [view_acted at_ present]
  split
  case isTrue own =>
    have kept : (if stage.victim = some x then 1 else 0) = stage.victim.isSome.toNat := by
      cases evicts' : stage.victim with
      | none => rfl
      | some other => simp [only other evicts' ▸ own]
    simp [own, evicts, claims, claims', idle, idle', kept]
  case isFalse other =>
    have unmoved : stage.victim ≠ some x := fun evicts' => other (only x evicts')
    simp [other, evicts, claims, claims', idle, idle', unmoved]

theorem onHandle_eq {serial : Nat} {act : Handle → Handle × Stage} (acted : s.onHandle i owner serial act = some t) :
    ∃ handle, s.handles[serial]? = some handle ∧
      t = (s.setHandle serial (act handle).1).setOwner i { owner with stage := (act handle).2 } := by
  obtain ⟨handle, present, rfl⟩ := Option.map_eq_some_iff.mp acted
  exact ⟨handle, present, rfl⟩

/-- No `acquire` looks at a handle whose last claim was released by a close that has not retired it,
and no close releases the last claim while an `acquire` has seen the handle and not claimed it. -/
def Undisturbed (s : State) : Event → Prop
  | .acquire key _ => ∀ entry, s.pools.lookup key = some entry → s.isClosed entry.handle = false →
      s.closers entry.handle = 0
  | .close i => ∀ owner, s.owners[i]? = some owner → s.outstanding owner.handle = 1 →
      s.found owner.handle = false
  | _ => True

theorem holds_iff {key : Consumer.ConnectionKey} {x : Nat} :
    s.holds key x = true ↔ ∃ entry, s.pools.lookup key = some entry ∧ entry.handle = x := by
  simp [State.holds, Option.any_eq_true]

theorem pooled_pos {key : Consumer.ConnectionKey} {entry : PoolEntry} (looked : s.pools.lookup key = some entry) :
    0 < s.pooled entry.handle := by
  have erased := Keyed.total_erase (fun other : PoolEntry => if other.handle = entry.handle then 1 else 0) looked
  rw [if_pos rfl] at erased
  rw [State.pooled]
  omega

theorem pooled_pos_iff {x : Nat} : 0 < s.pooled x ↔ ∃ entry ∈ Keyed.values s.pools, entry.handle = x := by
  have unit {p : Prop} [Decidable p] : (0 < if p then 1 else 0) ↔ p := by split <;> simp [*]
  simp [State.pooled, Tally.total, List.sum_pos_iff_exists_pos_nat, unit]

theorem present_of_pooled {x : Nat} (known : (s.view x).Counted) (pooled : 0 < s.pooled x) :
    ∃ handle, s.handles[x]? = some handle := by
  rw [← Option.ne_none_iff_exists']
  intro absent
  have : s.pooled x = 0 := (known.unopened absent).2.2.2.1
  omega

theorem unlocked (free : s.lock = .free) (x : Nat) : s.found x = false ∧ s.picked x = false := by
  simp [State.found, State.picked, free]

theorem view_openPool {key : Consumer.ConnectionKey} {now : Nat} (free : s.lock = .free) (x : Nat) :
    ViewStep calm (s.view x) ((s.openPool key now).view x) := by
  obtain ⟨unseen, unpicked⟩ := unlocked free x
  have locked : (s.openPool key now).lock = .free ∨
      ∃ rest, (s.openPool key now).lock = .scanning s.owners.length rest none := by
    unfold State.openPool
    dsimp only
    split
    · exact .inl rfl
    · exact .inr ⟨_, rfl⟩
  have seen : (s.openPool key now).found x = false := by
    rcases locked with locked | ⟨_, locked⟩ <;> simp [State.found, locked]
  have picked : (s.openPool key now).picked x = false := by
    rcases locked with locked | ⟨_, locked⟩ <;> simp [State.picked, locked]
  have outstanding : (s.openPool key now).outstanding x =
      s.outstanding x + if s.handles.length = x then 1 else 0 := by
    simp only [State.openPool, State.outstanding, Tally.total_append, Tally.total_cons, Tally.total_nil]
    split <;> simp [Stage.claims]
  have pooled := Keyed.total_insert (fun entry : PoolEntry => if entry.handle = x then 1 else 0) s.pools key
    { handle := s.handles.length, lastUsed := now }
  change (s.openPool key now).pooled x + _ = s.pooled x + _ at pooled
  have opened : (s.openPool key now).view x = { s.view x with
      handle := (s.openPool key now).handles[x]?
      outstanding := s.outstanding x + if s.handles.length = x then 1 else 0
      pooled := (s.openPool key now).pooled x } := by
    ext1
    · rfl
    · exact outstanding
    · simp only [State.view, State.openPool, State.closers, Tally.total_append, Tally.total_cons, Tally.total_nil]
      split <;> simp [Stage.closes]
    · simp only [State.view, State.openPool, State.evictors, Tally.total_append, Tally.total_cons, Tally.total_nil]
      split <;> simp [Stage.victim]
    · rfl
    · rfl
    · exact seen.trans unseen.symm
    · exact picked.trans unpicked.symm
  rw [opened]
  by_cases new : s.handles.length = x
  · subst new
    rw [if_pos rfl] at pooled ⊢
    have fresh : (s.openPool key now).handles[s.handles.length]? = some (Handle.addClaim {}) := by
      simp [State.openPool]
    rw [fresh]
    refine .opened (by simp [State.view]) ?_ unseen unpicked
    change _ ≤ s.pooled _ + 1
    omega
  · rw [if_neg new] at pooled ⊢
    have same : (s.openPool key now).handles[x]? = s.handles[x]? := by
      simp only [State.openPool]
      rcases Nat.lt_or_ge x s.handles.length with inside | outside
      · rw [List.getElem?_append_left inside]
      · rw [List.getElem?_eq_none (by simp; omega), List.getElem?_eq_none outside]
    rw [same]
    refine .replaced ?_ unseen unpicked
    change _ ≤ s.pooled _
    omega

theorem view_found {key : Consumer.ConnectionKey} {entry : PoolEntry} (known : ∀ x, (s.view x).Counted)
    (free : s.lock = .free) (looked : s.pools.lookup key = some entry) (unclosed : s.isClosed entry.handle = false)
    (quiet : calm → s.closers entry.handle = 0) (x : Nat) :
    ViewStep calm (s.view x) (({ s with lock := .found key } : State).view x) := by
  obtain ⟨unseen, unpicked⟩ := unlocked free x
  by_cases same : entry.handle = x
  · subst same
    obtain ⟨handle, present⟩ := present_of_pooled (known _) (pooled_pos looked)
    have seen : ({ s with lock := .found key } : State).view entry.handle =
        { s.view entry.handle with found := true } := by
      ext1 <;> first | rfl | exact unpicked.symm | skip
      exact holds_iff.mpr ⟨entry, looked, rfl⟩
    rw [seen]
    refine .found present ?_ (pooled_pos looked) unpicked quiet
    simpa [State.isClosed, present] using unclosed
  · have other : ({ s with lock := .found key } : State).view x = s.view x := by
      ext1 <;> first | rfl | exact unpicked.symm | skip
      refine Eq.trans ?_ unseen.symm
      change s.holds key x = false
      simp [State.holds, looked, same]
    rw [other]
    exact .same

theorem view_claimed {key : Consumer.ConnectionKey} {entry : PoolEntry} {now : Nat} (locked : s.lock = .found key)
    (looked : s.pools.lookup key = some entry) (present : s.handles[entry.handle]? = some handle) (x : Nat) :
    ViewStep calm (s.view x) (({ s.setHandle entry.handle handle.addClaim with
      pools := s.pools.insert key { entry with lastUsed := now }
      owners := s.owners ++ [{ handle := entry.handle, stage := .holding }]
      lock := .free } : State).view x) := by
  have inside := (List.getElem?_eq_some_iff.mp present).1
  have unpicked : s.picked x = false := by simp [State.picked, locked]
  have pooled := Keyed.total_insert (fun entry : PoolEntry => if entry.handle = x then 1 else 0) s.pools key
    { entry with lastUsed := now }
  rw [looked, Option.toList_some, Tally.total_cons, Tally.total_nil] at pooled
  have kept : Tally.total (fun entry : PoolEntry => if entry.handle = x then 1 else 0)
      (Keyed.values (s.pools.insert key { entry with lastUsed := now })) = s.pooled x := by
    dsimp only at pooled
    rw [State.pooled]
    omega
  by_cases same : entry.handle = x
  · subst same
    refine (ViewStep.claimed present ?_ unpicked).cast ?_
    · simp [State.view, State.found, locked, State.holds, looked]
    · ext1
      · simp [State.view, State.setHandle, inside]
      · simp [State.view, State.outstanding, Stage.claims]
      · simp [State.view, State.closers, Stage.closes]
      · simp [State.view, State.evictors, Stage.victim]
      · exact kept
      · rfl
      · rfl
      · exact unpicked.symm
  · refine ViewStep.same.cast ?_
    ext1
    · simp [State.view, State.setHandle, same]
    · simp [State.view, State.outstanding, same]
    · simp [State.view, State.closers, same]
    · simp [State.view, State.evictors, Stage.victim]
    · exact kept
    · rfl
    · simp [State.view, State.found, locked, State.holds, looked, same]
    · exact unpicked.symm

theorem consider_cases (s : State) (key : Consumer.ConnectionKey) (oldest : Option (Consumer.ConnectionKey × Nat)) :
    s.consider key oldest = oldest ∨ ∃ entry handle, s.pools.lookup key = some entry ∧
      s.handles[entry.handle]? = some handle ∧ handle.claims = 0 ∧
      s.consider key oldest = some (key, entry.lastUsed) := by
  unfold State.consider
  cases looked : s.pools.lookup key with
  | none => exact .inl rfl
  | some entry =>
    dsimp only
    split
    case isTrue idle =>
      obtain ⟨handle, present, unclaimed⟩ := (Option.any_eq_true _ _).mp idle
      cases oldest with
      | none => exact .inr ⟨entry, handle, rfl, present, by simpa using unclaimed, rfl⟩
      | some first =>
        dsimp only
        split
        · exact .inr ⟨entry, handle, rfl, present, by simpa using unclaimed, rfl⟩
        · exact .inl rfl
    case isFalse => exact .inl rfl

theorem view_considered {key : Consumer.ConnectionKey} {rest : List Consumer.ConnectionKey}
    {oldest : Option (Consumer.ConnectionKey × Nat)} (locked : s.lock = .scanning i (key :: rest) oldest) (x : Nat) :
    ViewStep calm (s.view x)
      (({ s with lock := .scanning i rest (s.consider key oldest) } : State).view x) := by
  have unseen : s.found x = false := by simp [State.found, locked]
  have chosen (picked : (s.consider key oldest).any (fun candidate => s.holds candidate.1 x) = true) :
      s.picked x = true ∨ 0 < s.pooled x ∧ ∃ handle, s.handles[x]? = some handle ∧ handle.claims = 0 := by
    rcases consider_cases s key oldest with unchanged | ⟨entry, handle, looked, present, unclaimed, chose⟩
    · rw [unchanged] at picked
      exact .inl (by simpa only [State.picked, locked] using picked)
    · rw [chose, Option.any_some] at picked
      obtain ⟨other, looked', rfl⟩ := holds_iff.mp picked
      obtain rfl := Option.some.inj (looked.symm.trans looked')
      exact .inr ⟨pooled_pos looked, handle, present, unclaimed⟩
  refine (ViewStep.considered unseen chosen).cast ?_
  ext1 <;> first | rfl | exact unseen.symm

theorem view_takeVictim {oldest : Option (Consumer.ConnectionKey × Nat)} (known : ∀ x, (s.view x).Counted)
    (locked : s.lock = .scanning i [] oldest) (at_ : s.owners[i]? = some owner)
    (acquiring : owner.stage = .acquiring) (x : Nat) :
    ViewStep calm (s.view x) ((s.takeVictim i owner oldest).view x) := by
  have unseen : s.found x = false := by simp [State.found, locked]
  have total (weight : Owner → Nat) (stage : Stage) : Tally.total weight (s.owners.set i { owner with stage }) =
      Tally.total weight s.owners + weight { owner with stage } - weight owner := by
    have := Tally.total_set weight { owner with stage } at_
    omega
  unfold State.takeVictim
  split
  case h_1 none =>
    have unpicked : s.picked x = false := by
      simp only [State.picked, locked]
      cases oldest with
      | none => rfl
      | some candidate =>
        cases looked : s.pools.lookup candidate.1 with
        | none => simp [State.holds, looked]
        | some entry => simp [looked] at none
    refine ViewStep.same.cast ?_
    ext1
    · rfl
    · exact (total _ _).trans (by simp [acquiring, Stage.claims, State.view, State.outstanding])
    · exact (total _ _).trans (by simp [acquiring, Stage.closes, State.view, State.closers])
    · exact (total _ _).trans (by simp [acquiring, Stage.victim, State.view, State.evictors])
    · rfl
    · rfl
    · exact unseen.symm
    · exact unpicked.symm
  case h_2 key entry chosen =>
    obtain ⟨candidate, rfl, found⟩ := Option.bind_eq_some_iff.mp chosen
    obtain ⟨entry, looked, same⟩ := Option.map_eq_some_iff.mp found
    cases same
    have erased := Keyed.total_erase (fun other : PoolEntry => if other.handle = x then 1 else 0) looked
    have picked : s.picked x = (entry.handle == x) := by
      simp [State.picked, locked, State.holds, looked]
    by_cases own : entry.handle = x
    · subst own
      obtain ⟨handle, present⟩ := present_of_pooled (known _) (pooled_pos looked)
      refine (ViewStep.evicted present (picked.trans (by simp)) unseen).cast ?_
      ext1
      · rfl
      · exact (total _ _).trans (by simp [acquiring, Stage.claims, State.view, State.outstanding])
      · exact (total _ _).trans (by simp [acquiring, Stage.closes, State.view, State.closers])
      · exact (total _ _).trans (by simp [acquiring, Stage.victim, State.view, State.evictors])
      · rw [if_pos rfl] at erased
        exact Nat.eq_sub_of_add_eq erased
      · rfl
      · exact unseen.symm
      · rfl
    · refine ViewStep.same.cast ?_
      ext1
      · rfl
      · exact (total _ _).trans (by simp [acquiring, Stage.claims, State.view, State.outstanding])
      · exact (total _ _).trans (by simp [acquiring, Stage.closes, State.view, State.closers])
      · exact (total _ _).trans (by simp [acquiring, Stage.victim, State.view, State.evictors, own])
      · rw [if_neg own] at erased
        exact erased
      · rfl
      · exact unseen.symm
      · exact (picked.trans (beq_false_of_ne own)).symm

theorem taken_set {task : Nat} {shutdown after : Shutdown} (at_ : s.shutdowns[task]? = some shutdown)
    (same : after.handles = shutdown.handles) (x : Nat) :
    (s.shutdowns.set task after).any (fun shutdown => decide (x ∈ shutdown.handles)) = s.taken x := by
  have lists : (s.shutdowns.set task after).map Shutdown.handles = s.shutdowns.map Shutdown.handles := by
    apply List.ext_getElem?
    intro j
    have inside := (List.getElem?_eq_some_iff.mp at_).1
    rw [List.getElem?_map, List.getElem?_map, List.getElem?_set, if_pos inside]
    split
    case isTrue here =>
      rw [← here, at_, Option.map_some, Option.map_some, same]
    case isFalse => rfl
  have mapped := congrArg (List.any · fun handles => decide (x ∈ handles)) lists
  simpa only [State.taken, List.any_map, Function.comp_def] using mapped

theorem view_shut {task serial : Nat} {shutdown later : Shutdown} (at_ : s.shutdowns[task]? = some shutdown)
    (member : serial ∈ shutdown.handles) (same : later.handles = shutdown.handles)
    (present : s.handles[serial]? = some handle) (kept : after.claims = handle.claims) (x : Nat) :
    ViewStep calm (s.view x)
      (({ s.setHandle serial after with shutdowns := s.shutdowns.set task later } : State).view x) := by
  have inside := (List.getElem?_eq_some_iff.mp present).1
  by_cases own : serial = x
  · subst own
    have taken : s.taken serial = true :=
      List.any_eq_true.mpr ⟨shutdown, List.mem_of_getElem? at_, by simpa using member⟩
    refine (ViewStep.shut present kept taken).cast ?_
    ext1
    · simp [State.view, State.setHandle, inside]
    all_goals first | rfl | exact taken_set at_ same serial
  · refine ViewStep.same.cast ?_
    ext1
    · simp [State.view, State.setHandle, own]
    all_goals first | rfl | exact taken_set at_ same x

theorem view_shutdown (free : s.lock = .free) (x : Nat) : ViewStep calm (s.view x) (({ s with
        pools := ∅
        shutdowns := s.shutdowns ++ [{ handles := (Keyed.values s.pools).map (·.handle) }] } : State).view x) := by
  obtain ⟨unseen, unpicked⟩ := unlocked free x
  refine (ViewStep.taken unseen unpicked).cast ?_
  ext1
  · rfl
  · rfl
  · rfl
  · rfl
  · rfl
  · simp [State.view, State.taken, pooled_pos_iff]
  · simp [State.view, State.found, free]
  · simp [State.view, State.picked, free]

theorem startClose_claims (handle : Handle) : handle.startClose.1.claims = handle.claims := by
  unfold Handle.startClose
  split <;> rfl

theorem viewStep_evicting {victim : Nat} (at_ : s.owners[i]? = some owner)
    (present : s.handles[victim]? = some handle) (evicts : owner.stage.victim = some victim)
    (claims : stage.claims = true) (only : ∀ x, stage.victim = some x → victim = x)
    (kept : after.claims = handle.claims) (x : Nat) :
    ViewStep calm (s.view x) (((s.setHandle victim after).setOwner i { owner with stage }).view x) := by
  have engaged {stage : Stage} (claims : stage.claims = true) : stage.closes = false := by
    cases stage <;> first | rfl | cases claims
  have claims' : owner.stage.claims = true := by
    cases held : owner.stage <;> first | rfl | simp [held, Stage.victim] at evicts
  rw [view_evicting at_ present evicts claims' claims (engaged claims') (engaged claims) only]
  split
  case isTrue own =>
    subst own
    refine .evicting present kept (total_pos at_ evicts) ?_
    have := stage.victim.isSome.toNat_le
    omega
  case isFalse => exact .same

theorem viewStep_closed (at_ : s.owners[i]? = some owner) (present : s.handles[owner.handle]? = some handle)
    (closes : owner.stage.closes = true) (idle : stage.claims = false) (apart : stage.victim = none)
    (retired : after.closed = true ∨ stage.closes = true) (kept : after.claims = handle.claims) (x : Nat) :
    ViewStep calm (s.view x) (((s.setHandle owner.handle after).setOwner i { owner with stage }).view x) := by
  have idle' : owner.stage.claims = false := by
    cases held : owner.stage <;> first | rfl | simp [held, Stage.closes] at closes
  have apart' : owner.stage.victim = none := by
    cases held : owner.stage <;> first | rfl | simp [held, Stage.closes] at closes
  have counted : 0 < (s.view owner.handle).closers := total_pos at_ ⟨rfl, closes⟩
  rw [view_own at_ present apart' apart]
  split
  case isTrue own =>
    subst own
    have bound := stage.closes.toNat_le
    have fewer : (s.view owner.handle).closers + stage.closes.toNat - 1 ≤ (s.view owner.handle).closers := by
      omega
    refine (ViewStep.closed present kept counted fewer (retired.imp_right fun closes => ?_)).cast ?_
    · rw [closes, Bool.toNat_true]
      omega
    · simp [idle, idle', closes]
  case isFalse => exact .same

theorem step_view {e : Event} (known : ∀ x, (s.view x).Counted) (stepped : step s e = some t) (x : Nat) :
    ViewStep (Undisturbed s e) (s.view x) (t.view x) := by
  cases e with
  | acquire key now =>
    simp only [step] at stepped
    split at stepped
    case h_1 free =>
      split at stepped
      case h_1 entry looked =>
        split at stepped
        · cases stepped
          exact view_openPool free x
        case isFalse unclosed =>
          cases stepped
          have unclosed : s.isClosed entry.handle = false := by simpa using unclosed
          exact view_found known free looked unclosed (fun quiet => quiet entry looked unclosed) x
      · cases stepped
        exact view_openPool free x
    · cases stepped
  | claim now =>
    simp only [step] at stepped
    split at stepped
    case h_1 key locked =>
      obtain ⟨entry, looked, stepped⟩ := Option.bind_eq_some_iff.mp stepped
      obtain ⟨handle, present, rfl⟩ := Option.map_eq_some_iff.mp stepped
      exact view_claimed locked looked present x
    · cases stepped
  | scan =>
    simp only [step] at stepped
    split at stepped
    case h_1 locked =>
      cases stepped
      exact view_considered locked x
    case h_2 locked =>
      obtain ⟨owner, at_, stepped⟩ := Option.bind_eq_some_iff.mp stepped
      split at stepped
      case h_1 acquiring =>
        cases stepped
        exact view_takeVictim known locked at_ acquiring x
      · cases stepped
    · cases stepped
  | retireVictim i =>
    obtain ⟨owner, at_, stepped⟩ := Option.bind_eq_some_iff.mp stepped
    split at stepped
    case h_1 victim evicting =>
      obtain ⟨handle, present, rfl⟩ := onHandle_eq stepped
      refine viewStep_evicting at_ present (by rw [evicting]; rfl) ?_ ?_ ?_ x
      · rfl
      · exact fun _ => Option.some.inj
      · rfl
    · cases stepped
  | evict i =>
    obtain ⟨owner, at_, stepped⟩ := Option.bind_eq_some_iff.mp stepped
    split at stepped
    case h_1 victim evicting =>
      obtain ⟨handle, present, rfl⟩ := onHandle_eq stepped
      refine viewStep_evicting at_ present (by rw [evicting]; rfl) ?_ ?_ (startClose_claims handle) x
      · split <;> rfl
      · split
        · exact fun _ => Option.some.inj
        · exact nofun
    · cases stepped
  | evicted i inTime =>
    obtain ⟨owner, at_, stepped⟩ := Option.bind_eq_some_iff.mp stepped
    split at stepped
    case h_1 victim evicting =>
      obtain ⟨handle, present, rfl⟩ := onHandle_eq stepped
      refine viewStep_evicting at_ present (by rw [evicting]; rfl) ?_ ?_ ?_ x
      · rfl
      · exact nofun
      · split <;> rfl
    · cases stepped
  | client i =>
    obtain ⟨owner, at_, stepped⟩ := Option.bind_eq_some_iff.mp stepped
    split at stepped
    case h_1 holding =>
      obtain ⟨handle, present, rfl⟩ := onHandle_eq stepped
      rw [view_own at_ present (by rw [holding]; rfl) rfl]
      split
      case isTrue own =>
        subst own
        refine (ViewStep.initialised present).cast ?_
        simp [holding, Stage.claims, Stage.closes]
      case isFalse => exact .same
    · cases stepped
  | drop i =>
    obtain ⟨owner, at_, stepped⟩ := Option.bind_eq_some_iff.mp stepped
    split at stepped
    case h_1 holding =>
      obtain ⟨handle, present, rfl⟩ := onHandle_eq stepped
      have counted : 0 < s.outstanding owner.handle := total_pos at_ ⟨rfl, by rw [holding]; rfl⟩
      rw [view_own at_ present (by rw [holding]; rfl) rfl]
      split
      case isTrue own =>
        subst own
        refine (ViewStep.released present counted).cast ?_
        simp [holding, Stage.claims, Stage.closes]
      case isFalse => exact .same
    · cases stepped
  | close i =>
    obtain ⟨owner, at_, stepped⟩ := Option.bind_eq_some_iff.mp stepped
    split at stepped
    case h_1 holding =>
      obtain ⟨handle, present, rfl⟩ := onHandle_eq stepped
      have counted : 0 < s.outstanding owner.handle := total_pos at_ ⟨rfl, by rw [holding]; rfl⟩
      have claims : handle.claims = s.outstanding owner.handle := (known _).counted _ present
      rw [view_own at_ present (by rw [holding]; rfl) (by split <;> rfl)]
      split
      case isTrue own =>
        subst own
        have claimed : 0 < handle.claims := by omega
        have released := releaseClaim_fields claimed
        by_cases last : handle.claims = 1
        · have first : handle.releaseClaim.1 = true := by simp [released, last]
          refine (ViewStep.closing present counted last fun quiet => quiet owner at_ (by omega)).cast ?_
          simp [first, holding, Stage.claims, Stage.closes]
        · have first : handle.releaseClaim.1 = false := by simp [released, last]
          refine (ViewStep.released present counted).cast ?_
          simp [first, holding, Stage.claims, Stage.closes]
      case isFalse => exact .same
    · cases stepped
  | check i =>
    obtain ⟨owner, at_, stepped⟩ := Option.bind_eq_some_iff.mp stepped
    split at stepped
    case h_1 checking =>
      obtain ⟨handle, present, rfl⟩ := onHandle_eq stepped
      refine viewStep_closed at_ present (by rw [checking]; rfl) ?_ ?_ (.inr ?_) rfl x <;> split <;> rfl
    · cases stepped
  | shut i =>
    obtain ⟨owner, at_, stepped⟩ := Option.bind_eq_some_iff.mp stepped
    split at stepped
    case h_1 shutting =>
      obtain ⟨handle, present, rfl⟩ := onHandle_eq stepped
      refine viewStep_closed at_ present (by rw [shutting]; rfl) ?_ ?_ (.inr ?_) (startClose_claims handle) x <;>
        split <;> rfl
    · cases stepped
  | drained i =>
    obtain ⟨owner, at_, stepped⟩ := Option.bind_eq_some_iff.mp stepped
    split at stepped
    case h_1 draining =>
      obtain ⟨handle, present, rfl⟩ := onHandle_eq stepped
      refine viewStep_closed at_ present (by rw [draining]; rfl) ?_ ?_ (.inr ?_) ?_ x <;> rfl
    · cases stepped
  | leave i =>
    obtain ⟨owner, at_, stepped⟩ := Option.bind_eq_some_iff.mp stepped
    split at stepped
    case h_1 leaving =>
      obtain ⟨handle, present, rfl⟩ := onHandle_eq stepped
      refine viewStep_closed at_ present (by rw [leaving]; rfl) ?_ ?_ (.inl ?_) ?_ x <;> rfl
    · cases stepped
  | shutdown =>
    simp only [step] at stepped
    split at stepped
    case h_1 free =>
      cases stepped
      exact view_shutdown free x
    · cases stepped
  | retire task =>
    obtain ⟨shutdown, at_, stepped⟩ := Option.bind_eq_some_iff.mp stepped
    obtain ⟨serial, member, stepped⟩ := Option.bind_eq_some_iff.mp stepped
    obtain ⟨handle, present, rfl⟩ := Option.map_eq_some_iff.mp stepped
    refine view_shut at_ (List.mem_of_getElem? member) ?_ present ?_ x <;> rfl
  | shutClient task serial =>
    obtain ⟨shutdown, at_, stepped⟩ := Option.bind_eq_some_iff.mp stepped
    split at stepped
    case isTrue ready =>
      obtain ⟨handle, present, rfl⟩ := Option.map_eq_some_iff.mp stepped
      refine view_shut at_ ready.2 ?_ present (startClose_claims handle) x
      rfl
    · cases stepped
  | shutDone task serial =>
    obtain ⟨shutdown, at_, stepped⟩ := Option.bind_eq_some_iff.mp stepped
    split at stepped
    case isTrue ready =>
      obtain ⟨handle, present, rfl⟩ := Option.map_eq_some_iff.mp stepped
      refine view_shut at_ ready.1 ?_ present ?_ x <;> rfl
    · cases stepped

def State.Counted (s : State) : Prop := ∀ x, (s.view x).Counted

def State.Calm (s : State) : Prop := ∀ x, (s.view x).Calm

theorem counted_of_reaches {Allowed : State → Event → Prop} (reached : Reaches machine Allowed s) : s.Counted := by
  have initial (s : State) (initial : machine.Initial s) : s.Counted := by
    obtain rfl : s = {} := initial
    exact fun x => ⟨fun _ => ⟨rfl, rfl, rfl, rfl, rfl⟩, nofun⟩
  have preserved : Preserves machine Allowed (fun _ => True) State.Counted :=
    fun _ known _ stepped x => (step_view known stepped x).counted (known x)
  exact reached.invariant initial preserved

theorem calm_of_reaches (reached : Reaches machine Undisturbed s) : s.Calm := by
  have initial (s : State) (initial : machine.Initial s) : s.Calm := by
    obtain rfl : s = {} := initial
    exact fun x => ⟨nofun, nofun, ⟨Nat.zero_le _, nofun⟩, nofun, nofun⟩
  have preserved : Preserves machine Undisturbed State.Counted State.Calm := by
    intro s t e known calm undisturbed stepped x
    have moved := step_view known stepped x
    rw [eq_true undisturbed] at moved
    exact moved.keeps_calm (known x) (calm x)
  exact reached.invariant_of (fun _ => counted_of_reaches) initial preserved

/-- Claims are counted, and a claimed handle that no registry close took has a client that is not
closed, and that no releasing or evicting task is about to close. -/
structure Sound (s : State) : Prop where
  counted : ∀ serial handle, s.handles[serial]? = some handle → handle.claims = s.outstanding serial
  unclosed : ∀ serial handle, s.handles[serial]? = some handle → 0 < s.outstanding serial →
    s.taken serial = false → handle.client.torn = false
  kept : ∀ serial handle, s.handles[serial]? = some handle → 0 < s.outstanding serial →
    s.taken serial = false → handle.closed = false ∧
      ∀ owner ∈ s.owners, (owner.handle = serial → owner.stage.closes = false) ∧ owner.stage.victim ≠ some serial

/-- Counting is right in every run, and the rest of what claims promise in every run in which no
`acquire` meets a handle between the release of its last claim and its retirement. -/
theorem claims_sound (s : State) : (Reachable machine s → ∀ serial handle, s.handles[serial]? = some handle →
      handle.claims = s.outstanding serial) ∧
    (Reaches machine Undisturbed s → Sound s) := by
  refine ⟨fun reached serial => (counted_of_reaches reached serial).counted, fun reached => ?_⟩
  have calm := calm_of_reaches reached
  refine ⟨fun serial => (counted_of_reaches reached serial).counted, fun serial handle present claimed free => ?_,
    fun serial handle present claimed free => ?_⟩
  · exact ((calm serial).kept handle present (.inl claimed) free).2.1
  · obtain ⟨unclosed, _, closers, evictors⟩ := (calm serial).kept handle present (.inl claimed) free
    refine ⟨unclosed, fun owner member => ?_⟩
    obtain ⟨i, at_⟩ := List.mem_iff_getElem?.mp member
    refine ⟨fun same => ?_, fun evicts => ?_⟩
    · by_contra closes
      have : 0 < s.closers serial := total_pos at_ ⟨same, by simpa using closes⟩
      exact absurd closers (Nat.ne_of_gt this)
    · have : 0 < s.evictors serial := total_pos at_ evicts
      exact absurd evictors (Nat.ne_of_gt this)

def undisturbed (s : State) : Event → Bool
  | .acquire key _ => (s.pools.lookup key).all fun entry => s.isClosed entry.handle || s.closers entry.handle == 0
  | .close i => s.owners[i]?.all fun owner => s.outstanding owner.handle != 1 || !s.found owner.handle
  | _ => true

theorem undisturbed_sound (s : State) (e : Event) (checked : undisturbed s e = true) : Undisturbed s e := by
  cases e with
  | acquire key now =>
    intro entry looked unclosed
    simpa [undisturbed, looked, unclosed] using checked
  | close i =>
    intro owner at_ last
    simpa [undisturbed, at_, last] using checked
  | _ => trivial

/-- Two pools of one configuration, of which the first closes. -/
theorem claims_sound_shared : ∃ s, Reaches machine Undisturbed s ∧ s.outstanding 0 = 1 ∧ Sound s := by
  have ran : (run machine undisturbed {}
      [.acquire ⟨[]⟩ 0, .client 0, .acquire ⟨[]⟩ 1, .claim 1, .client 1, .close 0]).any
        (fun s => decide (s.outstanding 0 = 1)) = true := by
    decide +kernel
  obtain ⟨s, reached, claimed⟩ := exists_of_run undisturbed_sound rfl ran
  exact ⟨s, reached, of_decide_eq_true claimed, (claims_sound s).2 reached⟩

/-- The second pool acquires after the first released the last claim and before it retired the
handle: it is left with a closed client. -/
theorem acquire_returns_closing_handle : ∃ s, Reachable machine s ∧ s.taken 0 = false ∧
    s.owners[1]? = some { handle := 0, stage := .holding } ∧
    s.handles[0]? = some { claims := 1, closed := true, client := .closed } ∧ ¬Sound s := by
  obtain ⟨s, reached, free, holding, closed, claimed⟩ := exists_reachable machine rfl
    [.acquire ⟨[]⟩ 0, .client 0, .close 0, .acquire ⟨[]⟩ 1, .claim 1, .check 0, .shut 0, .drained 0, .leave 0]
    (fun s => s.taken 0 = false ∧ s.owners[1]? = some { handle := 0, stage := .holding } ∧
      s.handles[0]? = some { claims := 1, closed := true, client := .closed } ∧ s.outstanding 0 = 1)
    (by decide +kernel)
  refine ⟨s, reached, free, holding, closed, fun sound => ?_⟩
  cases sound.unclosed 0 _ closed (by omega) free

end RabbitRs.Runtime
