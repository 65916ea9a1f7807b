import RabbitRs.Laravel.Queue

/-!
What becomes of drained error records. A drain is destructive, and a sweep throws at the first record
of some kinds: the records of its batch that come later are gone.
-/

namespace RabbitRs.Laravel

open Buffer StepMachine

variable {settings : Settings} {s t u : State}

namespace State

def surfaced (s : State) : List PendingPublishError :=
  s.thrown ++ s.log.filterMap Entry.publication? ++ s.counted

def poisonLogged (s : State) : List SettlementRecord := s.log.filterMap Entry.poison?

end State

/-- Every drained publish failure was thrown, logged or counted, and every drained poison record
logged. -/
structure Surfaced (s : State) : Prop where
  publishes : s.surfaced.Perm s.drained
  settlements : s.poisonLogged.Perm (s.settlements.filter SettlementRecord.poison)

/-- No poison record stands behind the record that ends the sweep. -/
def batchesSpare : List (List SettlementRecord) → Bool
  | [] => true
  | batch :: rest =>
    match batch.dropWhile fun record => !record.kind.connectionLevel with
    | [] => batchesSpare rest
    | tail => tail.all fun record => !record.poison

def State.batches (s : State) : List (List SettlementRecord) := s.consumers.map fun entry => entry.2.batch

/-- A sweep finds at most one publish failure, and without one batches that it does not cut short in
front of a poison record. -/
def State.sweepSpares (s : State) : Bool :=
  !s.poolOpen ||
    match s.errors.pending with
    | [] => batchesSpare s.batches
    | _ :: rest => rest.isEmpty

/-- A pop that begins with `stats` meets publish failures there. -/
def Event.spares (s : State) : Event → Bool
  | .sweep | .pop _ false _ => s.sweepSpares
  | .pop _ true _ => !s.poolOpen || !s.errors.pending.isEmpty || batchesSpare s.batches
  | _ => true

structure Books (s t : State) (batch kept : List PendingPublishError) (records noted : List SettlementRecord) :
    Prop where
  drained : t.drained = s.drained ++ batch
  surfaced : t.surfaced.Perm (s.surfaced ++ kept)
  settlements : t.settlements = s.settlements ++ records
  logged : t.poisonLogged = s.poisonLogged ++ noted
  counter : t.errors.dropped + (s.evicted + s.counted.length) = s.errors.dropped + (t.evicted + t.counted.length)

structure Aside (s t : State) : Prop where
  drained : t.drained = s.drained
  thrown : t.thrown = s.thrown
  counted : t.counted = s.counted
  log : t.log = s.log
  settlements : t.settlements = s.settlements
  dropped : t.errors.dropped = s.errors.dropped
  evicted : t.evicted = s.evicted

theorem Aside.refl (s : State) : Aside s s := ⟨rfl, rfl, rfl, rfl, rfl, rfl, rfl⟩

theorem Aside.trans (first : Aside s t) (second : Aside t u) : Aside s u :=
  ⟨second.drained.trans first.drained, second.thrown.trans first.thrown, second.counted.trans first.counted,
    second.log.trans first.log, second.settlements.trans first.settlements, second.dropped.trans first.dropped,
    second.evicted.trans first.evicted⟩

theorem Aside.books (aside : Aside s t) : Books s t [] [] [] [] := by
  refine ⟨by simp [aside.drained], ?_, by simp [aside.settlements], by simp [State.poisonLogged, aside.log], ?_⟩
  · simp [State.surfaced, aside.thrown, aside.counted, aside.log]
  · rw [aside.dropped, aside.evicted, aside.counted]

theorem Books.trans {batch kept batch' kept' : List PendingPublishError}
    {records noted records' noted' : List SettlementRecord} (first : Books s t batch kept records noted)
    (second : Books t u batch' kept' records' noted') :
    Books s u (batch ++ batch') (kept ++ kept') (records ++ records') (noted ++ noted') := by
  refine ⟨?_, ?_, ?_, ?_, ?_⟩
  · rw [second.drained, first.drained, List.append_assoc]
  · refine second.surfaced.trans ?_
    rw [← List.append_assoc]
    exact first.surfaced.append_right kept'
  · rw [second.settlements, first.settlements, List.append_assoc]
  · rw [second.logged, first.logged, List.append_assoc]
  · have before := first.counter
    have after := second.counter
    omega

def Enters (s t : State) (spared : Bool) : Prop :=
  ∃ batch kept records noted, Books s t batch kept records noted ∧ kept.Sublist batch ∧
    noted.Sublist (records.filter SettlementRecord.poison) ∧
    (kept = batch ∧ noted = records.filter SettlementRecord.poison ↔ spared = true)

theorem Books.enters {batch : List PendingPublishError} {records noted : List SettlementRecord}
    (books : Books s t batch batch records noted) (all : noted = records.filter SettlementRecord.poison) :
    Enters s t true :=
  ⟨batch, batch, records, noted, books, List.Sublist.refl _, all ▸ List.Sublist.refl _,
    fun _ => rfl, fun _ => ⟨rfl, all⟩⟩

theorem Aside.enters (aside : Aside s t) : Enters s t true := aside.books.enters rfl

theorem Enters.trans {first second : Bool} (one : Enters s t first) (two : Enters t u second) :
    Enters s u (first && second) := by
  obtain ⟨batch, kept, records, noted, books, inside, within, whole⟩ := one
  obtain ⟨batch', kept', records', noted', books', inside', within', whole'⟩ := two
  refine ⟨_, _, _, _, books.trans books', inside.append inside', ?_, ?_⟩
  · rw [List.filter_append]
    exact within.append within'
  · rw [List.filter_append, Tally.append_eq_iff_of_sublist inside inside', Tally.append_eq_iff_of_sublist within within',
      Bool.and_eq_true, ← whole, ← whole']
    exact and_and_and_comm

theorem write_books {entry : Entry} (other : entry.publication? = none) :
    Books s (s.write entry) [] [] [] entry.poison?.toList := by
  refine ⟨(List.append_nil _).symm, ?_, (List.append_nil _).symm, ?_, rfl⟩
  · simp [State.surfaced, State.write, other]
  · cases poison : entry.poison? <;> simp [State.poisonLogged, State.write, poison]

theorem report_books (record : SettlementRecord) :
    Books s (s.report record) [] [] [] ([record].filter SettlementRecord.poison) := by
  unfold State.report
  cases poison : record.poison with
  | true =>
    rw [if_pos rfl, List.filter_singleton, poison]
    exact write_books rfl
  | false =>
    rw [if_neg Bool.false_ne_true, List.filter_singleton, poison]
    exact write_books rfl

theorem report_consumers (record : SettlementRecord) : (s.report record).consumers = s.consumers := by
  unfold State.report
  split <;> rfl

theorem sweepBatch_books (bound : settings.container = true) (batch : List SettlementRecord) :
    Books s (s.sweepBatch settings batch).1 [] [] []
      ((batch.takeWhile fun record => !record.kind.connectionLevel).filter SettlementRecord.poison) := by
  induction batch generalizing s with
  | nil => exact (Aside.refl s).books
  | cons record rest ih =>
    unfold State.sweepBatch
    cases level : record.kind.connectionLevel with
    | true =>
      simp only [level, if_true, List.takeWhile_cons, Bool.not_true, Bool.false_eq_true, if_false, List.filter_nil]
      exact (Aside.refl s).books
    | false =>
      simp only [Bool.false_eq_true, if_false, bound, if_true, List.takeWhile_cons, level, Bool.not_false]
      have entered := (@report_books s record).trans ih
      rw [← List.filter_append] at entered
      exact entered

theorem sweepBatch_consumers (batch : List SettlementRecord) :
    (s.sweepBatch settings batch).1.consumers = s.consumers := by
  induction batch generalizing s with
  | nil => rfl
  | cons record rest ih =>
    unfold State.sweepBatch
    split
    · rfl
    · rw [ih]
      split
      · exact report_consumers record
      · rfl

theorem sweepBatch_raised (batch : List SettlementRecord) : (s.sweepBatch settings batch).2 = none ↔
    batch.dropWhile (fun record => !record.kind.connectionLevel) = [] := by
  induction batch generalizing s with
  | nil => exact ⟨fun _ => rfl, fun _ => rfl⟩
  | cons record rest ih =>
    unfold State.sweepBatch
    cases level : record.kind.connectionLevel with
    | true => simp [level]
    | false => simp [level, ih]

theorem drainConsumer_books (position : Nat) :
    Books s (s.drainConsumer position).1 [] [] (s.drainConsumer position).2 [] := by
  refine ⟨by simp [State.drainConsumer], ?_, rfl, by simp [State.drainConsumer, State.poisonLogged], rfl⟩
  simp [State.drainConsumer, State.surfaced]

theorem drainConsumer_batch {position : Nat} {entry : String × Consumer} (found : s.consumers[position]? = some entry) :
    (s.drainConsumer position).2 = entry.2.batch := by
  simp [State.drainConsumer, found]

theorem drainConsumer_later (position : Nat) :
    (s.drainConsumer position).1.batches.drop (position + 1) = s.batches.drop (position + 1) := by
  simp only [State.batches, State.drainConsumer, ← List.map_drop]
  congr 1
  refine List.ext_getElem? fun i => ?_
  rw [List.getElem?_drop, List.getElem?_drop, List.getElem?_modify_ne _ _ (by omega)]

theorem filter_takeWhile_iff {batch : List SettlementRecord} {keep : SettlementRecord → Bool} :
    (batch.takeWhile keep).filter SettlementRecord.poison = batch.filter SettlementRecord.poison ↔
      (batch.dropWhile keep).all (fun record => !record.poison) = true := by
  conv_lhs => rhs; rw [← List.takeWhile_append_dropWhile (p := keep) (l := batch)]
  rw [List.filter_append, eq_comm, List.append_right_eq_self, List.filter_eq_nil_iff, List.all_eq_true]
  simp

theorem sweepConsumers_books (bound : settings.container = true) (left position : Nat)
    (inside : position + left = s.consumers.length) :
    ∃ records noted, Books s (s.sweepConsumers settings left position).1 [] [] records noted ∧
      noted.Sublist (records.filter SettlementRecord.poison) ∧
      (noted = records.filter SettlementRecord.poison ↔ batchesSpare (s.batches.drop position) = true) := by
  induction left generalizing s position with
  | zero =>
    refine ⟨[], [], (Aside.refl s).books, List.Sublist.refl _, ?_⟩
    have none : s.batches.drop position = [] := List.drop_eq_nil_of_le (by rw [State.batches, List.length_map]; omega)
    rw [none]
    exact ⟨fun _ => rfl, fun _ => rfl⟩
  | succ left ih =>
    obtain ⟨entry, found⟩ : ∃ entry, s.consumers[position]? = some entry :=
      ⟨_, List.getElem?_eq_getElem (by omega)⟩
    have first : s.batches.drop position = entry.2.batch :: s.batches.drop (position + 1) := by
      refine (List.drop_eq_getElem?_toList_append ..).trans ?_
      simp [State.batches, found]
    have same : (s.drainConsumer position).2 = entry.2.batch := drainConsumer_batch found
    have entered := (@drainConsumer_books s position).trans
      (@sweepBatch_books settings (s.drainConsumer position).1 bound (s.drainConsumer position).2)
    rw [List.append_nil, List.append_nil, List.nil_append, same] at entered
    have stops := @sweepBatch_raised settings (s.drainConsumer position).1 (s.drainConsumer position).2
    rw [same] at stops
    unfold State.sweepConsumers
    rw [first, batchesSpare, same]
    split
    · case h_1 u raised swept =>
      -- the batch is cut short, and the sweep ends
      rw [swept] at entered stops
      refine ⟨_, _, entered, (List.takeWhile_sublist _).filter _, filter_takeWhile_iff.trans ?_⟩
      split
      · case h_1 whole => cases stops.mpr whole
      · exact Iff.rfl
    · case h_2 u swept =>
      rw [swept] at entered stops
      have whole := stops.mp rfl
      have consumers : u.consumers = (s.drainConsumer position).1.consumers := by
        have kept := @sweepBatch_consumers settings (s.drainConsumer position).1 entry.2.batch
        rw [swept] at kept
        exact kept
      have later : u.batches.drop (position + 1) = s.batches.drop (position + 1) := by
        rw [State.batches, consumers]
        exact drainConsumer_later position
      have length : u.consumers.length = s.consumers.length := by
        rw [consumers]
        exact List.length_modify _ _ _
      obtain ⟨records, noted, rest, sub, exact_⟩ := @ih u (position + 1) (by omega)
      have all : (entry.2.batch.takeWhile fun record => !record.kind.connectionLevel) = entry.2.batch := by
        have split := List.takeWhile_append_dropWhile (p := fun record : SettlementRecord =>
          !record.kind.connectionLevel) (l := entry.2.batch)
        rw [whole, List.append_nil] at split
        exact split
      rw [all] at entered
      refine ⟨_, _, entered.trans rest, ?_, ?_⟩
      · rw [List.filter_append]
        exact (List.Sublist.refl _).append sub
      · rw [List.filter_append, List.append_cancel_left_eq, whole, exact_, later]

theorem surfaced_perm {a b c : List PendingPublishError} (thrown : t.thrown = s.thrown ++ a)
    (log : t.log.filterMap Entry.publication? = s.log.filterMap Entry.publication? ++ b)
    (counted : t.counted = s.counted ++ c) : t.surfaced.Perm (s.surfaced ++ (a ++ b ++ c)) := by
  rw [State.surfaced, thrown, log, counted]
  exact Tally.perm_append_parts ..

theorem surfacePublishErrors_enters : Enters s s.surfacePublishErrors.1 true := by
  unfold State.surfacePublishErrors
  split
  · exact (Aside.refl s).enters
  · case h_2 first rest pending =>
    have books : Books s { s.takeErrors with
        errors := { pending := [], dropped := s.errors.dropped + rest.length }
        thrown := s.thrown ++ [first]
        counted := s.counted ++ rest } (first :: rest) (first :: rest) [] [] := by
      refine ⟨?_, ?_, (List.append_nil _).symm, (List.append_nil _).symm, ?_⟩
      · rw [← pending]
        rfl
      · exact @surfaced_perm s _ [first] [] rest rfl (List.append_nil _).symm rfl
      · simp only [List.length_append]
        change _ + (s.evicted + _) = _ + (s.evicted + _)
        omega
    exact books.enters rfl

theorem poolOperation_enters (operation : String) : Enters s (s.poolOperation operation).1 true := by
  unfold State.poolOperation
  split
  · exact surfacePublishErrors_enters
  · exact (Aside.refl s).enters

theorem drainPublishErrors_enters {first : PendingPublishError} {rest : List PendingPublishError}
    (pool : s.poolOpen = true) (pending : s.errors.pending = first :: rest) :
    Enters s s.drainPublishErrors.1 rest.isEmpty ∧ s.drainPublishErrors.2 ≠ none := by
  have opened : s.drainPublishErrors = ({ s.takeErrors with thrown := s.thrown ++ [first] },
      some (if first.kind = "Transport" then .connection first.message else .queue first.message)) := by
    rw [State.drainPublishErrors, if_pos pool, pending]
  rw [opened]
  refine ⟨⟨s.errors.pending, [first], [], [], ⟨rfl, ?_, ?_, ?_, rfl⟩, ?_, List.Sublist.refl _, ?_⟩, nofun⟩
  · exact @surfaced_perm s _ [first] [] [] rfl (List.append_nil _).symm (List.append_nil _).symm
  · exact (List.append_nil _).symm
  · exact (List.append_nil _).symm
  · rw [pending]
    exact List.Sublist.cons_cons _ (List.nil_sublist _)
  · rw [pending]
    cases rest <;> simp

theorem drainPublishErrors_empty (pool : s.poolOpen = true) (pending : s.errors.pending = []) :
    s.drainPublishErrors = (s.takeErrors, none) ∧ Aside s s.takeErrors := by
  refine ⟨by rw [State.drainPublishErrors, if_pos pool, pending], ⟨?_, rfl, rfl, rfl, rfl, rfl, rfl⟩⟩
  rw [State.takeErrors, pending]
  exact List.append_nil _

theorem drainSettlementErrors_enters (bound : settings.container = true) :
    Enters s (s.drainSettlementErrors settings).1 s.sweepSpares := by
  unfold State.drainSettlementErrors State.sweepSpares
  cases pool : s.poolOpen with
  | false =>
    rw [State.drainPublishErrors, if_neg (by rw [pool]; exact Bool.false_ne_true)]
    exact (Aside.refl s).enters
  | true =>
    cases pending : s.errors.pending with
    | cons first rest =>
      obtain ⟨entered, raised⟩ := drainPublishErrors_enters pool pending
      split
      · case h_1 u error same =>
        rw [same] at entered
        exact entered
      · case h_2 u same =>
        rw [same] at raised
        exact absurd rfl raised
    | nil =>
      obtain ⟨same, aside⟩ := drainPublishErrors_empty pool pending
      rw [same]
      obtain ⟨records, noted, books, within, whole⟩ :=
        @sweepConsumers_books settings s.takeErrors bound s.takeErrors.consumers.length 0 (by omega)
      refine ⟨_, _, _, _, aside.books.trans books, List.Sublist.refl _, within, ?_⟩
      rw [List.nil_append, List.nil_append, List.nil_append, and_iff_right rfl, whole]
      rfl

theorem evict_aside (profile : String) : Aside s (s.evict profile) := ⟨rfl, rfl, rfl, rfl, rfl, rfl, rfl⟩

theorem cache_aside (profile : String) (sources : Nat) : Aside s (s.cache profile sources) := by
  unfold State.cache
  split <;> exact ⟨rfl, rfl, rfl, rfl, rfl, rfl, rfl⟩

theorem refetchAfterClosed_aside (profile original : String) (fetch : Nat → Fetch) (left attempt : Nat) :
    Aside s (State.refetchAfterClosed profile original fetch left attempt s).1 := by
  induction left generalizing s attempt with
  | zero => exact .refl s
  | succ left ih =>
    unfold State.refetchAfterClosed
    split
    · exact cache_aside profile _
    · exact cache_aside profile _
    · exact evict_aside profile
    · split
      · exact (evict_aside profile).trans (ih (attempt + 1))
      · exact evict_aside profile

theorem fetchDelivery_aside (profile : String) (fetch : Nat → Fetch) :
    Aside s (s.fetchDelivery profile fetch).1 := by
  unfold State.fetchDelivery
  split
  · exact cache_aside profile _
  · exact cache_aside profile _
  · exact evict_aside profile
  · split
    · exact (evict_aside profile).trans (refetchAfterClosed_aside _ _ _ _ _)
    · exact evict_aside profile

theorem popProfile_aside (queueName : String) : Aside s (s.popProfile queueName).1 := by
  unfold State.popProfile
  split
  · split <;> exact ⟨rfl, rfl, rfl, rfl, rfl, rfl, rfl⟩
  · split <;> exact .refl s

theorem settleUnmarshable_enters (delivery : Delivery) (reason : String) :
    Enters s (s.settleUnmarshable settings delivery reason).1 true := by
  have logged : ∀ action, Enters s (if settings.container then s.write (.unmarshable reason action) else s) true := by
    intro action
    split
    · have books : Books s (s.write (.unmarshable reason action)) [] [] [] [] := write_books rfl
      exact books.enters rfl
    · exact (Aside.refl s).enters
  unfold State.settleUnmarshable
  split
  · exact (Aside.refl s).enters
  · exact logged _

theorem popDelivery_enters (queue : Option String) (fetch : Nat → Fetch) :
    Enters s (s.popDelivery settings queue fetch).1 true := by
  unfold State.popDelivery
  split
  · exact (Aside.refl s).enters
  · have resolved := @popProfile_aside s (queue.getD settings.defaultQueue)
    split
    · case h_1 t raised same =>
      rw [same] at resolved
      exact resolved.enters
    · case h_2 t profile same =>
      rw [same] at resolved
      have fetched := resolved.trans (@fetchDelivery_aside t profile fetch)
      split
      · case h_1 u raised got =>
        rw [got] at fetched
        exact fetched.enters
      · case h_2 u got =>
        rw [got] at fetched
        exact fetched.enters
      · case h_3 u delivery got =>
        rw [got] at fetched
        split
        · exact fetched.enters
        · exact fetched.enters.trans (settleUnmarshable_enters delivery _)
        · exact fetched.enters

theorem pop_enters (bound : settings.container = true) (queue : Option String) (due : Bool) (fetch : Nat → Fetch) :
    Enters s (s.pop settings queue due fetch).1 (Event.spares s (.pop queue due fetch)) := by
  -- the sweep, and what follows unless it throws
  have rest : Enters s (s.pop settings queue false fetch).1 s.sweepSpares := by
    have swept := @drainSettlementErrors_enters settings s bound
    unfold State.pop
    rw [if_neg Bool.false_ne_true]
    dsimp only
    split
    · case h_1 t raised same =>
      rw [same] at swept
      exact swept
    · case h_2 t same =>
      rw [same] at swept
      have popped := swept.trans (@popDelivery_enters settings t queue fetch)
      rw [Bool.and_true] at popped
      exact popped
  cases due with
  | false => exact rest
  | true =>
    have surfaced := @poolOperation_enters s "stats"
    cases pool : s.poolOpen with
    | false =>
      unfold State.pop
      rw [if_pos rfl, State.poolOperation, if_neg (by rw [pool]; exact Bool.false_ne_true)]
      simp only [Event.spares, pool, Bool.not_false, Bool.true_or]
      exact (Aside.refl s).enters
    | true =>
      cases pending : s.errors.pending with
      | nil =>
        have quiet : s.poolOperation "stats" = (s, none) := by
          rw [State.poolOperation, if_pos pool, State.surfacePublishErrors, pending]
        unfold State.pop at rest ⊢
        rw [if_pos rfl, quiet]
        simp only [Event.spares, pool, pending]
        simp only [State.sweepSpares, pool, pending] at rest
        exact rest
      | cons first others =>
        have raises : (s.poolOperation "stats").2 ≠ none := by
          rw [State.poolOperation, if_pos pool, State.surfacePublishErrors, pending]
          rintro ⟨⟩
        simp only [Event.spares, pool, pending, List.isEmpty_cons, Bool.not_true, Bool.not_false, Bool.false_or,
          Bool.true_or]
        unfold State.pop
        rw [if_pos rfl]
        split
        · case h_1 t raised same =>
          rw [same] at surfaced
          exact surfaced
        · case h_2 t same =>
          rw [same] at raises
          exact absurd rfl raises

theorem logPendingPublishErrors_enters : Enters s (s.logPendingPublishErrors settings) true := by
  unfold State.logPendingPublishErrors
  split
  · have published : (s.errors.pending.map Entry.publication).filterMap Entry.publication? = s.errors.pending := by
      rw [List.filterMap_map]
      exact List.filterMap_some
    have harmless : (s.errors.pending.map Entry.publication).filterMap Entry.poison? = [] := by
      rw [List.filterMap_map, List.filterMap_eq_nil_iff]
      exact fun _ _ => rfl
    have books : Books s { s.takeErrors with log := s.log ++ s.errors.pending.map Entry.publication }
        s.errors.pending s.errors.pending [] [] := by
      refine ⟨rfl, ?_, (List.append_nil _).symm, ?_, rfl⟩
      · have perm := @surfaced_perm s { s.takeErrors with log := s.log ++ s.errors.pending.map Entry.publication }
          [] s.errors.pending [] (List.append_nil _).symm (by rw [← published, ← List.filterMap_append, published])
          (List.append_nil _).symm
        rw [List.nil_append, List.append_nil] at perm
        exact perm
      · rw [State.poisonLogged, List.filterMap_append, harmless]
        rfl
    exact books.enters rfl
  · exact (Aside.refl s).enters

theorem reportAll_books (batch : List SettlementRecord) :
    Books s (batch.foldl State.report s) [] [] [] (batch.filter SettlementRecord.poison) := by
  induction batch generalizing s with
  | nil => exact (Aside.refl s).books
  | cons record rest ih =>
    have entered := (@report_books s record).trans (@ih (s.report record))
    rw [← List.filter_append] at entered
    exact entered

theorem logPendingSettlementErrors_enters (position : Nat) :
    Enters s (s.logPendingSettlementErrors settings position) true := by
  unfold State.logPendingSettlementErrors
  split
  · have books := (@drainConsumer_books s position).trans (reportAll_books (s.drainConsumer position).2)
    simp only [List.append_nil, List.nil_append] at books
    exact books.enters rfl
  · exact (Aside.refl s).enters

theorem closeConsumers_enters : Enters s (s.closeConsumers settings) true := by
  have logged : ∀ (positions : List Nat) (s : State),
      Enters s (positions.foldl (State.logPendingSettlementErrors settings) s) true := by
    intro positions
    induction positions with
    | nil => exact fun s => (Aside.refl s).enters
    | cons position rest ih => exact fun s => (logPendingSettlementErrors_enters position).trans (ih _)
  have cleared : Aside ((List.range s.consumers.length).foldl (State.logPendingSettlementErrors settings) s)
      (s.closeConsumers settings) := ⟨rfl, rfl, rfl, rfl, rfl, rfl, rfl⟩
  exact (logged _ s).trans cleared.enters

theorem finish_aside (done : State × Option Raised) : Aside done.1 (State.finish done) :=
  ⟨rfl, rfl, rfl, rfl, rfl, rfl, rfl⟩

theorem Enters.finish {done : State × Option Raised} {spared : Bool} (entered : Enters s done.1 spared) :
    Enters s (State.finish done) spared := by
  have finished := entered.trans (finish_aside done).enters
  rw [Bool.and_true] at finished
  exact finished

theorem failPublish_enters (error : PendingPublishError) : Enters s (s.failPublish error) true := by
  have books : Books s (s.failPublish error) [] [] [] [] := by
    refine ⟨(List.append_nil _).symm, ?_, (List.append_nil _).symm, (List.append_nil _).symm, ?_⟩
    · rw [List.append_nil]
      exact List.Perm.refl _
    · unfold State.failPublish ErrorQueue.record
      split
      · change s.errors.dropped + 1 + (s.evicted + s.counted.length) =
          s.errors.dropped + (s.evicted + 1 + s.counted.length)
        omega
      · rfl
  exact books.enters rfl

theorem next_enters (bound : settings.container = true) (e : Event) : Enters s (s.next settings e) (e.spares s) := by
  cases e with
  | publishFailed error => exact failPublish_enters error
  | settlementFailed profile source record =>
    have aside : Aside s (s.failSettlement profile source record) := ⟨rfl, rfl, rfl, rfl, rfl, rfl, rfl⟩
    exact aside.enters
  | poolClosed =>
    have aside : Aside s { s with poolOpen := false } := ⟨rfl, rfl, rfl, rfl, rfl, rfl, rfl⟩
    exact aside.enters
  | pop queue due fetch => exact (pop_enters bound queue due fetch).finish
  | sweep => exact (drainSettlementErrors_enters bound).finish
  | operation name => exact (poolOperation_enters name).finish
  | closeConsumers => exact closeConsumers_enters
  | destruct => exact logPendingPublishErrors_enters.trans closeConsumers_enters

structure Balanced (s : State) : Prop where
  publishes : s.surfaced.Subperm s.drained
  settlements : s.poisonLogged.Subperm (s.settlements.filter SettlementRecord.poison)
  counter : s.errors.dropped = s.evicted + s.counted.length

theorem Balanced.enters {spared : Bool} (balanced : Balanced s) (entered : Enters s t spared) :
    Balanced t ∧ (Surfaced t ↔ Surfaced s ∧ spared = true) := by
  obtain ⟨batch, kept, records, noted, books, inside, within, whole⟩ := entered
  obtain ⟨publishes, all⟩ := Tally.perm_append_iff balanced.publishes books.surfaced inside
  obtain ⟨settlements, each⟩ := Tally.perm_append_iff balanced.settlements (List.Perm.of_eq books.logged) within
  rw [← books.drained] at publishes all
  rw [← List.filter_append, ← books.settlements] at settlements each
  refine ⟨⟨publishes, settlements, ?_⟩, ?_⟩
  · have counter := books.counter
    have before := balanced.counter
    omega
  · rw [← whole]
    constructor
    · intro surfaced
      obtain ⟨before, kept⟩ := all.mp surfaced.publishes
      obtain ⟨earlier, noted⟩ := each.mp surfaced.settlements
      exact ⟨⟨before, earlier⟩, kept, noted⟩
    · rintro ⟨⟨before, earlier⟩, kept, noted⟩
      exact ⟨all.mpr ⟨before, kept⟩, each.mpr ⟨earlier, noted⟩⟩

theorem surfaced_iff_of_traced (bound : settings.container = true) {trace : List (State × Event)}
    (traced : Traced (machine settings) (fun _ _ => True) trace s) :
    Balanced s ∧ (Surfaced s ↔ ∀ turn ∈ trace, turn.2.spares turn.1 = true) := by
  induction traced with
  | start initial =>
    obtain ⟨profiles, rfl⟩ := initial
    refine ⟨⟨List.Subperm.refl _, List.Subperm.refl _, rfl⟩, ?_⟩
    exact ⟨nofun, fun _ => ⟨List.Perm.refl _, List.Perm.refl _⟩⟩
  | @next trace s t e before _ stepped ih =>
    obtain ⟨balanced, spared⟩ := ih
    cases stepped
    obtain ⟨now, surfaced⟩ := balanced.enters (next_enters bound e)
    refine ⟨now, ?_⟩
    rw [surfaced, spared, List.forall_mem_cons, and_comm]

/-- In a run of a queue with a container every drained publish failure is thrown, logged or counted as
dropped and every drained poison record logged if and only if no sweep finds a second publish failure
or cuts a batch short in front of a poison record. -/
theorem drained_records_surface_iff (bound : settings.container = true) {trace : List (State × Event)}
    (traced : Traced (machine settings) (fun _ _ => True) trace s) :
    s.errors.dropped = s.evicted + s.counted.length ∧
      (Surfaced s ↔ ∀ turn ∈ trace, turn.2.spares turn.1 = true) := by
  obtain ⟨balanced, spared⟩ := surfaced_iff_of_traced bound traced
  exact ⟨balanced.counter, spared⟩

def mailSettings : Settings where
  container := true
  defaultQueue := "mail"
  hasDeadLetter := false

def mailProfiles : Resolver := ⟨[("mail", [("mail", "mail")])]⟩

def poisonRecord : SettlementRecord where
  deliveryTag := 2
  subscription := "mail"
  kind := .maxAttempts
  message := "delivery attempt 21 exceeds the configured maximum of 20"

def transportRecord : SettlementRecord where
  deliveryTag := 1
  subscription := "mail"
  kind := .transport
  message := "channel closed"

def returnedError (messageId : String) : PendingPublishError where
  messageId
  kind := "Returned"
  message := "message " ++ messageId ++ " was returned as unroutable (AMQP 312)"

def popMail : Event := .pop none false fun _ => .empty 1

theorem poison_before_transport_surfaces : ∃ trace s,
    Traced (machine mailSettings) (fun _ _ => True) trace s ∧ s.settlements = [poisonRecord, transportRecord] ∧
      s.drained.length = 1 ∧ Surfaced s := by
  obtain ⟨trace, s, traced, spared, settlements, drained⟩ :=
    exists_traced (machine mailSettings) (fun _ _ => True) ⟨mailProfiles, rfl⟩
      [popMail, .settlementFailed "mail" 0 poisonRecord, .settlementFailed "mail" 0 transportRecord, .sweep,
        .publishFailed (returnedError "m1"), popMail]
      (fun trace s => (∀ turn ∈ trace, turn.2.spares turn.1 = true) ∧
        s.settlements = [poisonRecord, transportRecord] ∧ s.drained.length = 1) (by decide +kernel)
  exact ⟨trace, s, traced, settlements, drained, (drained_records_surface_iff rfl traced).2.mpr spared⟩

/-- A poison record behind a transport failure is drained and not logged, and of two publish failures
one is neither thrown nor logged nor counted. -/
theorem records_behind_a_throw_vanish : ∃ s, Reachable (machine mailSettings) s ∧ poisonRecord ∈ s.settlements ∧
    s.poisonLogged = [] ∧ s.drained.length = 2 ∧ s.surfaced.length = 1 ∧ s.errors.dropped = 0 := by
  exact exists_reachable (machine mailSettings) ⟨mailProfiles, rfl⟩
    [popMail, .settlementFailed "mail" 0 transportRecord, .settlementFailed "mail" 0 poisonRecord, .sweep,
      .publishFailed (returnedError "m1"), .publishFailed (returnedError "m2"), .sweep, .destruct] _
    (by decide +kernel)

end RabbitRs.Laravel
