import FleetOps.Proofs.Scheduler.Environments
import FleetOps.Proofs.Scheduler.Exclusion
import FleetOps.Proofs.Store.Register

set_option autoImplicit false

/-!
The order of the history while runs and prunes go on side by side. A run keeps the id and the time of the record
that it created, whatever it makes of it, so every record that is ever stored is as the register has it; and the
register rises with the clock.
-/

namespace FleetOps

theorem ExecutionRecord.lasting_entered (register : List Instant) : Lasting (Entered register) := by
  intro r r' change now applied entered
  obtain ⟨id, -, createdAt⟩ := apply_kept (c := ⟨change, now⟩) applied
  exact entered.of_same id createdAt

namespace Scheduler

variable {s s' : Scheduler} {run run' : Run} {register : List Instant} {r : ExecutionRecord}

theorem attempt_store {α : Type} (s : Scheduler) (p : FaultPoint)
    (call : Store → Except SchedulerError α × Store) :
    (s.attempt p (onStore call)).2.store = s.store ∧ (s.attempt p (onStore call)).1 = .error (injected p) ∨
      (s.attempt p (onStore call)).2.store = (call s.store).2 ∧ (s.attempt p (onStore call)).1 = (call s.store).1 := by
  unfold attempt
  split
  · exact .inl ⟨rfl, rfl⟩
  · exact .inr ⟨rfl, rfl⟩

theorem create_registered (registered : s.store.Registered register) (new : NewExecution) :
    (s.create new).2.store.Registered register ∧ (s.create new).1 = .error (injected .create) ∨
      (s.create new).2.store.Registered (register ++ [s.clock.now]) ∧
        (s.create new).1 = .ok (.queued (register.length + 1) new s.clock.now) := by
  obtain ⟨store, created, registered'⟩ := registered.create new s.clock.now
  rcases s.attempt_store .create fun store => store.create new s.clock.now with ⟨same, failed⟩ | ⟨left, answer⟩
  · exact .inl ⟨(congrArg (Store.Registered · register) same).mpr registered, failed⟩
  · rw [created] at left answer
    exact .inr ⟨(congrArg (Store.Registered · _) left).mpr registered', answer⟩

theorem update_registered (registered : s.store.Registered register) (entered : r.Entered register) :
    (s.update r).2.store.Registered register := by
  rcases s.attempt_store .update fun store => store.update r with ⟨same, -⟩ | ⟨left, -⟩
  · exact (congrArg (Store.Registered · register) same).mpr registered
  · exact (congrArg (Store.Registered · register) left).mpr (registered.update entered)

theorem prune_registered (registered : s.store.Registered register) (cutoff : Instant) :
    (s.prune cutoff).2.store.Registered register := by
  rcases s.attempt_store .prune fun store => store.prune Folder.entries cutoff with ⟨same, -⟩ | ⟨left, -⟩
  · exact (congrArg (Store.Registered · register) same).mpr registered
  · have complete : Listing.Complete Folder.entries := fun d => .refl _
    exact (congrArg (Store.Registered · register) left).mpr (registered.prune complete cutoff)

theorem perform_registered (registered : s.store.Registered register) (work : JobWork) :
    (s.perform work).2.store.Registered register := by
  rcases s.perform_state work with same | ⟨days, cutoff, -, pruned⟩
  · rwa [same]
  · rw [pruned]
    exact prune_registered registered cutoff

theorem Steps.entered (uncreated : ∀ q, s.event? run ≠ some (.created (.ok q)))
    (entered : ∀ r ∈ run.phase.record?, r.Entered register) (steps : s.Steps run run' s') :
    ∀ r ∈ run'.phase.record?, r.Entered register :=
  steps.holds (ExecutionRecord.lasting_entered register) (fun q asked => absurd asked (uncreated q)) entered

theorem Steps.registered_created {answer : Except SchedulerError ExecutionRecord}
    (registered : s.store.Registered register) (entered : ∀ r ∈ run.phase.record?, r.Entered register)
    (asked : s.event? run = some (.created answer)) (steps : s.Steps run run' s') :
    ∃ register', (register' = register ∨ register' = register ++ [s.clock.now]) ∧
      s'.store.Registered register' ∧ ∀ r ∈ run'.phase.record?, r.Entered register' := by
  have left : s.create run.new = (answer, s') := steps.leaves asked
  have cases := create_registered registered run.new
  rw [left] at cases
  rcases cases with ⟨same, failed⟩ | ⟨grown, created⟩
  · have failed : answer = .error (injected .create) := failed
    exact ⟨register, .inl rfl, same, steps.entered (by simp [asked, failed]) entered⟩
  · have created : answer = .ok (.queued (register.length + 1) run.new s.clock.now) := created
    refine ⟨_, .inr rfl, grown, ?_⟩
    refine steps.holds (ExecutionRecord.lasting_entered _) (fun q own => ?_) fun r mem => (entered r mem).append _
    obtain rfl : .queued (register.length + 1) run.new s.clock.now = q := by simpa [asked, created] using own
    exact .queued register run.new s.clock.now

theorem Steps.registered (registered : s.store.Registered register)
    (entered : ∀ r ∈ run.phase.record?, r.Entered register) (steps : s.Steps run run' s') :
    ∃ register', (register' = register ∨ register' = register ++ [s.clock.now]) ∧
      s'.store.Registered register' ∧ ∀ r ∈ run'.phase.record?, r.Entered register' := by
  cases asked : s.event? run with
  | none =>
    refine ⟨register, .inl rfl, ?_, steps.entered (by simp [asked]) entered⟩
    rcases steps.silent asked with ⟨guards, rfl⟩ | ⟨r, body, -, rfl⟩
    · exact registered
    · exact perform_registered registered body.work
  | some e =>
    have left := steps.leaves asked
    cases e with
    | created answer => exact steps.registered_created registered entered asked
    | updated r answer =>
      have left : s.update r = (answer, s') := left
      have uncreated (q : ExecutionRecord) : s.event? run ≠ some (.created (.ok q)) := by simp [asked]
      have own : r.Entered register :=
        event_holds (ExecutionRecord.lasting_entered register) (fun q made => absurd made (uncreated q)) entered
          asked r rfl
      have updated := update_registered registered own
      rw [left] at updated
      exact ⟨register, .inl rfl, updated, steps.entered uncreated entered⟩
    | invoked context =>
      have left : s' = { s with invoked := s.invoked ++ [context] } := left
      exact ⟨register, .inl rfl, left ▸ registered, steps.entered (by simp [asked]) entered⟩

end Scheduler

inductive Deed where
  | move (m : Move)
  | prune (cutoff : Instant)

namespace Workload

def act (w : Workload) : Deed → Workload
  | .move m => w.move m
  | .prune cutoff => { w with scheduler := (w.scheduler.prune cutoff).2 }

def acts (w : Workload) (deeds : List Deed) : Workload :=
  deeds.foldl act w

def readings (w : Workload) : List Deed → List Instant
  | [] => [w.scheduler.clock.now]
  | d :: rest => w.scheduler.clock.now :: (w.act d).readings rest

structure Chronicled (w : Workload) (register : List Instant) : Prop where
  store : w.scheduler.store.Registered register
  runs : ∀ run ∈ w.runs, ∀ r ∈ run.phase.record?, r.Entered register
  rising : register.Pairwise fun t u => t.atMost u = true
  past : ∀ t ∈ register, t.atMost w.scheduler.clock.now = true
  ordinary : ∀ t ∈ register, t.Ordinary

namespace Chronicled

variable {w w' : Workload} {register register' : List Instant} {deeds : List Deed}

theorem opens (fresh : w.scheduler.store.Fresh) (arrived : ∀ run ∈ w.runs, run.phase = .arrived) :
    w.Chronicled [] where
  store := .fresh fresh
  runs := by
    intro run mem
    simp [arrived run mem, Phase.record?]
  rising := .nil
  past := by simp
  ordinary := by simp

theorem grow (chronicled : w.Chronicled register) (ordinary : w.scheduler.clock.now.Ordinary)
    (onward : w.scheduler.clock.now.atMost w'.scheduler.clock.now = true)
    (grown : register' = register ∨ register' = register ++ [w.scheduler.clock.now])
    (store : w'.scheduler.store.Registered register')
    (runs : ∀ run ∈ w'.runs, ∀ r ∈ run.phase.record?, r.Entered register') : w'.Chronicled register' := by
  have past : ∀ t ∈ register, t.atMost w'.scheduler.clock.now = true := fun t mem =>
    Instant.atMost_trans (chronicled.past t mem) onward
  rcases grown with rfl | rfl
  · exact ⟨store, runs, chronicled.rising, past, chronicled.ordinary⟩
  · refine ⟨store, runs, ?_, ?_, ?_⟩
    · rw [List.pairwise_append]
      exact ⟨chronicled.rising, List.pairwise_singleton _ _, by simpa using chronicled.past⟩
    · simpa [or_imp, forall_and] using ⟨past, onward⟩
    · simpa [or_imp, forall_and] using ⟨chronicled.ordinary, ordinary⟩

theorem run {i : Nat} {run : Run} (chronicled : w.Chronicled register)
    (ordinary : w.scheduler.clock.now.Ordinary) (there : w.runs[i]? = some run)
    (onward : w.scheduler.clock.now.atMost (w.move (.run i)).scheduler.clock.now = true) :
    ∃ register', (w.move (.run i)).Chronicled register' := by
  have held := chronicled.runs run (List.mem_of_getElem? there)
  obtain ⟨register', grown, store, entered⟩ := (w.scheduler.steps_step run).registered chronicled.store held
  refine ⟨register', chronicled.grow ordinary onward grown ?_ ?_⟩ <;> simp only [move, there]
  · exact store
  · intro other mem r own
    rcases List.mem_or_eq_of_mem_set mem with old | rfl
    · have before := chronicled.runs other old r own
      rcases grown with rfl | rfl
      · exact before
      · exact before.append _
    · exact entered r own

theorem act (chronicled : w.Chronicled register) (ordinary : w.scheduler.clock.now.Ordinary) {d : Deed}
    (onward : w.scheduler.clock.now.atMost (w.act d).scheduler.clock.now = true) :
    ∃ register', (w.act d).Chronicled register' := by
  cases d with
  | prune cutoff =>
    exact ⟨register, chronicled.grow ordinary onward (.inl rfl)
      (Scheduler.prune_registered chronicled.store cutoff) chronicled.runs⟩
  | move m =>
    cases m with
    | clock now =>
      exact ⟨register, chronicled.grow ordinary onward (.inl rfl) chronicled.store chronicled.runs⟩
    | toggle i =>
      refine ⟨register, chronicled.grow ordinary onward (.inl rfl) ?_ ?_⟩ <;> simp only [Workload.act, move]
      · cases w.toggles[i]? with
        | none => exact chronicled.store
        | some toggle =>
          have same := (w.scheduler.stepToggle_frame toggle).2
          exact (congrArg (Store.Registered · register) same).mpr chronicled.store
      · cases w.toggles[i]? <;> exact chronicled.runs
    | run i =>
      cases there : w.runs[i]? with
      | none =>
        have still : w.act (.move (.run i)) = w := by simp only [Workload.act, move, there]
        rw [still]
        exact ⟨register, chronicled⟩
      | some run => exact chronicled.run ordinary there onward

theorem acts (chronicled : w.Chronicled register)
    (onward : (w.readings deeds).Pairwise fun t u => t.atMost u = true)
    (ordinary : ∀ t ∈ w.readings deeds, t.Ordinary) : ∃ register', (w.acts deeds).Chronicled register' := by
  induction deeds generalizing w register with
  | nil => exact ⟨register, chronicled⟩
  | cons d rest ih =>
    obtain ⟨first, onward⟩ := List.pairwise_cons.mp onward
    obtain ⟨here, ordinary⟩ := List.forall_mem_cons.mp ordinary
    have next : (w.act d).scheduler.clock.now ∈ (w.act d).readings rest := by
      cases rest <;> simp [readings]
    obtain ⟨register', chronicled⟩ := chronicled.act here (first _ next)
    exact ih chronicled onward ordinary

end Chronicled

/-- However runs, toggles and prunes take turns on a store that was empty, as long as the clock does not go back
each page lists its records by falling id, and those of a key by falling time of creation too. The time of
creation never decides against the id. -/
theorem history_by_creation {w : Workload} (fresh : w.scheduler.store.Fresh)
    (arrived : ∀ run ∈ w.runs, run.phase = .arrived) {deeds : List Deed}
    (onward : (w.readings deeds).Pairwise fun t u => t.atMost u = true)
    (ordinary : ∀ t ∈ w.readings deeds, t.Ordinary) {listing : Listing} (complete : listing.Complete) :
    ∃ records : List ExecutionRecord, ∀ q : ExecutionQuery,
      ((w.acts deeds).scheduler.store.serve listing (.query q)).1 = .page (.ok (q.apply records)) ∧
      ((q.apply records).records.Pairwise fun a b => b.id < a.id) ∧
      (∀ k, ((q.apply records).records.filter (·.key = k)).Pairwise fun a b =>
        b.id < a.id ∧ b.createdAt.atMost a.createdAt = true) ∧
      q.ordered records = (records.filter q.selects).mergeSort ExecutionQuery.greaterIdFirst := by
  obtain ⟨register, chronicled⟩ := (Chronicled.opens fresh arrived).acts onward ordinary
  obtain ⟨records, pages, once, entered⟩ := chronicled.store.query chronicled.ordinary complete
  refine ⟨records, fun q => ?_⟩
  obtain ⟨byId, falling⟩ := q.ordered_by_id chronicled.rising once entered
  have falling : (q.apply records).records.Pairwise fun a b =>
      b.id < a.id ∧ b.createdAt.atMost a.createdAt = true :=
    falling.sublist ((List.take_sublist _ _).trans (List.drop_sublist _ _))
  exact ⟨pages q, falling.imp And.left, fun k => falling.filter _, byId⟩

def bystanding : Workload :=
  { rivals with runs := rivals.runs ++ [{ new := ⟨⟨.envUpdateCheck, .numeric 4⟩, some 4, .manual⟩ }] }

def pruneBetween : List Deed :=
  List.replicate 7 (.move (.run 2)) ++
    [.move (.clock ⟨5, 0⟩), .move (.run 0), .move (.run 1), .move (.run 0), .move (.run 1), .prune ⟨1, 0⟩,
     .move (.clock ⟨6, 0⟩), .move (.run 1), .move (.run 0)]

def rivalRecord (id : ExecutionId) (trigger : TriggerSource) : ExecutionRecord :=
  .queued id ⟨⟨.containerUpdate, .numeric 1⟩, none, trigger⟩ ⟨5, 0⟩

def rivalRecords : List ExecutionRecord :=
  [{ rivalRecord 2 .cron with status := .running, startedAt := some ⟨5, 0⟩ },
   { rivalRecord 3 .manual with status := .skipped, finishedAt := some ⟨5, 0⟩,
                                result := some (ExecutionRecord.reasonJson alreadyRunning) }]

theorem rivalRecords_ordered : ({} : ExecutionQuery).ordered rivalRecords = rivalRecords.reverse := by
  have once : (rivalRecords.map (·.id)).Nodup := by decide
  have drawn : rivalRecords.filter (({} : ExecutionQuery).Matches ·) = rivalRecords := rfl
  have newest : ({} : ExecutionQuery).IsHistory rivalRecords rivalRecords.reverse := by
    refine ⟨drawn.symm ▸ List.reverse_perm _, ?_⟩
    simp [rivalRecords, rivalRecord, ExecutionQuery.Precedes, ExecutionRecord.queued]
  exact newest.unique (ExecutionQuery.isHistory_ordered once)

theorem bystanding_by_creation :
    ∃ page : ExecutionPage,
      ((bystanding.acts pruneBetween).scheduler.store.serve Folder.entries (.query {})).1 = .page (.ok page) ∧
      (page.records.map fun r => (r.id, r.createdAt)) = [(3, ⟨5, 0⟩), (2, ⟨5, 0⟩)] ∧
      page.records.Pairwise fun a b => b.id < a.id := by
  have arrived : ∀ run ∈ bystanding.runs, run.phase = .arrived := by simp [bystanding, rivals]
  have onward : (bystanding.readings pruneBetween).Pairwise fun t u => t.atMost u = true := by decide +kernel
  have ordinary : ∀ t ∈ bystanding.readings pruneBetween, t.Ordinary := by decide +kernel
  have complete : Listing.Complete Folder.entries := fun d => .refl _
  obtain ⟨records, shows⟩ := history_by_creation .memory arrived onward ordinary complete
  obtain ⟨served, falling, -, -⟩ := shows {}
  have stored : (bystanding.acts pruneBetween).scheduler.store =
      .memory { records := rivalRecords, lastId := 3 } := rfl
  have shown : ((({} : ExecutionQuery).apply rivalRecords).records.map fun r => (r.id, r.createdAt)) =
      [(3, ⟨5, 0⟩), (2, ⟨5, 0⟩)] := by
    rw [ExecutionQuery.apply, rivalRecords_ordered]
    rfl
  have same : ({} : ExecutionQuery).apply rivalRecords = ({} : ExecutionQuery).apply records := by
    rw [stored] at served
    exact Except.ok.inj (StoreAnswer.page.inj served)
  rw [same] at shown
  exact ⟨_, served, shown, falling⟩

end Workload

end FleetOps
