import FleetOps.Jobs.Bodies
import FleetOps.Proofs.Execution.Record
import FleetOps.Proofs.Scheduler.Step
import FleetOps.Proofs.Settings.Startup
import FleetOps.Proofs.Store.Cleaning
import FleetOps.Proofs.Timestamp

set_option autoImplicit false

namespace FleetOps

def Instant.daysBefore (t : Instant) (days : Nat) : Instant :=
  { t with seconds := t.seconds - days * 86400 }

def Store.works (s : Store) (now : Instant) : JobWork → JobEnd × Store
  | .ends e => (e, s)
  | .prunes days =>
    match now.minusDays? days with
    | none => (.crashed "`DateTime - TimeDelta` overflowed", s)
    | some cutoff =>
      match s.prune Folder.entries cutoff with
      | (.ok removed, s) => (.completed (Scheduler.cleanupSummary removed cutoff), s)
      | (.error e, s) => (.failed (.failed e.message), s)

theorem Store.works_completed {s t : Store} {now : Instant} {days : Nat} {summary : Json} :
    s.works now (.prunes days) = (.completed summary, t) ↔ ∃ cutoff n, now.minusDays? days = some cutoff ∧
      s.prune Folder.entries cutoff = (.ok n, t) ∧ Scheduler.cleanupSummary n cutoff = summary := by
  unfold works
  dsimp only
  cases now.minusDays? days with
  | none => simp
  | some cutoff =>
    simp only [Option.some.injEq, exists_and_left, exists_eq_left']
    generalize s.prune Folder.entries cutoff = pruned
    obtain ⟨answer, left⟩ := pruned
    cases answer <;> simp [and_comm]

namespace Scheduler

variable {s : Scheduler} {new : NewExecution} {listened : Bool} {q u r : ExecutionRecord}

theorem attempt_calm {α : Type} (calm : s.faults = .none) (p : FaultPoint)
    (call : Scheduler → Except SchedulerError α × Scheduler) : s.attempt p call = call s := by
  have passed : Faults.none.passed p = .none := by
    funext q n
    simp [Faults.passed, Faults.none]
  have same : { s with faults := s.faults.passed p } = s := by rw [calm, passed, ← calm]
  rw [attempt, same, calm]
  rfl

theorem perform_calm (calm : s.faults = .none) (work : JobWork) :
    s.perform work = ((s.store.works s.clock.now work).1,
      { s with store := (s.store.works s.clock.now work).2 }) := by
  cases work with
  | ends e => rfl
  | prunes days =>
    unfold perform Store.works
    dsimp only
    generalize s.clock.now.minusDays? days = cutoff?
    cases cutoff? with
    | none => rfl
    | some cutoff =>
      simp only [prune, attempt_calm calm, onStore]
      generalize s.store.prune Folder.entries cutoff = pruned
      obtain ⟨answer, store⟩ := pruned
      cases answer <;> rfl

theorem run_calm {body : JobBody} {e : JobEnd} {σ₁ σ₂ σ₃ : Store} (calm : s.faults = .none)
    (free : s.guards.isHeld new.key = false)
    (calls : ∀ n context, context.key = new.key → s.bodies new.key.kind n context = body)
    (created : s.store.create new s.clock.now = (.ok q, σ₁)) (begun : q.start s.clock.now = .ok u)
    (started : σ₁.update u = (.ok (), σ₂)) (worked : σ₂.works s.clock.now body.work = (e, σ₃))
    (concluded : u.conclude e s.clock.now = .ok r) :
    (s.run new listened).1.1 = ((σ₃.update r).1.map fun _ => r).mapError (fun cause => .store cause.message) ∧
      (s.run new listened).2.store = (σ₃.update r).2 := by
  have invoked (run : Run) (own : run.new = new) (n : Nat) :
      s.bodies (run.context u).key.kind n (run.context u) = body := by
    subst own
    exact calls n _ rfl
  simp only [run, complete, Phase.rank, advance, step, GuardTable.tryAcquire, free, Run.key, Run.at,
    Bool.false_eq_true, if_false, create, attempt_calm, calm, onStore, created, begun, orLeave, update, started,
    invoke, invoked, perform_calm, worked, concluded]
  generalize σ₃.update r = final
  obtain ⟨answer, store⟩ := final
  cases answer <;> exact ⟨rfl, rfl⟩

/-- The run succeeds and tells how many records had ended before the cutoff. Of the store just these are
gone, and the record of the run has come to it. -/
def CleansUp (s : Scheduler) (new : NewExecution) (listened : Bool) (cutoff : Instant) : Prop :=
  ∃ r, (s.run new listened).1.1 = .ok r ∧ r.status = .success ∧
    r.result = some (cleanupSummary (s.store.ended cutoff) cutoff) ∧
    Store.Gains r (s.store.without cutoff) (s.run new listened).2.store

theorem cleanupBody_scheduleCleanup (days : Nat) {context : JobContext}
    (job : context.key = SystemJob.scheduleCleanup.key) : cleanupBody days context = { work := .prunes days } := by
  rw [cleanupBody, job]
  rfl

theorem cleanup_begins (listened : Bool) (settings : Settings) (starter : Starter)
    (bodies : s.bodies = settings.bodies starter) (calm : s.faults = .none)
    (ready : s.store.Ready) (job : new.key = SystemJob.scheduleCleanup.key)
    (free : s.guards.isHeld new.key = false) (representable : ∀ e ∈ new.environment, e < Text.idBound)
    (valid : s.clock.now.isValid = true) (ordinary : s.clock.now.nanos < 1000000000) :
    ∃ u σ₂ e σ₃ r, u.AtWork ∧ Store.Gains u s.store σ₂ ∧
      σ₂.works s.clock.now (.prunes settings.scheduler.retentionDays) = (e, σ₃) ∧ r.id = u.id ∧ r.Reports e ∧
      (s.run new listened).1.1 = ((σ₃.update r).1.map fun _ => r).mapError (fun cause => .store cause.message) ∧
      (s.run new listened).2.store = (σ₃.update r).2 := by
  let now := s.clock.now
  let days := settings.scheduler.retentionDays
  let q := ExecutionRecord.queued (s.store.lastId + 1) new now
  let u : ExecutionRecord := { q with status := .running, startedAt := some now }
  have survives : now.Survives := Instant.read?_text valid ordinary
  have named : ∀ n, new.key.id = .numeric n → n < Text.idBound := by
    rw [job]
    rintro n ⟨⟩
  have queued : q.AtWork := by
    refine ⟨⟨named, representable, survives, ?_, ?_, ?_⟩, ready.1, rfl⟩ <;> simp [q, ExecutionRecord.queued]
  have running : u.AtWork := by
    refine ⟨⟨named, representable, survives, ?_, ?_, ?_⟩, ready.1, rfl⟩ <;>
      simp [u, q, ExecutionRecord.queued, survives]
  obtain ⟨σ₁, created, gains₁⟩ := ready.create new now
  obtain ⟨σ₂, started, gains₂⟩ := gains₁.update (u := u) queued rfl
  have calls (n : Nat) (context : JobContext) (same : context.key = new.key) :
      s.bodies new.key.kind n context = { work := .prunes days } := by
    rw [bodies, job]
    exact cleanupBody_scheduleCleanup days (same.trans job)
  obtain ⟨r, concluded, own, -, -, reports⟩ :=
    ExecutionRecord.conclude_running (r := u) now (σ₂.works now (.prunes days)).1 rfl
  exact ⟨u, σ₂, _, _, r, running, gains₂, rfl, own, reports,
    run_calm calm free calls created (ExecutionRecord.start_queued rfl) started rfl concluded⟩

/-- A cleanup does what it is for as long as its cutoff lies in the years of an instant, whose first begins
8334601228800 seconds before 1970, and the files of what has ended bear the names of their records. -/
theorem cleansUp_iff (settings : Settings) (starter : Starter) (bodies : s.bodies = settings.bodies starter)
    (calm : s.faults = .none) (ready : s.store.Ready) (job : new.key = SystemJob.scheduleCleanup.key)
    (free : s.guards.isHeld new.key = false) (representable : ∀ e ∈ new.environment, e < Text.idBound)
    (valid : s.clock.now.isValid = true) (ordinary : s.clock.now.nanos < 1000000000) :
    s.CleansUp new listened (s.clock.now.daysBefore settings.scheduler.retentionDays) ↔
      settings.scheduler.retentionDays * 86400 ≤ s.clock.now.seconds + 8334601228800 ∧
        s.store.Aligned (s.clock.now.daysBefore settings.scheduler.retentionDays) := by
  obtain ⟨u, σ₂, e, σ₃, r, work, gains₂, worked, own, reports, answer, left⟩ :=
    cleanup_begins listened settings starter bodies calm ready job free representable valid ordinary
  rw [CleansUp, answer, left]
  constructor
  · rintro ⟨r', told, success, -, gains⟩
    cases updated : σ₃.update r with
    | mk answer t =>
      rw [updated] at told gains
      cases answer with
      | error cause => cases told
      | ok =>
        obtain rfl := Except.ok.inj told
        cases e with
        | completed summary =>
          obtain ⟨cutoff, n, reached, pruned, -⟩ := Store.works_completed.mp worked
          obtain ⟨within, rfl⟩ := (Instant.minusDays?_eq_some valid).mp reached
          exact ⟨by omega, gains₂.aligned work own pruned updated gains⟩
        | nothingToDo | failed | crashed => cases reports.1.symm.trans success
  · rintro ⟨within, aligned⟩
    obtain ⟨t, pruned, gains₃⟩ := gains₂.prune work aligned
    have reached : s.clock.now.minusDays? settings.scheduler.retentionDays =
        some (s.clock.now.daysBefore settings.scheduler.retentionDays) :=
      (Instant.minusDays?_eq_some valid).mpr ⟨by omega, rfl⟩
    obtain ⟨rfl, rfl⟩ := Prod.mk.inj (worked.symm.trans (Store.works_completed.mpr ⟨_, _, reached, pruned, rfl⟩))
    obtain ⟨t', updated, gains₄⟩ := gains₃.update work own
    rw [updated]
    exact ⟨r, rfl, reports.1, reports.2, gains₄⟩

def monthly : Scheduler where
  clock := { now := ⟨1702592061, 0⟩ }
  store := .files { path := "/data/executions", place := .folder Store.mixed, lastId := 7 }
  descriptors := .empty
  bodies := nightly.bodies unequipped

def nightlyCleanup : NewExecution :=
  { key := SystemJob.scheduleCleanup.key, environment := none, trigger := .cron }

theorem monthly_ready : monthly.store.Ready := by
  have below : ∀ name ∈ Store.mixed.names, ∀ n ∈ numberOfName name, n ≤ 7 := by decide
  have covers : FileStore.Covers { path := "/data/executions", place := .folder Store.mixed, lastId := 7 }
      Store.mixed := ⟨rfl, fun name mem n numbered => below name mem n (numberOfName_eq_some.mpr numbered)⟩
  have absent : sideName 8 ∉ Store.mixed.names := by decide
  have free : Store.mixed.find? (sideName 8) = none := by simpa [Folder.mem_names] using absent
  exact ⟨by decide, Store.mixed, covers, Store.mixed_wellNamed.1, by simp [free]⟩

theorem monthly_cleansUp :
    nightly.fullReport.isValid = true ∧ monthly.bodies = nightly.bodies unequipped ∧
      monthly.store.ended ⟨1700000061, 0⟩ = 1 ∧ monthly.CleansUp nightlyCleanup false ⟨1700000061, 0⟩ := by
  have one : monthly.store.ended ⟨1700000061, 0⟩ = 1 := (Store.mixed_ended ⟨1700000061, 0⟩).trans (by decide)
  have aligned : monthly.store.Aligned ⟨1700000061, 0⟩ := Store.mixed_wellNamed.2.aligned _
  refine ⟨nightly_valid, rfl, one, ?_⟩
  exact (cleansUp_iff nightly unequipped rfl rfl monthly_ready rfl rfl (by simp [nightlyCleanup]) (by decide)
    (by decide)).mpr ⟨by decide, aligned⟩

def keeping : Settings :=
  { nightly with scheduler := { nightly.scheduler with retentionDays := 4294967295 } }

theorem keeping_panics :
    keeping.fullReport.isValid = true ∧
      let s : Scheduler := { monthly with store := .memory .empty, bodies := keeping.bodies unequipped }
      ∃ r, (s.run nightlyCleanup false).1.1 = .ok r ∧ r.status = .failed ∧
        r.error = some "job panicked: `DateTime - TimeDelta` overflowed" := by
  have logging : Validation.checkLogging keeping.logging = {} := Validation.checkLogging_default
  refine ⟨?_, ?_⟩
  · rw [Settings.fullReport, Settings.validate, logging]
    decide +kernel
  · exact ⟨_, rfl, rfl, rfl⟩

end Scheduler

end FleetOps
