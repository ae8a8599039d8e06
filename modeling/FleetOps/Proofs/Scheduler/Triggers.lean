import FleetOps.Proofs.Scheduler.Effect
import FleetOps.Proofs.Scheduler.Recovery
import FleetOps.Proofs.Scheduler.Refusals

set_option autoImplicit false

namespace FleetOps

namespace Scheduler

def outcome? (s : Scheduler) (run : Run) : Option JobEnd :=
  match run.phase with
  | .working _ body => some (s.perform body.work).1
  | _ => none

def outcomes (s : Scheduler) : Nat → Run → List JobEnd
  | 0, _ => []
  | n + 1, run => (s.outcome? run).toList ++ outcomes (s.step run).2 n (s.step run).1

theorem invocations_event? (s : Scheduler) (run : Run) :
    invocations (s.event? run).toList =
      match run.phase with
      | .ready r => [run.context r]
      | _ => [] := by
  cases here : run.phase with
  | unstarted r cause =>
    simp only [event?, here]
    cases r.fail ("could not record start: " ++ cause.message) s.clock.now <;> rfl
  | _ => simp [event?, here, invocations, RunEvent.invocation?]

theorem quiet_of_writes (s : Scheduler) {run : Run} {r : ExecutionRecord} {next : Phase}
    (due : run.phase.Writes r next) : invocations (s.event? run).toList = [] ∧ s.outcome? run = none := by
  rw [invocations_event?, outcome?]
  generalize run.phase = phase at due
  cases due <;> exact ⟨rfl, rfl⟩

end Scheduler

/-- Why a run leaves its record: it was turned away, or its body was called and came to an end. A run that
is turned away leaves the record that a body leaves which finds nothing to do for that reason. -/
inductive Tells (held : Bool) : List JobContext → List JobEnd → ExecutionRecord → Prop where
  | busy {r : ExecutionRecord} (turned : held = true) (reports : r.Reports (.nothingToDo alreadyRunning)) :
      Tells held [] [] r
  | ran {r : ExecutionRecord} {e : JobEnd} (free : held = false) (context : JobContext)
      (reports : r.Reports e) : Tells held [context] [e] r

inductive Unfolds (held : Bool) : List JobContext → List JobEnd → Phase → Prop where
  | turnedAway (turned : held = true) : Unfolds held [] [] .turnedAway
  | skipping {r : ExecutionRecord} (tells : Tells held [] [] r) : Unfolds held [] [] (.skipping r)
  | unskipped (r : ExecutionRecord) (cause : SchedulerError) : Unfolds held [] [] (.unskipped r cause)
  | admitted (free : held = false) : Unfolds held [] [] .admitted
  | starting {r : ExecutionRecord} (free : held = false) (active : r.status = .running) :
      Unfolds held [] [] (.starting r)
  | unstarted (r : ExecutionRecord) (cause : SchedulerError) : Unfolds held [] [] (.unstarted r cause)
  | ready {r : ExecutionRecord} (free : held = false) (active : r.status = .running) :
      Unfolds held [] [] (.ready r)
  | working {r : ExecutionRecord} (free : held = false) (active : r.status = .running)
      (context : JobContext) (body : JobBody) : Unfolds held [context] [] (.working r body)
  | ending {calls : List JobContext} {ends : List JobEnd} {r : ExecutionRecord}
      (tells : Tells held calls ends r) : Unfolds held calls ends (.ending r)
  | leaving {calls : List JobContext} {ends : List JobEnd} {answer : RunAnswer}
      (tells : ∀ r, answer = .ok r → Tells held calls ends r) : Unfolds held calls ends (.leaving answer)
  | returned {calls : List JobContext} {ends : List JobEnd} {answer : RunAnswer}
      (tells : ∀ r, answer = .ok r → Tells held calls ends r) : Unfolds held calls ends (.returned answer)

namespace Unfolds

open Scheduler

variable {s s' : Scheduler} {run run' : Run} {held : Bool} {calls : List JobContext} {ends : List JobEnd}

theorem failing (e : SchedulerError) : Unfolds held calls ends (.leaving (.error e)) :=
  .leaving fun _ ok => nomatch ok

theorem failed (e : SchedulerError) : Unfolds held calls ends (.returned (.error e)) :=
  .returned fun _ ok => nomatch ok

theorem answered {r : ExecutionRecord} (unfolds : Unfolds held calls ends (.returned (.ok r))) :
    Tells held calls ends r := by
  cases unfolds with
  | returned tells => exact tells r rfl

theorem write {p next : Phase} {r : ExecutionRecord} (unfolds : Unfolds held calls ends p)
    (due : p.Writes r next) : Unfolds held calls ends next := by
  cases due with
  | skipped =>
    cases unfolds with
    | skipping tells => exact .returned fun _ ok => Except.ok.inj ok ▸ tells
  | started =>
    cases unfolds with
    | starting free active => exact .ready free active
  | ended =>
    cases unfolds with
    | ending tells => exact .leaving fun _ ok => Except.ok.inj ok ▸ tells

theorem refused {p next : Phase} {r : ExecutionRecord} {e : SchedulerError} (unfolds : Unfolds held calls ends p)
    (due : p.Refused r e next) : Unfolds held calls ends next := by
  cases due with
  | unskipped =>
    cases unfolds with
    | skipping => exact .unskipped _ _
  | unstarted =>
    cases unfolds with
    | starting => exact .unstarted _ _
  | unended => exact failing _

theorem excuse {q : ExecutionRecord} (turned : held = true) (queued : q.status = .queued) (now : Instant) :
    Unfolds held [] [] (orReturn (q.skip alreadyRunning now)) := by
  rw [ExecutionRecord.skip_queued _ queued]
  exact .skipping (.busy turned ⟨rfl, rfl⟩)

theorem begin {q : ExecutionRecord} (free : held = false) (queued : q.status = .queued) (now : Instant) :
    Unfolds held [] [] (orLeave (q.start now) .starting) := by
  rw [ExecutionRecord.start_queued queued]
  exact .starting free rfl

theorem work {r : ExecutionRecord} (free : held = false) (active : r.status = .running)
    (context : JobContext) (e : JobEnd) (now : Instant) :
    Unfolds held [context] [e] (orLeave (r.conclude e now) .ending) := by
  obtain ⟨r', concluded, -, -, -, reports⟩ := ExecutionRecord.conclude_running now e active
  rw [concluded]
  exact .ending (.ran free context reports)

theorem arrive (steps : s.Steps run run' s') (start : run.phase = .arrived) :
    Unfolds (s.guards.isHeld run.key) [] [] run'.phase := by
  cases steps with
  | enter here free => exact .admitted free
  | turnAway here held => exact .turnedAway held
  | write due =>
    rw [start] at due
    cases due
  | refused due =>
    rw [start] at due
    cases due
  | _ => simp_all

theorem steps (unfolds : Unfolds held calls ends run.phase) (steps : s.Steps run run' s') :
    Unfolds held (calls ++ invocations (s.event? run).toList) (ends ++ (s.outcome? run).toList)
      run'.phase := by
  cases steps with
  | write due call => simpa [s.quiet_of_writes due, Run.at] using unfolds.write due
  | refused due call =>
    obtain ⟨_, writes⟩ := due.due
    simpa [s.quiet_of_writes writes, Run.at] using unfolds.refused due
  | enter here | turnAway here =>
    rw [here] at unfolds
    cases unfolds
  | excuse here call =>
    rw [here] at unfolds
    cases unfolds with
    | turnedAway turned =>
      simpa [invocations_event?, outcome?, here, Run.at] using excuse turned (create_queued call) _
  | begin here call =>
    rw [here] at unfolds
    cases unfolds with
    | admitted free =>
      simpa [invocations_event?, outcome?, here, Run.at] using begin free (create_queued call) _
  | invoke here =>
    rw [here] at unfolds
    cases unfolds with
    | ready free active => simpa [invocations_event?, outcome?, here] using .working free active _ _
  | work here =>
    rw [here] at unfolds
    cases unfolds with
    | working free active context =>
      simpa [invocations_event?, outcome?, here, Run.at] using work free active context _ _
  | unexcused here | excuseAgain here => exact failed _
  | unbegun here | giveUp here | abandon here => exact failing _
  | release here =>
    rw [here] at unfolds
    cases unfolds with
    | leaving tells => simpa [invocations_event?, outcome?, here] using .returned tells
  | rest here => simpa [invocations_event?, outcome?, here] using unfolds

theorem advance (unfolds : Unfolds held calls ends run.phase) (n : Nat) (s : Scheduler) :
    Unfolds held (calls ++ invocations (s.trace n run)) (ends ++ s.outcomes n run)
      (Scheduler.advance n s run).1.phase := by
  induction n generalizing calls ends s run with
  | zero => simpa [trace, outcomes, invocations, Scheduler.advance] using unfolds
  | succ n ih =>
    have rest := ih (unfolds.steps (s.steps_step run)) (s.step run).2
    rw [List.append_assoc, List.append_assoc] at rest
    rw [trace, invocations, List.filterMap_append]
    exact rest

end Unfolds

namespace Scheduler

variable {s s₁ : Scheduler} {run : Run} {call : ServiceCall}

theorem complete_tells {r : ExecutionRecord} (start : run.phase = .arrived)
    (returned : (s.complete run).1.phase = .returned (.ok r)) :
    Tells (s.guards.isHeld run.key) (invocations (s.trace run.phase.rank run))
      (s.outcomes run.phase.rank run) r := by
  obtain ⟨n, rank⟩ : ∃ n, run.phase.rank = n + 1 := ⟨6, by rw [start]; rfl⟩
  have unfolds := (Unfolds.arrive (s.steps_step run) start).advance n (s.step run).2
  rw [complete, rank, advance] at returned
  rw [returned] at unfolds
  rw [rank, trace, outcomes]
  simpa [event?, outcome?, start] using unfolds.answered

def tell : RunAnswer → TriggerResult
  | .ok r => .ofRecord r
  | .error e => .rejected e

theorem runFor_returned {new : NewExecution} {listened : Bool} {answer : RunAnswer}
    (returned : (s.complete { new, listened }).1.phase = .returned answer) :
    (s.runFor new listened).1.result = tell answer ∧
      (s.runFor new listened).2 = (s.complete { new, listened }).2 := by
  have answers : (s.complete { new, listened }).1.answer = answer := by simp [Run.answer, returned]
  unfold runFor
  rw [run_eq, answers]
  cases answer <;> exact ⟨rfl, rfl⟩

def describedRun? (s : Scheduler) (k : ScheduleKey) (trigger : TriggerSource) (listened : Bool) :
    Option (Run × Scheduler) :=
  match s.describe k with
  | (.ok (some d), s) =>
    some ({ new := { key := k, environment := (s.registry.environment? k).getD d.environment, trigger },
            listened }, s)
  | _ => none

def runOf? (s : Scheduler) : ServiceCall → Option (Run × Scheduler)
  | .containerUpdate n => s.describedRun? ⟨.containerUpdate, .numeric n⟩ .manual false
  | .stackSync n listened => s.describedRun? ⟨.gitStackSync, .numeric n⟩ .manual listened
  | .stackWebhook n => s.describedRun? ⟨.gitStackSync, .numeric n⟩ .webhook false
  | .systemJob name =>
    match SystemJob.parse name with
    | .ok job => some ({ new := { key := job.key, environment := none, trigger := .manual } }, s)
    | .error _ => none
  | .updateCheck environment =>
    some ({ new := { key := ⟨.envUpdateCheck, .numeric environment⟩, environment := some environment,
                     trigger := .manual } }, s)
  | .toggle _ _ | .register _ _ => none

structure Makes (s : Scheduler) (call : ServiceCall) (run : Run) (s₁ : Scheduler) : Prop where
  fresh : run = { new := run.new, listened := run.listened }
  spared : s.Spared s₁
  guards : s₁.guards = s.guards
  serves : s.serve call = (s₁.runFor run.new run.listened).map .triggered id

theorem makes_of_described {k : ScheduleKey} {trigger : TriggerSource} {listened : Bool}
    (serves : s.serve call = (s.triggerDescribed k trigger listened).map .triggered id)
    (found : s.describedRun? k trigger listened = some (run, s₁)) : s.Makes call run s₁ := by
  have spared := (s.describe_spared k).1
  have guards := (s.describe_frame k).1.guards
  unfold describedRun? at found
  split at found
  · next d s' described =>
    obtain ⟨rfl, rfl⟩ := Prod.mk.inj (Option.some.inj found)
    rw [described] at spared guards
    refine ⟨rfl, spared, guards, serves.trans ?_⟩
    simp only [triggerDescribed, described]
  · contradiction

theorem makes_of_run (found : s.runOf? call = some (run, s₁)) : s.Makes call run s₁ := by
  cases call with
  | containerUpdate n | stackSync n listened | stackWebhook n => exact makes_of_described rfl found
  | systemJob name =>
    simp only [runOf?] at found
    split at found
    · next job parsed =>
      obtain ⟨rfl, rfl⟩ := Prod.mk.inj (Option.some.inj found)
      exact ⟨rfl, ⟨rfl, rfl, rfl⟩, rfl, by simp only [serve, triggerSystemJob, parsed]⟩
    · contradiction
  | updateCheck environment =>
    obtain ⟨rfl, rfl⟩ := Prod.mk.inj (Option.some.inj found)
    exact ⟨rfl, ⟨rfl, rfl, rfl⟩, rfl, rfl⟩
  | toggle k enabled => contradiction
  | register k override => contradiction

theorem spared_of_no_run (idle : s.runOf? call = none) {t : Triggered}
    (answered : (s.serve call).1 = .triggered t) : s.Spared (s.serve call).2 := by
  have described {k : ScheduleKey} {trigger : TriggerSource} {listened : Bool}
      (idle : s.describedRun? k trigger listened = none) :
      s.Spared (s.triggerDescribed k trigger listened).2 := by
    have spared := (s.describe_spared k).1
    unfold describedRun? at idle
    unfold triggerDescribed
    split
    · next call => simpa [call] using spared
    · next call => simpa [call] using spared
    · next call => simp [call] at idle
  cases call with
  | containerUpdate n | stackSync n listened | stackWebhook n => exact described idle
  | systemJob name =>
    simp only [runOf?] at idle
    split at idle
    · contradiction
    · next e refused =>
      simp only [serve, triggerSystemJob, refused]
      exact ⟨rfl, rfl, rfl⟩
  | updateCheck environment => contradiction
  | toggle k enabled => contradiction
  | register k override => contradiction

theorem serve_of_run (found : s.runOf? call = some (run, s₁)) :
    ∃ answer t, (s.serve call).1 = .triggered t ∧ t.result = tell answer ∧
      (s₁.complete run).1.phase = .returned answer ∧ (s.serve call).2 = (s₁.complete run).2 ∧
      run.phase = .arrived := by
  have makes := makes_of_run found
  obtain ⟨answer, returned⟩ := s₁.complete_returned run
  have fresh := makes.fresh
  rw [fresh] at returned
  obtain ⟨told, left⟩ := runFor_returned returned
  rw [makes.serves]
  refine ⟨answer, _, rfl, told, ?_, ?_, ?_⟩
  · rwa [fresh]
  · rw [fresh]
    exact left
  · rw [fresh]

structure Spares (o : Origin) (run : Run) (s : Scheduler) : Prop where
  sound : ∃ m calls, s.store = .memory m ∧ m.Ordered ∧ s.invoked = o.invoked ++ calls ∧ run.Sound o m calls
  bodies : s.bodies = o.bodies
  spared : s.faults.SparesStore
  prunes : o.prunes

theorem Spares.steps {o : Origin} {s s' : Scheduler} {run run' : Run} (spares : Spares o run s)
    (steps : s.Steps run run' s') : Spares o run' s' := by
  obtain ⟨m, calls, store, ordered, invoked, sound⟩ := spares.sound
  obtain ⟨bodies, spared⟩ := steps.kept
  obtain ⟨m', calls', store', invoked', effect⟩ :=
    steps.effect store ordered spares.spared spares.bodies invoked (fun _ => spares.prunes) sound
  exact ⟨⟨m', calls', store', effect.ordered, invoked', effect.sound⟩, bodies.trans spares.bodies,
    spared spares.spared, spares.prunes⟩

theorem stored_of_spared {s : Scheduler} {run : Run} {m : MemoryStore} (store : s.store = .memory m)
    (ordered : m.Ordered) (spared : s.faults.SparesStore) (start : run.phase = .arrived) :
    ¬ StoreFailed (s.trace run.phase.rank run) := by
  let o : Origin := ⟨m, s.bodies, s.invoked, True⟩
  have begins : Spares o run s :=
    ⟨⟨m, [], store, ordered, (List.append_nil _).symm, by simp [Run.Sound, start]⟩, rfl, spared, trivial⟩
  have ends : Spares o (s.complete run).1 (s.complete run).2 := advance_induction begins Spares.steps _
  obtain ⟨m', calls, -, -, -, sound⟩ := ends.sound
  obtain ⟨answer, returned, -, -, settled, -⟩ := s.complete_settled start
  rw [← settled.fails]
  rintro ⟨e, rfl⟩
  -- A sound run does not return an error.
  simp [Run.Sound, returned] at sound

end Scheduler

structure TriggerResult.Truthful (t : TriggerResult) (r : ExecutionRecord) (held : Bool)
    (calls : List JobContext) (ends : List JobEnd) : Prop where
  success : t.success = true ↔ calls ≠ [] ∧ ∃ e ∈ ends, e.isDone = true
  busy : t.status = some .skipped ∧ t.error = some alreadyRunning ↔ held = true ∧ calls = []
  failure : ∀ e ∈ ends, ∀ message, e.failure? = some message →
    t.success = false ∧ t.error = some message ∧ r.error = some message

theorem Tells.truthful_iff {held : Bool} {calls : List JobContext} {ends : List JobEnd} {r : ExecutionRecord}
    (tells : Tells held calls ends r) :
    (TriggerResult.ofRecord r).Truthful r held calls ends ↔ .nothingToDo alreadyRunning ∉ ends := by
  cases tells with
  | busy turned reports =>
    refine iff_of_true ⟨?_, ?_, ?_⟩ ?_
    · simp [TriggerResult.ofRecord_success reports]
    · simp [TriggerResult.ofRecord_busy reports, turned]
    · simp
    · simp
  | @ran _ e free context reports =>
    rw [List.mem_singleton]
    constructor
    · -- The result reads as that of a busy schedule, though the body was called.
      rintro truthful rfl
      have busy := truthful.busy.mp ((TriggerResult.ofRecord_busy reports).mpr rfl)
      simp at busy
    · intro other
      refine ⟨?_, ?_, ?_⟩
      · simp [TriggerResult.ofRecord_success reports, Ne.symm other]
      · simp [TriggerResult.ofRecord_busy reports, Ne.symm other]
      · intro e' mem message failed
        obtain rfl := List.mem_singleton.mp mem
        exact TriggerResult.ofRecord_failure reports failed

namespace Scheduler

variable {s s₁ : Scheduler} {run : Run} {call : ServiceCall}

/-- Where the store fails neither the record of a run nor its first or last update, a trigger shows the
record that was stored, and it tells the truth about the run, unless the body found nothing to do and
gave the reason of a busy schedule for it. -/
theorem trigger_tells (found : s.runOf? call = some (run, s₁))
    (stored : ¬ StoreFailed (s₁.trace run.phase.rank run)) :
    let h := s₁.trace run.phase.rank run
    let ends := s₁.outcomes run.phase.rank run
    ∃ t r, (s.serve call).1 = .triggered t ∧ (s.serve call).2.invoked = s.invoked ++ invocations h ∧
      t.result.executionId = some r.id ∧ t.result.status = some r.status ∧ LastAccepted h r ∧
      (∀ m, (s.serve call).2.store = .memory m → m.find? r.id = some r) ∧
      (t.result.Truthful r (s.guards.isHeld run.key) (invocations h) ends ↔
        .nothingToDo alreadyRunning ∉ ends) := by
  intro h ends
  have makes := makes_of_run found
  obtain ⟨answer, t, answered, told, returned, left, start⟩ := serve_of_run found
  obtain ⟨answer', returned', -, invoked, settled, shown⟩ := s₁.complete_settled start
  obtain rfl : answer' = answer := by
    rw [returned] at returned'
    cases returned'
    rfl
  cases answer' with
  | error e => exact absurd (settled.fails.mp ⟨e, rfl⟩) stored
  | ok r =>
    have tells := complete_tells start returned
    rw [makes.guards] at tells
    refine ⟨t, r, answered, ?_, ?_, ?_, (settled.accepted r rfl).2, ?_, ?_⟩
    · rw [left, invoked, makes.spared.invoked]
    · rw [told]
      rfl
    · rw [told]
      rfl
    · rw [left]
      exact fun m => shown r m rfl
    · rw [told]
      exact tells.truthful_iff

def upToDate : Scheduler where
  clock := { now := ⟨0, 0⟩ }
  store := .memory .empty
  descriptors := .ofList [{ kind := .gitStackSync, id := .numeric 2, cron := "0 4 * * *" }]
  bodies := fun _ _ _ => { work := .ends (.nothingToDo "up to date") }

theorem upToDate_tells :
    ∃ run s₁ t, upToDate.runOf? (.stackWebhook 2) = some (run, s₁) ∧
      ¬ StoreFailed (s₁.trace run.phase.rank run) ∧
      (upToDate.serve (.stackWebhook 2)).1 = .triggered t ∧ t.result.success = true := by
  obtain ⟨run, s₁, found, stored, called, ends⟩ : ∃ run s₁,
      upToDate.runOf? (.stackWebhook 2) = some (run, s₁) ∧
        ¬ StoreFailed (s₁.trace run.phase.rank run) ∧
        invocations (s₁.trace run.phase.rank run) ≠ [] ∧
        s₁.outcomes run.phase.rank run = [.nothingToDo "up to date"] := by
    refine ⟨_, _, rfl, ?_, List.cons_ne_nil _ _, rfl⟩
    exact stored_of_spared rfl MemoryStore.Made.empty.ordered (fun _ => ⟨rfl, rfl⟩) rfl
  obtain ⟨t, r, answered, -, -, -, -, -, truthful⟩ := trigger_tells found stored
  refine ⟨run, s₁, t, found, stored, answered, ?_⟩
  rw [ends] at truthful
  have told := truthful.mpr (by simp [alreadyRunning])
  exact told.success.mpr ⟨called, _, List.mem_singleton_self _, rfl⟩

def echoing : Scheduler :=
  { upToDate with bodies := fun _ _ _ => { work := .ends (.nothingToDo alreadyRunning) } }

theorem echoing_misleads :
    ∃ run t, echoing.runOf? (.updateCheck 4) = some (run, echoing) ∧
      ¬ StoreFailed (echoing.trace run.phase.rank run) ∧ echoing.guards.isHeld run.key = false ∧
      echoing.outcomes run.phase.rank run = [.nothingToDo alreadyRunning] ∧
      (echoing.serve (.updateCheck 4)).1 = .triggered t ∧
      (echoing.serve (.updateCheck 4)).2.invoked.length = 1 ∧
      t.result = { success := false, executionId := some 1, status := some .skipped,
                   error := some alreadyRunning } := by
  refine ⟨_, _, rfl, ?_, rfl, rfl, rfl, rfl, rfl⟩
  exact stored_of_spared rfl MemoryStore.Made.empty.ordered (fun _ => ⟨rfl, rfl⟩) rfl

end Scheduler

def OutcomeLost (h : List RunEvent) : Prop :=
  ∃ e, writes h = [.ok (), .error e]

theorem Ends.silent_iff {context : ExecutionRecord → JobContext} {h : List RunEvent} {answer : RunAnswer}
    (ends : Ends context h answer) :
    ((Scheduler.tell answer).executionId = none → invocations h = []) ↔ ¬ OutcomeLost h := by
  unfold OutcomeLost
  cases ends with
  | uncreated e =>
    refine iff_of_true (fun _ => rfl) ?_
    rw [show writes _ = [] from rfl]
    simp
  | @skipped q r own terminal =>
    refine iff_of_true (fun _ => rfl) ?_
    rw [show writes _ = [.ok ()] from rfl]
    simp
  | unrecorded q r r' cause answer =>
    refine iff_of_true (fun _ => rfl) ?_
    rw [show writes _ = [.error cause, answer] from rfl]
    simp
  | ended => 
    refine iff_of_true (fun shown => nomatch shown) ?_
    rw [show writes _ = [.ok (), .ok ()] from rfl]
    simp
  | unended own active r' e =>
    refine iff_of_false (fun silent => ?_) (not_not_intro ⟨e, rfl⟩)
    exact absurd (silent rfl) (List.cons_ne_nil _ _)

namespace Scheduler

variable {s s₁ : Scheduler} {run : Run} {call : ServiceCall}

/-- Whatever the store and the descriptors answer, a trigger without an execution has called no body, unless
it made a run whose outcome was lost. -/
theorem rejected_silent {t : Triggered} (answered : (s.serve call).1 = .triggered t) :
    (t.result.executionId = none → (s.serve call).2.invoked = s.invoked) ↔
      ∀ run s₁, s.runOf? call = some (run, s₁) → ¬ OutcomeLost (s₁.trace run.phase.rank run) := by
  cases found : s.runOf? call with
  | none => simp [(spared_of_no_run found answered).invoked]
  | some made =>
    obtain ⟨run, s₁⟩ := made
    obtain ⟨answer, t', answered', told, returned, left, start⟩ := serve_of_run found
    obtain rfl : t = t' := ServiceAnswer.triggered.inj (answered.symm.trans answered')
    have invoked := s₁.advance_invoked run.phase.rank run
    have silent := (s₁.complete_ends start returned).silent_iff
    rw [left, told, complete, invoked, (makes_of_run found).spared.invoked]
    simpa [invocations] using silent

def stalled : Scheduler :=
  { forgetful with faults := Faults.none.plan .update 0 1 }

theorem stalled_silent :
    ∃ t, (stalled.serve (.updateCheck 4)).1 = .triggered t ∧ t.result.executionId = none ∧
      (stalled.serve (.updateCheck 4)).2.invoked = stalled.invoked := by
  refine ⟨_, rfl, rfl, (rejected_silent rfl).mpr ?_ rfl⟩
  rintro run s₁ found ⟨e, lost⟩
  obtain ⟨rfl, rfl⟩ := Prod.mk.inj (Option.some.inj found)
  cases lost

theorem forgetful_rejects :
    ∃ t, (forgetful.serve (.updateCheck 4)).1 = .triggered t ∧ t.result.executionId = none ∧
      (forgetful.serve (.updateCheck 4)).2.invoked ≠ forgetful.invoked :=
  ⟨_, rfl, rfl, List.cons_ne_nil _ _⟩

end Scheduler

end FleetOps
