import FleetOps.Proofs.Execution.Lifecycle
import FleetOps.Proofs.Scheduler.SystemJobs
import FleetOps.Proofs.Scheduler.Triggers

set_option autoImplicit false

namespace FleetOps

namespace ExecutionRecord

def Lasting (P : ExecutionRecord → Prop) : Prop :=
  ∀ (r r' : ExecutionRecord) (change : Change) (now : Instant), r.apply change now = .ok r' → P r → P r'

theorem Lasting.conclude {P : ExecutionRecord → Prop} (lasting : Lasting P) {r r' : ExecutionRecord} {e : JobEnd}
    {now : Instant} (concluded : r.conclude e now = .ok r') (holds : P r) : P r' := by
  cases e with
  | completed summary => exact lasting r r' (.succeed summary) now concluded holds
  | nothingToDo reason => exact lasting r r' (.skip reason) now concluded holds
  | failed cause => exact lasting r r' (.fail cause.message) now concluded holds
  | crashed message => exact lasting r r' (.fail ("job panicked: " ++ message)) now concluded holds

theorem lasting_purpose (new : NewExecution) : Lasting (·.purpose = new) :=
  fun _ _ change now applied own => (apply_kept (c := ⟨change, now⟩) applied).2.1.trans own

end ExecutionRecord

def RunEvent.record? : RunEvent → Option ExecutionRecord
  | .created (.ok r) | .updated r _ => some r
  | .created (.error _) | .invoked _ => none

def Run.HoldsOwn (run : Run) : Prop :=
  ∀ r ∈ run.phase.record?, r.purpose = run.new

namespace Scheduler

variable {s s' : Scheduler} {run run' : Run} {e : RunEvent} {P : ExecutionRecord → Prop}

theorem create_purpose {new : NewExecution} {q : ExecutionRecord} (call : s.create new = (.ok q, s')) :
    q.purpose = new := by
  obtain ⟨id, now, rfl⟩ := create_eq_queued call
  rfl

theorem holds_orLeave {change : RunAnswer} {next : ExecutionRecord → Phase} (own : ∀ r, (next r).record? = some r)
    (holds : ∀ r, change = .ok r → P r) : ∀ r ∈ (orLeave change next).record?, P r := by
  cases change with
  | ok r => simpa [orLeave, own] using holds r rfl
  | error e => simp [orLeave, Phase.record?]

theorem Steps.holds (lasting : ExecutionRecord.Lasting P)
    (created : ∀ q, s.event? run = some (.created (.ok q)) → P q) (holds : ∀ r ∈ run.phase.record?, P r)
    (steps : s.Steps run run' s') : ∀ r ∈ run'.phase.record?, P r := by
  cases steps with
  | enter | turnAway | unexcused | unbegun | giveUp | abandon | excuseAgain => simp [Run.at, Phase.record?]
  | @excuse q s' here call =>
    have begun : P q := created q (by simp [event?, here, call])
    cases skipped : q.skip alreadyRunning s'.clock.now with
    | error e => simp [Run.at, orReturn, Phase.record?]
    | ok r => simpa [Run.at, orReturn, Phase.record?] using lasting q r (.skip alreadyRunning) _ skipped begun
  | @begin q s' here call =>
    have begun : P q := created q (by simp [event?, here, call])
    exact holds_orLeave (fun _ => rfl) fun r started => lasting q r .start _ started begun
  | @write r next s' due call =>
    generalize run.phase = phase at holds due
    cases due <;> simpa [Run.at, Phase.record?] using holds
  | @refused r e next s' due call =>
    generalize run.phase = phase at holds due
    cases due <;> simp_all [Run.at, Phase.record?]
  | @invoke r here => simpa [Scheduler.invoke, here, Phase.record?] using holds
  | @work r body here =>
    have held : P r := holds r (by rw [here]; rfl)
    exact holds_orLeave (fun _ => rfl) fun r' concluded => lasting.conclude concluded held
  | @release answer here =>
    cases answer with
    | ok r => simpa [Run.at, here, Phase.record?] using holds
    | error e => simp [Run.at, Phase.record?]
  | rest => exact holds

theorem event_holds (lasting : ExecutionRecord.Lasting P)
    (created : ∀ q, s.event? run = some (.created (.ok q)) → P q) (holds : ∀ r ∈ run.phase.record?, P r)
    (asked : s.event? run = some e) : ∀ r ∈ e.record?, P r := by
  unfold event? at asked
  cases here : run.phase with
  | turnedAway | admitted =>
    rw [here] at asked
    obtain rfl := Option.some.inj asked
    intro r answered
    refine created r ?_
    cases call : (s.create run.new).1 with
    | ok q =>
      obtain rfl : q = r := by simpa [RunEvent.record?, call] using answered
      simp [event?, here, call]
    | error cause => simp [RunEvent.record?, call] at answered
  | skipping r | unskipped r cause | starting r | ending r =>
    rw [here] at asked
    obtain rfl := Option.some.inj asked
    rintro r' ⟨⟩
    exact holds r (by rw [here]; rfl)
  | unstarted r cause =>
    rw [here] at asked
    dsimp only at asked
    split at asked
    · next r' failed =>
      obtain rfl := Option.some.inj asked
      rintro r'' ⟨⟩
      exact lasting r r' (.fail _) _ failed (holds r (by rw [here]; rfl))
    · cases asked
  | ready r =>
    rw [here] at asked
    obtain rfl := Option.some.inj asked
    simp [RunEvent.record?]
  | arrived | working | leaving | returned =>
    rw [here] at asked
    cases asked

theorem created_own (q : ExecutionRecord) (asked : s.event? run = some (.created (.ok q))) :
    q.purpose = run.new := by
  have left := (s.steps_step run).leaves asked
  exact create_purpose left

theorem Steps.holdsOwn (own : run.HoldsOwn) (steps : s.Steps run run' s') : run'.HoldsOwn := by
  have kept := steps.holds (ExecutionRecord.lasting_purpose run.new) created_own own
  rw [← steps.new] at kept
  exact kept

theorem event_own (own : run.HoldsOwn) (asked : s.event? run = some e) :
    ∀ r ∈ e.record?, r.purpose = run.new :=
  event_holds (ExecutionRecord.lasting_purpose run.new) created_own own asked

theorem trace_own (own : run.HoldsOwn) (n : Nat) :
    ∀ e ∈ s.trace n run, ∀ r ∈ e.record?, r.purpose = run.new := by
  induction n generalizing s run with
  | zero => simp [trace]
  | succ n ih =>
    intro e mem
    rw [trace, List.mem_append, Option.mem_toList] at mem
    rcases mem with asked | later
    · exact event_own own asked
    · have steps := s.steps_step run
      exact steps.new ▸ ih (steps.holdsOwn own) e later

def recordsOf (s : Scheduler) (run : Run) : List ExecutionRecord :=
  (s.trace run.phase.rank run).filterMap RunEvent.record?

theorem recordsOf_own (start : run.phase = .arrived) :
    (∀ q, (s.create run.new).1 = .ok q → q ∈ s.recordsOf run) ∧
      ∀ r ∈ s.recordsOf run, r.purpose = run.new := by
  constructor
  · intro q created
    have taken (guards : GuardTable) : (({ s with guards } : Scheduler).create run.new).1 = .ok q := by
      rw [← created]
      unfold create attempt
      split <;> rfl
    have asks : (s.step run).2.event? (s.step run).1 = some (.created (.ok q)) := by
      simp only [step, start]
      cases s.guards.tryAcquire run.key with
      | some guards => exact congrArg (some ∘ RunEvent.created) (taken guards)
      | none => exact congrArg (some ∘ RunEvent.created) created
    have second : RunEvent.created (.ok q) ∈ s.trace (5 + 1 + 1) run :=
      List.mem_append_right _ (List.mem_append_left _ (Option.mem_toList.mpr asks))
    rw [recordsOf, start]
    exact List.mem_filterMap.mpr ⟨_, second, rfl⟩
  · intro r mem
    obtain ⟨e, there, held⟩ := List.mem_filterMap.mp mem
    exact trace_own (by simp [Run.HoldsOwn, start, Phase.record?]) _ e there r held

structure RunsUnder (s : Scheduler) (run : Run) (k : ScheduleKey) (env : Option EnvironmentId) : Prop where
  key : run.new.key = k
  environment : run.new.environment = env
  created : ∀ q, (s.create run.new).1 = .ok q → q ∈ s.recordsOf run
  records : ∀ r ∈ s.recordsOf run, r.key = k ∧ r.environment = env

theorem runsUnder_own (start : run.phase = .arrived) : s.RunsUnder run run.new.key run.new.environment := by
  obtain ⟨created, own⟩ := recordsOf_own (s := s) start
  refine ⟨rfl, rfl, created, fun r mem => ?_⟩
  rw [← own r mem]
  exact ⟨rfl, rfl⟩

end Scheduler

namespace ServiceCall

def target? : ServiceCall → Option ScheduleKey
  | .containerUpdate n => some ⟨.containerUpdate, .numeric n⟩
  | .stackSync n _ | .stackWebhook n => some ⟨.gitStackSync, .numeric n⟩
  | .systemJob name => (SystemJob.parse name).toOption.map (·.key)
  | .updateCheck environment => some ⟨.envUpdateCheck, .numeric environment⟩
  | .toggle _ _ | .register _ _ => none

def environment (call : ServiceCall) (armed : Option EnvironmentId) : Option EnvironmentId :=
  match call with
  | .systemJob _ => none
  | .updateCheck environment => some environment
  | _ => armed

end ServiceCall

namespace Scheduler

variable {s s' s'' : Scheduler} {call : ServiceCall} {k : ScheduleKey} {environment : Option EnvironmentId}

theorem describedRun?_armed (spared : s.faults.SparesDescriptors) {d : Descriptor}
    (described : s.descriptors.get? k = some d) (armed : s.registry.environment? k = some environment)
    (trigger : TriggerSource) (listened : Bool) :
    ∃ s₁, s.describedRun? k trigger listened =
      some ({ new := { key := k, environment, trigger }, listened }, s₁) := by
  have answer := (describe_answer spared k).trans (congrArg _ described)
  have same := s.describe_same k
  unfold describedRun?
  generalize s.describe k = found at answer same
  obtain ⟨_, s₁⟩ := found
  subst answer
  dsimp only at same ⊢
  rw [same.registry, armed]
  exact ⟨s₁, rfl⟩

theorem runOf?_armed (spared : s.faults.SparesDescriptors) {d : Descriptor}
    (described : s.descriptors.get? k = some d) (armed : s.registry.environment? k = some environment)
    (target : call.target? = some k) :
    ∃ run s₁, s.runOf? call = some (run, s₁) ∧ s₁.RunsUnder run k (call.environment environment) := by
  cases call with
  | containerUpdate n | stackSync n listened | stackWebhook n =>
    obtain rfl := Option.some.inj target
    obtain ⟨s₁, found⟩ := describedRun?_armed spared described armed _ _
    exact ⟨_, s₁, found, runsUnder_own rfl⟩
  | systemJob name =>
    simp only [ServiceCall.target?] at target
    cases parsed : SystemJob.parse name with
    | error e => simp [parsed, Except.toOption] at target
    | ok job =>
      obtain rfl : job.key = k := by simpa [parsed, Except.toOption] using target
      refine ⟨{ new := { key := job.key, environment := none, trigger := .manual } }, s, ?_, runsUnder_own rfl⟩
      simp only [runOf?, parsed]
  | updateCheck n =>
    obtain rfl := Option.some.inj target
    exact ⟨_, s, rfl, runsUnder_own rfl⟩
  | toggle | register => cases target

def firing? (s : Scheduler) (t : LiveTimer) (woken : Clock) : Option (Run × Scheduler) :=
  t.timer.pending.map fun f =>
    ({ new := { key := t.key, environment := t.environment, trigger := .cron } },
      { s with clock := woken, registry := s.registry.refire t f woken })

theorem fire_of_firing {t : LiveTimer} {woken : Clock} {run : Run} {s₁ : Scheduler} (paired : s.registry.Paired)
    (alive : t ∈ s.registry.timers) (firing : s.firing? t woken = some (run, s₁)) :
    s.fire t.token woken = (s₁.complete run).2 := by
  have found := paired.find?_timer alive
  obtain ⟨f, due, made⟩ := Option.map_eq_some_iff.mp firing
  obtain ⟨rfl, rfl⟩ := Prod.mk.inj made
  simp only [fire, found, due]
  rfl

theorem firing_runsUnder {t : LiveTimer} {woken : Clock} {run : Run} {s₁ : Scheduler}
    (firing : s.firing? t woken = some (run, s₁)) : s₁.RunsUnder run t.key t.environment := by
  obtain ⟨f, -, made⟩ := Option.map_eq_some_iff.mp firing
  obtain ⟨rfl, rfl⟩ := Prod.mk.inj made
  exact runsUnder_own rfl

end Scheduler

theorem Registry.Paired.timer {r : Registry} (paired : r.Paired) {k : ScheduleKey} {a : ArmedSchedule}
    (armed : r.armed? k = some a) : ∃ timer ∈ r.timers, timer.key = k ∧ timer.environment = a.environment ∧
      ∀ u ∈ r.timers, u.key = k → u = timer := by
  obtain ⟨mem, rfl⟩ := (find?_eq_some_of_nodup paired.keys).mp armed
  obtain ⟨timer, alive, same⟩ := paired.exists_timer mem
  obtain ⟨-, key, environment, -⟩ := Arming.mk.inj same
  exact ⟨timer, alive, key, environment, fun u there own =>
    List.inj_on_of_nodup_map paired.nodup_keys there alive (own.trans key.symm)⟩

namespace Scheduler

variable {s s' s'' : Scheduler}

def ServiceEvent.reschedules : ServiceEvent → Bool
  | .start | .toggling _ _ _ | .call (.toggle _ _) | .call (.register _ _) => true
  | .call _ | .history _ | .execution _ | .running _ _ | .fire _ _ | .clock _ => false

structure SameArming (s s' : Scheduler) : Prop where
  descriptors : s'.descriptors = s.descriptors
  armed : s'.registry.armed = s.registry.armed
  paired : s.registry.Paired → s'.registry.Paired
  spares : s.faults.SparesDescriptors → s'.faults.SparesDescriptors

namespace SameArming

theorem refl (s : Scheduler) : s.SameArming s :=
  ⟨rfl, rfl, id, id⟩

theorem trans (first : s.SameArming s') (rest : s'.SameArming s'') : s.SameArming s'' :=
  ⟨rest.descriptors.trans first.descriptors, rest.armed.trans first.armed, rest.paired ∘ first.paired,
    rest.spares ∘ first.spares⟩

theorem of_same (same : s.SameSchedules s') : s.SameArming s' :=
  ⟨same.descriptors, congrArg Registry.armed same.registry, fun paired => same.registry ▸ paired, same.spares⟩

theorem fire (s : Scheduler) (token : Nat) (woken : Clock) : s.SameArming (s.fire token woken) := by
  unfold Scheduler.fire
  split
  · exact refl s
  · next t _ =>
    split
    · exact refl s
    · next f _ =>
      have refired : s.SameArming { s with clock := woken, registry := s.registry.refire t f woken } :=
        ⟨rfl, rfl, fun paired => paired.refire t f woken, id⟩
      exact refired.trans (of_same (.of_run _ _ false))

theorem attend {event : ServiceEvent} (quiet : event.reschedules = false) : s.SameArming (s.attend event) := by
  cases event with
  | call c =>
    cases c with
    | containerUpdate | stackSync | stackWebhook => exact of_same (.triggerDescribed s _ _ _)
    | systemJob name =>
      rw [Scheduler.attend, serve, Prod.map_snd]
      exact of_same (.triggerSystemJob s name)
    | updateCheck => exact of_same (.runFor s _ _)
    | toggle | register => cases quiet
  | history q => exact of_same (.onStore s _ _)
  | execution id => exact of_same (.onStore s _ _)
  | running run steps => exact of_same (.advance s steps run)
  | fire token woken => exact fire s token woken
  | clock clock => exact ⟨rfl, rfl, id, id⟩
  | start | toggling => cases quiet

theorem attendAll {events : List ServiceEvent} (quiet : ∀ e ∈ events, e.reschedules = false) :
    s.SameArming (s.attendAll events) := by
  induction events generalizing s with
  | nil => exact refl s
  | cons event rest ih =>
    obtain ⟨first, later⟩ := List.forall_mem_cons.mp quiet
    exact (attend first).trans (ih later)

end SameArming

end Scheduler

def ScheduleKey.Takes (k : ScheduleKey) (given : Option EnvironmentId) : Prop :=
  ∀ n, given = some n →
    match k.kind with
    | .containerUpdate | .gitStackSync => True
    | .envUpdateCheck => k.id = .numeric n
    | .systemCleanup => False

def EnvironmentFits (entries : List ScheduleSettings) (k : ScheduleKey) : Prop :=
  ∀ e, ScheduleSettings.LastOfKey entries k e → k.Takes e.environment

theorem environmentOf_eq_iff {call : ServiceCall} {k : ScheduleKey} (target : call.target? = some k)
    (given : Option EnvironmentId) :
    call.environment (Descriptor.environmentOf k.kind k.id given) = Descriptor.environmentOf k.kind k.id given ↔
      k.Takes given := by
  cases call with
  | containerUpdate n | stackSync n listened | stackWebhook n =>
    obtain rfl := Option.some.inj target
    simp [ServiceCall.environment, ScheduleKey.Takes]
  | systemJob name =>
    obtain ⟨job, -, rfl⟩ := Option.map_eq_some_iff.mp target
    cases given <;> simp [ServiceCall.environment, SystemJob.key, Descriptor.environmentOf, ScheduleKey.Takes]
  | updateCheck n =>
    obtain rfl := Option.some.inj target
    cases given <;> simp [ServiceCall.environment, Descriptor.environmentOf, ScheduleKey.Takes]
  | toggle | register => cases target

theorem environment_ofSettings {entries : List ScheduleSettings} {t : DescriptorTable} {d : Descriptor}
    {k : ScheduleKey} {call : ServiceCall} (loaded : DescriptorTable.ofSettings entries = .ok t)
    (found : t.get? k = some d) (target : call.target? = some k) :
    call.environment d.environment = d.environment ↔ EnvironmentFits entries k := by
  have key := ((DescriptorTable.get?_eq_some (DescriptorTable.sorted_ofSettings loaded)).mp found).2
  rcases (DescriptorTable.get?_ofSettings loaded).mp found with ⟨e, d', last, described, rfl⟩ | ⟨unset, j, rfl, rfl⟩
  · rw [DescriptorTable.key_forced] at key
    have own : (DescriptorTable.forced d').environment = Descriptor.environmentOf k.kind k.id e.environment := by
      rw [DescriptorTable.environment_forced, described.rest, ← key]
      rfl
    have fits : EnvironmentFits entries k ↔ _ :=
      ⟨fun fits => fits e last, fun fits e' last' => (last.unique last') ▸ fits⟩
    rw [own, fits, environmentOf_eq_iff target]
  · have fits : EnvironmentFits entries j.key := fun e last => absurd last.key?_eq (unset e last.mem)
    have bare := environmentOf_eq_iff target none
    exact iff_of_true (bare.mpr nofun) fits

namespace Scheduler

variable {x : Scheduler} {t : DescriptorTable} {entries : List ScheduleSettings} {k : ScheduleKey}
  {call : ServiceCall}

theorem Fresh.armed_by (fresh : x.Fresh t) (loaded : DescriptorTable.ofSettings entries = .ok t)
    (armed : x.start.2.registry.isArmed k = true) :
    ∃ d a, t.get? k = some d ∧ x.start.2.registry.armed? k = some a ∧ a.environment = d.environment := by
  have sorted : t.Sorted := DescriptorTable.sorted_ofSettings loaded
  have up : x.registry.isShutDown = false := by rw [fresh.registry]; rfl
  have bare : x.registry.armed = [] := by rw [fresh.registry]; rfl
  obtain ⟨-, arms⟩ := start_arms fresh.spared up (by rwa [fresh.descriptors])
  rw [fresh.descriptors] at arms
  obtain ⟨a, found⟩ := Option.isSome_iff_exists.mp armed
  obtain ⟨d, mem, reads, rfl, -⟩ := (arms.armed_iff bare).mp ⟨a, found, rfl⟩
  obtain ⟨schedule, parsed⟩ := Descriptor.reads_iff.mp reads
  obtain ⟨token, own⟩ := arms.usable d mem schedule parsed
  obtain rfl := Option.some.inj (own.symm.trans found)
  exact ⟨d, _, (DescriptorTable.get?_eq_some sorted).mpr ⟨(List.mem_filter.mp mem).1, rfl⟩, found, rfl⟩

/-- The call makes a run for the one environment, and the timer of the schedule makes its runs for the other. -/
structure Runs (s : Scheduler) (call : ServiceCall) (k : ScheduleKey) (manual scheduled : Option EnvironmentId) :
    Prop where
  triggered : ∃ run s₁, s.runOf? call = some (run, s₁) ∧ (s.serve call).2 = (s₁.complete run).2 ∧
    s₁.RunsUnder run k manual
  fired : ∃ timer ∈ s.registry.timers, timer.key = k ∧ (∀ u ∈ s.registry.timers, u.key = k → u = timer) ∧
    timer.environment = scheduled ∧ ∀ woken run s₁, s.firing? timer woken = some (run, s₁) →
      s.fire timer.token woken = (s₁.complete run).2 ∧ s₁.RunsUnder run k scheduled

/-- From the start on, until a schedule is armed or disarmed again, runs on demand and runs by the timer are
recorded each under one environment. The two are the same if the settings give the schedule none or the one
that its kind implies. -/
theorem environments_agree_iff (loaded : DescriptorTable.ofSettings entries = .ok t) (fresh : x.Fresh t)
    (target : call.target? = some k) (armed : x.start.2.registry.isArmed k = true) :
    ∃ manual scheduled,
      (∀ events, (∀ e ∈ events, e.reschedules = false) →
        (x.start.2.attendAll events).Runs call k manual scheduled) ∧
      (manual = scheduled ↔ EnvironmentFits entries k) := by
  obtain ⟨d, a, known, armed, same⟩ := fresh.armed_by loaded armed
  obtain ⟨table, spared, -⟩ := start_open fresh.spared
  have paired : x.start.2.registry.Paired := .tended (by rw [fresh.registry]; exact .empty) x.start_tended.1
  refine ⟨call.environment d.environment, d.environment, fun events quiet => ?_,
    environment_ofSettings loaded known target⟩
  have arming := SameArming.attendAll (s := x.start.2) quiet
  generalize x.start.2.attendAll events = s at arming
  have here : s.registry.armed? k = some a := by rwa [Registry.armed?, arming.armed]
  constructor
  · have described : s.descriptors.get? k = some d := by rw [arming.descriptors, table, fresh.descriptors, known]
    have environment : s.registry.environment? k = some d.environment := by
      rw [Registry.environment?, here, Option.map_some, same]
    obtain ⟨run, s₁, found, under⟩ := runOf?_armed (arming.spares spared) described environment target
    obtain ⟨_, _, -, -, -, left, -⟩ := serve_of_run found
    exact ⟨run, s₁, found, left, under⟩
  · obtain ⟨timer, alive, rfl, environment, alone⟩ := (arming.paired paired).timer here
    rw [← same, ← environment]
    exact ⟨timer, alive, rfl, alone, rfl, fun woken run s₁ firing =>
      ⟨fire_of_firing (arming.paired paired) alive firing, firing_runsUnder firing⟩⟩

def checking (environment : Option EnvironmentId) : ScheduleSettings :=
  { kind := "env_update_check", id := .numeric 4, environment, cron := "0 6 * * *" }

def checked (environment : Option EnvironmentId) : Descriptor where
  kind := .envUpdateCheck
  id := .numeric 4
  environment := Descriptor.environmentOf .envUpdateCheck (.numeric 4) environment
  cron := "0 6 * * *"

def checker (environment : Option EnvironmentId) : Scheduler where
  clock := { now := ⟨0, 0⟩ }
  store := .memory .empty
  descriptors := DescriptorTable.systemJobs.upsert (checked environment)
  bodies := fun _ _ _ => { work := .ends (.completed .null) }

theorem checking_describes (environment : Option EnvironmentId) :
    (checking environment).Describes (checked environment) := by
  have kind : ScheduleKind.parse "env_update_check" = .ok .envUpdateCheck := by decide +kernel
  have readable : ∃ schedule, Cron.parse "0 6 * * *" = .ok schedule := ⟨_, rfl⟩
  exact ⟨kind, rfl, nofun, readable, rfl⟩

theorem checking_loaded (environment : Option EnvironmentId) :
    DescriptorTable.ofSettings [checking environment] = .ok (checker environment).descriptors := by
  have described := checking_describes environment
  refine DescriptorTable.ofSettings_eq_ok.mpr ⟨?_, ?_⟩
  · simpa using ⟨_, Descriptor.ofSettings_eq_ok.mpr described⟩
  · simp only [List.filterMap_cons, ScheduleSettings.descriptor?_eq_some.mpr described]
    rfl

theorem checker_fresh (environment : Option EnvironmentId) :
    (checker environment).Fresh (checker environment).descriptors :=
  ⟨rfl, rfl, fun _ => ⟨rfl, rfl, rfl, rfl⟩⟩

theorem checking_agrees :
    ∃ environment, ∀ events, (∀ e ∈ events, e.reschedules = false) →
      ((checker none).start.2.attendAll events).Runs (.updateCheck 4) (checked none).key environment environment := by
  have armed : (checker none).start.2.registry.isArmed (checked none).key = true := by decide +kernel
  have target : ServiceCall.target? (.updateCheck 4) = some (checked none).key := rfl
  have fits : EnvironmentFits [checking none] (checked none).key := by
    intro e last n given
    obtain rfl := List.mem_singleton.mp last.mem
    cases given
  obtain ⟨manual, scheduled, runs, agree⟩ :=
    environments_agree_iff (checking_loaded none) (checker_fresh none) target armed
  obtain rfl := agree.mpr fits
  exact ⟨_, runs⟩

theorem checking_differs :
    let s := (checker (some 9)).start.2
    let environments (run : Run × Scheduler) := (run.2.recordsOf run.1).map (·.environment)
    DescriptorTable.ofSettings [checking (some 9)] = .ok (checker (some 9)).descriptors ∧
      s.registry.isArmed (checked (some 9)).key = true ∧
      (s.runOf? (.updateCheck 4)).map environments = some [some 4, some 4, some 4] ∧
      ∃ timer ∈ s.registry.timers, timer.key = (checked (some 9)).key ∧
        (s.firing? timer { now := ⟨21600, 0⟩ }).map environments = some [some 9, some 9, some 9] := by
  refine ⟨checking_loaded (some 9), by decide +kernel, by decide +kernel, ?_⟩
  decide +kernel

end Scheduler

end FleetOps
