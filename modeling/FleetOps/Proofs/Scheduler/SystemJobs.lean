import FleetOps.Proofs.Scheduler.Refusals
import FleetOps.Proofs.Settings.Startup

set_option autoImplicit false

namespace FleetOps

/-- Each system job is enabled and armed by its descriptor, and the table has no other key of their kind. -/
structure JobsOn (t : DescriptorTable) (r : Registry) : Prop where
  armed : ∀ j : SystemJob, ∃ d a, t.get? j.key = some d ∧ d.enabled = true ∧
    r.armed? j.key = some a ∧ a.cron = d.cron
  alone : ∀ d ∈ t.entries, d.kind = .systemCleanup → ∃ j : SystemJob, j.key = d.key

namespace JobsOn

variable {t : DescriptorTable} {r : Registry} {k : ScheduleKey} {d : Descriptor}

theorem ne_key (may : k.kind.canDisable = true) (j : SystemJob) : j.key ≠ k := by
  rintro rfl
  cases may

theorem disarm (on : JobsOn t r) (may : k.kind.canDisable = true) : JobsOn t (r.disarm k) := by
  refine ⟨fun j => ?_, on.alone⟩
  rw [Registry.armed?_disarm, if_neg (ne_key may j)]
  exact on.armed j

theorem arm (on : JobsOn t r) (known : t.get? k = some d) (schedule : Cron.Schedule)
    (environment : Option EnvironmentId) (clock : Clock) :
    JobsOn t (r.arm k d.cron schedule environment clock) := by
  refine ⟨fun j => ?_, on.alone⟩
  rw [Registry.armed?_arm]
  split_ifs with same
  · subst same
    obtain ⟨d', -, found, enabled, -⟩ := on.armed j
    obtain rfl : d = d' := Option.some.inj (known.symm.trans found)
    exact ⟨d, _, found, enabled, rfl, rfl⟩
  · exact on.armed j

theorem follow (on : JobsOn t r) (known : t.get? k = some d) (override : Option EnvironmentId)
    (clock : Clock) : JobsOn t (r.follow k d override clock).2 := by
  have follows := r.follows_follow k d override clock
  generalize (r.follow k d override clock).1 = answer, (r.follow k d override clock).2 = r' at follows
  cases follows with
  | disabled off may => exact on.disarm may
  | unreadable => exact on
  | late => exact on
  | armed => exact on.arm known _ _ _

theorem setEnabled (on : JobsOn t r) {enabled : Bool}
    (may : enabled = true ∨ k.kind.canDisable = true) : JobsOn (t.setEnabled k enabled) r := by
  constructor
  · intro j
    obtain ⟨d, a, found, allowed, armed, cron⟩ := on.armed j
    rw [DescriptorTable.get?_setEnabled, found, Option.map_some]
    by_cases same : j.key = k
    · have kept : enabled = true := may.resolve_right fun may => ne_key may j same
      exact ⟨_, a, rfl, by simp [same, kept], armed, by simpa [same] using cron⟩
    · exact ⟨d, a, by simp [same], allowed, armed, cron⟩
  · intro d mem system
    obtain ⟨d₀, there, rfl⟩ := List.mem_map.mp mem
    by_cases same : d₀.key = k
    · simp only [if_pos same] at system ⊢
      exact on.alone d₀ there system
    · simp only [if_neg same] at system ⊢
      exact on.alone d₀ there system

end JobsOn

namespace Scheduler

variable {s s' x : Scheduler} {t t' : Toggle} {k : ScheduleKey}

theorem SameSchedules.jobsOn (same : s.SameSchedules s') (on : JobsOn s.descriptors s.registry) :
    JobsOn s'.descriptors s'.registry := by
  rwa [same.descriptors, same.registry]

theorem register_jobsOn (on : JobsOn s.descriptors s.registry) (k : ScheduleKey)
    (override : Option EnvironmentId) :
    JobsOn (s.register k override).2.descriptors (s.register k override).2.registry := by
  have described := s.describe_same k
  rw [register_descriptors]
  unfold register
  split
  · next call =>
    rw [call] at described
    exact described.registry ▸ on
  · next call =>
    rw [call] at described
    exact described.registry ▸ on
  · next d s' call =>
    rw [call] at described
    rw [← described.registry] at on
    exact on.follow (describe_ok call).symm override s'.clock

theorem start_jobsOn (on : JobsOn s.descriptors s.registry) :
    JobsOn s.start.2.descriptors s.start.2.registry :=
  start_keeps (P := fun s => JobsOn s.descriptors s.registry)
    (fun _ k override on => register_jobsOn on k override) (s.listEnabled_same.jobsOn on)

theorem setEnabled_either (s : Scheduler) (k : ScheduleKey) (enabled : Bool) :
    (s.setEnabled k enabled).2.descriptors = s.descriptors ∨
      (s.setEnabled k enabled).2.descriptors = s.descriptors.setEnabled k enabled := by
  unfold setEnabled attempt
  split
  · exact .inl rfl
  · dsimp only
    split
    · exact .inl rfl
    · exact .inr rfl

theorem setEnabled_jobsOn (on : JobsOn s.descriptors s.registry) {enabled : Bool}
    (may : enabled = true ∨ k.kind.canDisable = true) :
    JobsOn (s.setEnabled k enabled).2.descriptors (s.setEnabled k enabled).2.registry := by
  rw [(s.setEnabled_registry k enabled).1]
  obtain kept | written := s.setEnabled_either k enabled
  · rwa [kept]
  · rw [written]
    exact on.setEnabled may

-- A toggle past its first look does not switch off what stays on; it holds the descriptor of the table when
-- it turns to the timer.
def AllowedToggle (s : Scheduler) (t : Toggle) : Prop :=
  match t.phase with
  | .known _ | .written => t.enabled = true ∨ t.key.kind.canDisable = true
  | .reread d => s.descriptors.get? t.key = some d
  | .asked | .answered _ => True

theorem ToggleSteps.jobsOn (steps : s.ToggleSteps t t' s') (on : JobsOn s.descriptors s.registry)
    (allowed : s.AllowedToggle t) : JobsOn s'.descriptors s'.registry ∧ s'.AllowedToggle t' := by
  have described := (s.describe_same t.key).jobsOn on
  cases steps with
  | unread _ call | unknown _ call | fixed _ call | lost _ _ call | gone _ _ call =>
    exact ⟨by simpa [call] using described, trivial⟩
  | found _ call may => exact ⟨by simpa [call] using described, may⟩
  | unset here call | vanished here call =>
    simp only [AllowedToggle, here] at allowed
    exact ⟨by simpa [call] using setEnabled_jobsOn on allowed, trivial⟩
  | set here call =>
    simp only [AllowedToggle, here] at allowed
    exact ⟨by simpa [call] using setEnabled_jobsOn on allowed, allowed⟩
  | @reread d s' _ _ call =>
    have same := (s.describe_same t.key).descriptors
    rw [call] at described same
    have known : s'.descriptors.get? t.key = some d := by rw [same, ← describe_ok call]
    exact ⟨described, known⟩
  | forget here off =>
    simp only [AllowedToggle, here] at allowed
    exact ⟨on.disarm (allowed.resolve_left (by simp [off])), trivial⟩
  | refused here call | followed here call =>
    simp only [AllowedToggle, here] at allowed
    have followed := on.follow allowed none s.clock
    rw [call] at followed
    exact ⟨followed, trivial⟩
  | rest here => exact ⟨on, allowed⟩

theorem advanceToggle_jobsOn (n : Nat) (on : JobsOn s.descriptors s.registry)
    (allowed : s.AllowedToggle t) :
    JobsOn (advanceToggle n s t).2.descriptors (advanceToggle n s t).2.registry := by
  induction n generalizing s t with
  | zero => exact on
  | succ n ih =>
    obtain ⟨on, allowed⟩ := (s.steps_stepToggle t).jobsOn on allowed
    exact ih on allowed

inductive ServiceEvent where
  | start
  | call (c : ServiceCall)
  | history (q : ExecutionQuery)
  | execution (id : ExecutionId)
  | toggling (k : ScheduleKey) (enabled : Bool) (steps : Nat)
  | running (run : Run) (steps : Nat)
  | fire (token : Nat) (woken : Clock)
  | clock (clock : Clock)

def attend (s : Scheduler) : ServiceEvent → Scheduler
  | .start => s.start.2
  | .call c => (s.serve c).2
  | .history q => (s.history q).2
  | .execution id => (s.get id).2
  | .toggling k enabled steps => (advanceToggle steps s { key := k, enabled }).2
  | .running run steps => (advance steps s run).2
  | .fire token woken => s.fire token woken
  | .clock clock => { s with clock }

def attendAll (s : Scheduler) (events : List ServiceEvent) : Scheduler :=
  events.foldl attend s

theorem SameSchedules.runFor (s : Scheduler) (new : NewExecution) (listened : Bool) :
    s.SameSchedules (s.runFor new listened).2 := by
  have ran := SameSchedules.of_run s new listened
  unfold Scheduler.runFor
  split <;> next call => rwa [call] at ran

theorem SameSchedules.triggerDescribed (s : Scheduler) (k : ScheduleKey) (trigger : TriggerSource)
    (listened : Bool) : s.SameSchedules (s.triggerDescribed k trigger listened).2 := by
  have described := s.describe_same k
  unfold Scheduler.triggerDescribed
  split
  · next call => rwa [call] at described
  · next call => rwa [call] at described
  · next d s' call =>
    rw [call] at described
    exact described.trans (runFor s' _ listened)

theorem SameSchedules.triggerSystemJob (s : Scheduler) (name : String) :
    s.SameSchedules (s.triggerSystemJob name).2 := by
  unfold Scheduler.triggerSystemJob
  split
  · exact refl s
  · exact runFor s _ false

structure KeepsJobs (s : Scheduler) : Prop where
  jobs : JobsOn s.descriptors s.registry
  paired : s.registry.Paired

namespace KeepsJobs

theorem same (keeps : s.KeepsJobs) (same : s.SameSchedules s') : s'.KeepsJobs :=
  ⟨same.jobsOn keeps.jobs, same.registry ▸ keeps.paired⟩

theorem toggling (keeps : s.KeepsJobs) (k : ScheduleKey) (enabled : Bool) (steps : Nat) :
    (advanceToggle steps s { key := k, enabled }).2.KeepsJobs :=
  ⟨advanceToggle_jobsOn steps keeps.jobs trivial, keeps.paired.tended (s.advanceToggle_tended steps _).1⟩

theorem serve (keeps : s.KeepsJobs) (c : ServiceCall) : (s.serve c).2.KeepsJobs := by
  cases c with
  | containerUpdate n => exact keeps.same (.triggerDescribed s _ _ _)
  | stackSync n listened => exact keeps.same (.triggerDescribed s _ _ _)
  | stackWebhook n => exact keeps.same (.triggerDescribed s _ _ _)
  | systemJob name =>
    rw [Scheduler.serve, Prod.map_snd]
    exact keeps.same (.triggerSystemJob s name)
  | updateCheck environment => exact keeps.same (.runFor s _ _)
  | toggle k enabled => exact keeps.toggling k enabled TogglePhase.asked.rank
  | register k override =>
    exact ⟨register_jobsOn keeps.jobs k override, keeps.paired.tended (s.register_tended k override).1⟩

theorem fire (keeps : s.KeepsJobs) (token : Nat) (woken : Clock) : (s.fire token woken).KeepsJobs := by
  refine ⟨?_, keeps.paired.tended (s.fire_tended token woken).1⟩
  unfold Scheduler.fire
  split
  · exact keeps.jobs
  · next t _ =>
    split
    · exact keeps.jobs
    · next f _ =>
      -- The firing moves a timer on; the armed table is not touched.
      have on : JobsOn s.descriptors (s.registry.refire t f woken) := ⟨keeps.jobs.armed, keeps.jobs.alone⟩
      exact (SameSchedules.of_run { s with clock := woken, registry := s.registry.refire t f woken }
        _ false).jobsOn on

theorem attend (keeps : s.KeepsJobs) (event : ServiceEvent) : (s.attend event).KeepsJobs := by
  cases event with
  | start => exact ⟨start_jobsOn keeps.jobs, keeps.paired.tended s.start_tended.1⟩
  | call c => exact keeps.serve c
  | history q => exact keeps.same (.onStore s _ _)
  | execution id => exact keeps.same (.onStore s _ _)
  | toggling k enabled steps => exact keeps.toggling k enabled steps
  | running run steps => exact keeps.same (.advance s steps run)
  | fire token woken => exact keeps.fire token woken
  | clock clock => exact ⟨keeps.jobs, keeps.paired⟩

theorem attendAll (keeps : s.KeepsJobs) (events : List ServiceEvent) : (s.attendAll events).KeepsJobs := by
  induction events generalizing s with
  | nil => exact keeps
  | cons event rest ih => exact ih (keeps.attend event)

end KeepsJobs

end Scheduler

theorem DescriptorTable.alone_ofSettings {entries : List ScheduleSettings} {t : DescriptorTable}
    (loaded : ofSettings entries = .ok t) {d : Descriptor} (mem : d ∈ t.entries)
    (system : d.kind = .systemCleanup) : ∃ j : SystemJob, j.key = d.key := by
  have found := (get?_eq_some (sorted_ofSettings loaded)).mpr ⟨mem, rfl⟩
  rcases (get?_ofSettings loaded).mp found with ⟨e, d', -, described, rfl⟩ | ⟨-, j, key, -⟩
  · have kind : (forced d').key.kind = d'.key.kind := by rw [key_forced]
    rw [key_forced]
    exact described.job (kind.symm.trans system)
  · exact ⟨j, key⟩

namespace Scheduler

variable {x : Scheduler} {t : DescriptorTable} {entries : List ScheduleSettings}

theorem Fresh.keepsJobs (fresh : x.Fresh t) (loaded : DescriptorTable.ofSettings entries = .ok t) :
    x.start.2.KeepsJobs := by
  have table : x.start.2.descriptors = t := x.start_descriptors.trans fresh.descriptors
  have sorted := DescriptorTable.sorted_ofSettings loaded
  have started := fresh.started loaded
  refine ⟨⟨fun j => ?_, fun d mem => ?_⟩, ?_⟩
  · obtain ⟨cron, scheduled⟩ := scheduled_system entries j
    obtain ⟨d, mem, key, own⟩ := (DescriptorTable.mem_enabled loaded).mpr scheduled
    obtain ⟨there, on⟩ := List.mem_filter.mp mem
    obtain ⟨a, armed, named, text⟩ := (started.armed j.key cron).mpr scheduled
    rw [table]
    exact ⟨d, a, (DescriptorTable.get?_eq_some sorted).mpr ⟨there, key⟩, on,
      (find?_eq_some_of_nodup started.once).mpr ⟨armed, named⟩, text.trans own.symm⟩
  · rw [table] at mem
    exact DescriptorTable.alone_ofSettings loaded mem
  · exact .tended (by rw [fresh.registry]; exact .empty) x.start_tended.1

end Scheduler

def Registry.Sleeps (r : Registry) (k : ScheduleKey) (cron : String) : Prop :=
  ∃ a timer, r.armed? k = some a ∧ a.cron = cron ∧ timer ∈ r.timers ∧ timer.token = a.token ∧
    timer.key = k ∧ Cron.parse cron = .ok timer.timer.schedule

theorem Registry.Paired.sleeps {r : Registry} (paired : r.Paired) {k : ScheduleKey} {a : ArmedSchedule}
    (armed : r.armed? k = some a) : r.Sleeps k a.cron := by
  obtain ⟨mem, rfl⟩ := (find?_eq_some_of_nodup paired.keys).mp armed
  obtain ⟨timer, alive, same⟩ := paired.exists_timer mem
  obtain ⟨token, key, -, schedule⟩ := Arming.mk.inj same
  refine ⟨a, timer, armed, rfl, alive, token, key, ?_⟩
  rw [paired.readable a mem]
  exact congrArg _ schedule.symm

namespace Scheduler

variable {x : Scheduler} {t : DescriptorTable} {entries : List ScheduleSettings}

/-- After the first start every system job is enabled and its timer sleeps by the cron text of its
descriptor, and no other key of their kind is in the table. -/
theorem system_jobs_stay (loaded : DescriptorTable.ofSettings entries = .ok t) (fresh : x.Fresh t)
    (events : List ServiceEvent) :
    (∀ j : SystemJob, ∃ d, (x.start.2.attendAll events).descriptors.get? j.key = some d ∧
      d.enabled = true ∧ (x.start.2.attendAll events).registry.Sleeps j.key d.cron) ∧
      ∀ d ∈ (x.start.2.attendAll events).descriptors.entries, d.kind = .systemCleanup →
        ∃ j : SystemJob, j.key = d.key := by
  have keeps := (fresh.keepsJobs loaded).attendAll events
  refine ⟨fun j => ?_, keeps.jobs.alone⟩
  obtain ⟨d, a, found, on, armed, cron⟩ := keeps.jobs.armed j
  exact ⟨d, found, on, cron ▸ keeps.paired.sleeps armed⟩

theorem nightly_jobs_stay :
    ∃ t x, DescriptorTable.ofSettings nightly.schedules = .ok t ∧ Fresh x t ∧
      ∀ j : SystemJob, ∃ d, (x.start.2.attendAll [.call (.toggle j.key false), .call (.systemJob j.name),
        .start]).descriptors.get? j.key = some d ∧ d.enabled = true := by
  obtain ⟨t, loaded⟩ := Settings.fullReport_table nightly_valid
  let x : Scheduler :=
    { clock := { now := ⟨0, 0⟩ }, store := .memory .empty, descriptors := t,
      bodies := fun _ _ _ => { work := .ends (.completed .null) } }
  have fresh : x.Fresh t := ⟨rfl, rfl, fun _ => ⟨rfl, rfl, rfl, rfl⟩⟩
  refine ⟨t, x, loaded, fresh, fun j => ?_⟩
  obtain ⟨d, found, on, -⟩ := (system_jobs_stay loaded fresh _).1 j
  exact ⟨d, found, on⟩

end Scheduler

end FleetOps
