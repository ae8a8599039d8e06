import FleetOps.Proofs.Access.Sessions
import FleetOps.Proofs.Schedule.Loading
import FleetOps.Proofs.Scheduler.Rebuild
import FleetOps.Proofs.Scheduler.Upkeep

set_option autoImplicit false

namespace FleetOps

namespace Access.Model

variable {m : Model} {auth : AuthSettings} {x : AccessError}

theorem roleOfSettings_error {name : String} {rs : RoleSettings}
    (failed : m.roleOfSettings name rs = .error x) (m' : Model) :
    m'.roleOfSettings name rs = .error x := by
  unfold roleOfSettings role at failed ⊢
  obtain unread | ⟨own, reads, failed⟩ := bind_eq_error.mp failed
  · exact bind_eq_error.mpr (.inl unread)
  · obtain refused | ⟨_, -, failed⟩ := bind_eq_error.mp failed
    · exact bind_eq_error.mpr (.inr ⟨own, reads, bind_eq_error.mpr (.inl refused)⟩)
    · cases failed

theorem exists_of_ofSettings_eq_error (failed : ofSettings auth = .error x) :
    ∃ p ∈ auth.roles, ∃ m : Model, m.roleOfSettings p.1 p.2 = .error x := by
  unfold ofSettings at failed
  generalize empty.withPresets = start at failed
  generalize auth.roles = roles at failed ⊢
  induction roles generalizing start with
  | nil => simp [pure, Except.pure] at failed
  | cons p rest ih =>
    rw [List.foldlM_cons] at failed
    obtain here | ⟨next, -, failed⟩ := bind_eq_error.mp failed
    · exact ⟨p, List.mem_cons_self, start, here⟩
    · obtain ⟨q, mem, m, own⟩ := ih next failed
      exact ⟨q, List.mem_cons_of_mem p mem, m, own⟩

end Access.Model

namespace Settings

open Validation

variable {s : Settings}

theorem mem_errors_of_role {p : String × RoleSettings} (declared : p ∈ s.auth.roles) {m : Access.Model}
    {x : Access.AccessError} (failed : m.roleOfSettings p.1 p.2 = .error x) :
    ⟨rolePath p.1, x.message⟩ ∈ s.fullReport.errors := by
  have faulty : faultyRole p = some ⟨rolePath p.1, x.message⟩ := by
    simp [faultyRole, Access.Model.roleOfSettings_error failed]
  rw [fullReport, Report.errors_append]
  refine List.mem_append_right _ (List.mem_append_left _ (List.mem_filterMap.mpr ⟨p, ?_, faulty⟩))
  exact (byName_perm _).mem_iff.mpr declared

theorem mem_errors_of_entry {i : Nat} {e : ScheduleSettings} (there : s.schedules[i]? = some e)
    {x : SchedulerError} (failed : Descriptor.ofSettings e = .error x) :
    ⟨indexed "schedules" i, x.message⟩ ∈ s.fullReport.errors := by
  have faulty : faultySchedule (e, i) = some ⟨indexed "schedules" i, x.message⟩ := by
    simp [faultySchedule, failed]
  rw [fullReport, Report.errors_append]
  refine List.mem_append_right _ (List.mem_append_right _ (List.mem_filterMap.mpr ⟨(e, i), ?_, faulty⟩))
  exact List.mem_zipIdx_iff_getElem?.mpr there

theorem fullReport_entries (valid : s.fullReport.isValid = true) :
    ∀ e ∈ s.schedules, ∃ d, Descriptor.ofSettings e = .ok d := by
  intro e mem
  obtain ⟨i, there⟩ := List.mem_iff_getElem?.mp mem
  cases built : Descriptor.ofSettings e with
  | ok d => exact ⟨d, rfl⟩
  | error x =>
    have found := mem_errors_of_entry there built
    rw [Report.isValid_iff.mp valid] at found
    exact absurd found List.not_mem_nil

theorem fullReport_table (valid : s.fullReport.isValid = true) :
    ∃ t, DescriptorTable.ofSettings s.schedules = .ok t :=
  ⟨_, DescriptorTable.ofSettings_eq_ok.mpr ⟨fullReport_entries valid, rfl⟩⟩

end Settings

open ScheduleSettings

inductive Scheduled (entries : List ScheduleSettings) : ScheduleKey → String → Prop where
  | entry {k : ScheduleKey} {e : ScheduleSettings} (last : LastOfKey entries k e)
      (on : e.enabled = true ∨ k.kind = .systemCleanup) : Scheduled entries k e.cron
  | system (j : SystemJob) (unset : ∀ e ∈ entries, e.key? ≠ some j.key) :
      Scheduled entries j.key j.defaultCron

theorem scheduled_system (entries : List ScheduleSettings) (j : SystemJob) :
    ∃ cron, Scheduled entries j.key cron := by
  cases last : entries.reverse.find? (·.key? = some j.key) with
  | some e => exact ⟨e.cron, .entry (lastOfKey_iff.mp last) (.inr rfl)⟩
  | none => exact ⟨j.defaultCron, .system j (by simpa using List.find?_eq_none.mp last)⟩

theorem SystemJob.reads_default (j : SystemJob) : (Descriptor.ofSystemJob j).reads = true := by
  cases j <;> rfl

namespace DescriptorTable

variable {entries : List ScheduleSettings} {t : DescriptorTable} {d : Descriptor}

theorem reads_of_mem (loaded : ofSettings entries = .ok t) (mem : d ∈ t.entries) : d.reads = true := by
  have found := (get?_eq_some (sorted_ofSettings loaded)).mpr ⟨mem, rfl⟩
  rcases (get?_ofSettings loaded).mp found with ⟨e, d', -, described, rfl⟩ | ⟨-, j, -, rfl⟩
  · rw [Descriptor.reads_iff, cron_forced, described.rest]
    exact described.readable
  · exact j.reads_default

theorem mem_enabled (loaded : ofSettings entries = .ok t) {k : ScheduleKey} {cron : String} :
    (∃ d ∈ t.enabled, d.key = k ∧ d.cron = cron) ↔ Scheduled entries k cron := by
  have sorted := sorted_ofSettings loaded
  constructor
  · rintro ⟨d, mem, rfl, rfl⟩
    obtain ⟨there, on⟩ := List.mem_filter.mp mem
    have found := (get?_eq_some sorted).mpr ⟨there, rfl⟩
    rcases (get?_ofSettings loaded).mp found with ⟨e, d', last, described, rfl⟩ | ⟨unset, j, key, rfl⟩
    · have cron : (forced d').cron = e.cron := (cron_forced d').trans (by rw [described.rest])
      have enabled : d'.enabled = e.enabled := by rw [described.rest]
      have kind : (forced d').key.kind = d'.kind := by rw [key_forced]; rfl
      rw [cron]
      refine .entry last ?_
      rwa [kind, ← enabled, ← enabled_forced]
    · exact .system j unset
  · intro scheduled
    cases scheduled with
    | @entry _ e last on =>
      obtain ⟨d, described, rfl⟩ := key?_eq_some.mp last.key?_eq
      have found := (get?_ofSettings loaded).mpr (.inl ⟨e, d, last, described, rfl⟩)
      obtain ⟨there, key⟩ := (get?_eq_some sorted).mp found
      have enabled : (forced d).enabled = true := by
        rw [enabled_forced, described.rest]
        exact on
      exact ⟨forced d, List.mem_filter.mpr ⟨there, enabled⟩, key,
        (cron_forced d).trans (by rw [described.rest])⟩
    | system j unset =>
      have found := (get?_ofSettings loaded).mpr (.inr ⟨unset, j, rfl, rfl⟩)
      obtain ⟨there, key⟩ := (get?_eq_some sorted).mp found
      exact ⟨_, List.mem_filter.mpr ⟨there, rfl⟩, key, rfl⟩

end DescriptorTable

namespace Scheduler

variable {x : Scheduler} {t : DescriptorTable} {entries : List ScheduleSettings}
  {answer : Except SchedulerError Nat}

structure Fresh (x : Scheduler) (t : DescriptorTable) : Prop where
  descriptors : x.descriptors = t
  registry : x.registry = .empty
  spared : x.faults.SparesDescriptors

structure Started (x : Scheduler) (entries : List ScheduleSettings) (answer : Except SchedulerError Nat) :
    Prop where
  count : answer = .ok x.registry.armed.length
  once : (x.registry.armed.map (·.key)).Nodup
  armed : ∀ k cron, (∃ a ∈ x.registry.armed, a.key = k ∧ a.cron = cron) ↔ Scheduled entries k cron

theorem Fresh.started (fresh : x.Fresh t) (loaded : DescriptorTable.ofSettings entries = .ok t) :
    x.start.2.Started entries x.start.1 := by
  have sorted := DescriptorTable.sorted_ofSettings loaded
  have up : x.registry.isShutDown = false := by rw [fresh.registry]; rfl
  have bare : x.registry.armed = [] := by rw [fresh.registry]; rfl
  obtain ⟨count, arms⟩ := start_arms fresh.spared up (by rwa [fresh.descriptors])
  rw [fresh.descriptors] at count arms
  have paired : x.start.2.registry.Paired :=
    .tended (by rw [fresh.registry]; exact .empty) x.start_tended.1
  have apart : (t.enabled.map (·.key)).Nodup := sorted.nodup_keys.sublist (List.filter_sublist.map _)
  constructor
  · rw [count]
    simpa using (arms.armed_perm bare paired.keys apart).length_eq.symm
  · exact paired.keys
  · intro k cron
    rw [arms.mem_armed bare paired.keys, ← DescriptorTable.mem_enabled loaded]
    constructor
    · rintro ⟨d, mem, -, own⟩
      exact ⟨d, mem, own⟩
    · rintro ⟨d, mem, own⟩
      exact ⟨d, mem, DescriptorTable.reads_of_mem loaded (List.mem_filter.mp mem).1, own⟩

theorem Started.isArmed_system (started : x.Started entries answer) (j : SystemJob) :
    x.registry.isArmed j.key = true := by
  obtain ⟨cron, scheduled⟩ := scheduled_system entries j
  obtain ⟨a, mem, key, -⟩ := (started.armed j.key cron).mpr scheduled
  have found : x.registry.armed? j.key = some a :=
    (find?_eq_some_of_nodup started.once).mpr ⟨mem, key⟩
  rw [Registry.isArmed, found]
  rfl

end Scheduler

/-- Settings whose report has no errors start with just what they schedule, the system jobs among it; of
settings that cannot be loaded, each role and each entry that fails has an error at its place. -/
theorem Settings.report_startup (s : Settings) :
    (s.fullReport.isValid = true →
      (∃ m, Access.Model.ofSettings s.auth = .ok m) ∧
        ∃ t, DescriptorTable.ofSettings s.schedules = .ok t ∧
          ∀ x : Scheduler, x.Fresh t → x.start.2.Started s.schedules x.start.1 ∧
            ∀ j : SystemJob, x.start.2.registry.isArmed j.key = true) ∧
      (∀ e, Access.Model.ofSettings s.auth = .error e → s.fullReport.isValid = false ∧
        ∃ p ∈ s.auth.roles, ⟨Validation.rolePath p.1, e.message⟩ ∈ s.fullReport.errors) ∧
      (∀ e, DescriptorTable.ofSettings s.schedules = .error e → s.fullReport.isValid = false ∧
        ∃ i < s.schedules.length, ⟨Validation.indexed "schedules" i, e.message⟩ ∈ s.fullReport.errors) ∧
      (∀ p ∈ s.auth.roles, ∀ (m : Access.Model) e, m.roleOfSettings p.1 p.2 = .error e →
        ⟨Validation.rolePath p.1, e.message⟩ ∈ s.fullReport.errors) ∧
      ∀ i d e, s.schedules[i]? = some d → Descriptor.ofSettings d = .error e →
        ⟨Validation.indexed "schedules" i, e.message⟩ ∈ s.fullReport.errors := by
  have invalid {f : Finding} (mem : f ∈ s.fullReport.errors) : s.fullReport.isValid = false := by
    rw [← Bool.not_eq_true, Report.isValid_iff]
    exact List.ne_nil_of_mem mem
  refine ⟨fun valid => ?_, fun e failed => ?_, fun e failed => ?_, ?_, ?_⟩
  · obtain ⟨-, model⟩ := fullReport_valid valid
    obtain ⟨t, loaded⟩ := fullReport_table valid
    refine ⟨model, t, loaded, fun x fresh => ?_⟩
    have started := fresh.started loaded
    exact ⟨started, started.isArmed_system⟩
  · obtain ⟨p, declared, m, own⟩ := Access.Model.exists_of_ofSettings_eq_error failed
    have found := mem_errors_of_role declared own
    exact ⟨invalid found, p, declared, found⟩
  · obtain ⟨d, mem, own⟩ := DescriptorTable.exists_of_ofSettings_eq_error failed
    obtain ⟨i, there⟩ := List.mem_iff_getElem?.mp mem
    have found := mem_errors_of_entry there own
    exact ⟨invalid found, i, (List.getElem?_eq_some_iff.mp there).1, found⟩
  · exact fun p declared m e failed => mem_errors_of_role declared failed
  · exact fun i d e there failed => mem_errors_of_entry there failed

def nightly : Settings where
  schedules :=
    [{ kind := "container_update", id := .numeric 1, cron := "0 4 * * *" },
     { kind := "container_update", id := .named "web", cron := "0 5 * * *", enabled := false },
     { kind := "system_cleanup", id := .named "event_cleanup", cron := "0 2 * * *", enabled := false }]

theorem nightly_valid : nightly.fullReport.isValid = true := by
  have logging : Validation.checkLogging nightly.logging = {} := Validation.checkLogging_default
  rw [Settings.fullReport, Settings.validate, logging]
  decide +kernel

theorem nightly_starts :
    nightly.fullReport.isValid = true ∧ ∃ t x, DescriptorTable.ofSettings nightly.schedules = .ok t ∧
      Scheduler.Fresh x t ∧ x.start.2.Started nightly.schedules x.start.1 := by
  obtain ⟨-, t, loaded, starts⟩ := (Settings.report_startup nightly).1 nightly_valid
  let x : Scheduler :=
    { clock := { now := ⟨0, 0⟩ }, store := .memory .empty, descriptors := t,
      bodies := fun _ _ _ => { work := .ends (.completed .null) } }
  have fresh : x.Fresh t := ⟨rfl, rfl, fun _ => ⟨rfl, rfl, rfl, rfl⟩⟩
  exact ⟨nightly_valid, t, x, loaded, fresh, (starts x fresh).1⟩

end FleetOps
