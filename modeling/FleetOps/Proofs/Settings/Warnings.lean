import FleetOps.Proofs.Access.Decision
import FleetOps.Proofs.Jobs.Idle
import FleetOps.Proofs.Settings.Duplicates

set_option autoImplicit false

namespace FleetOps

inductive Warning where
  | unenforced
  | undefinedRole (i : Nat) (role : String)
  | unlicensed (i : Nat)
  | ignoredFlag (i : Nat)
  | missingCommand (i : Nat) (kind : String)

namespace Warning

open Validation

def finding : Warning → Finding
  | unenforced =>
    ⟨"auth.enabled", "Users are configured but authorization is disabled; every check will be allowed"⟩
  | undefinedRole i role =>
    ⟨indexed "auth.users" i ++ ".roles", "Role '" ++ role ++ "' is not defined and grants nothing"⟩
  | unlicensed i =>
    ⟨indexed "auth.users" i ++ ".environments",
      "Environment assignments only apply with an Enterprise license"⟩
  | ignoredFlag i =>
    ⟨indexed "schedules" i ++ ".enabled", "System cleanup jobs cannot be disabled; the flag is ignored"⟩
  | missingCommand i kind =>
    ⟨indexed "schedules" i ++ ".kind", "No [jobs." ++ kind ++ "] command configured; runs will be skipped"⟩

def initial : Warning → Char
  | unenforced => 'U'
  | undefinedRole _ _ => 'R'
  | unlicensed _ => 'E'
  | ignoredFlag _ => 'S'
  | missingCommand _ _ => 'N'

theorem head?_finding (x : Warning) : x.finding.message.toList.head? = some x.initial := by
  cases x <;> simp [finding, initial]

theorem initial_inj {x y : Warning} (same : x.finding = y.finding) : x.initial = y.initial := by
  have heads := x.head?_finding
  rw [same, y.head?_finding] at heads
  exact (Option.some.inj heads).symm

theorem indexed_inj {name rest : String} {i j : Nat}
    (same : indexed name i ++ rest = indexed name j ++ rest) : i = j := by
  have digits : Nat.toDigits 10 i = Nat.toDigits 10 j := by
    simpa [indexed, String.append_assoc, String.ext_iff, Nat.repr] using same
  rw [← Text.digitsValue_toDigits i, digits, Text.digitsValue_toDigits]

theorem finding_inj {x y : Warning} (same : x.finding = y.finding) : x = y := by
  have initials := initial_inj same
  cases x with
  | unenforced =>
    cases y with
    | unenforced => rfl
    | _ => simp [initial] at initials
  | undefinedRole i role =>
    cases y with
    | undefinedRole j role' =>
      obtain ⟨path, message⟩ := Finding.mk.inj same
      obtain rfl := indexed_inj path
      simpa using message
    | _ => simp [initial] at initials
  | unlicensed i =>
    cases y with
    | unlicensed j => rw [indexed_inj (Finding.mk.inj same).1]
    | _ => simp [initial] at initials
  | ignoredFlag i =>
    cases y with
    | ignoredFlag j => rw [indexed_inj (Finding.mk.inj same).1]
    | _ => simp [initial] at initials
  | missingCommand i kind =>
    cases y with
    | missingCommand j kind' =>
      obtain ⟨path, message⟩ := Finding.mk.inj same
      obtain rfl := indexed_inj path
      simpa using message
    | _ => simp [initial] at initials

end Warning

namespace Validation

open Report

variable {s : Settings} {jobs : JobSettings} {tokens : List String} {earlier : List (String × String)} {i : Nat}
  {u : UserSettings} {users : List UserSettings} {e : ScheduleSettings} {entries : List ScheduleSettings}
  {f : Finding}

inductive UserWarns (s : Settings) (i : Nat) (u : UserSettings) : Warning → Prop where
  | undefinedRole {role : String} (listed : role ∈ u.roles) (unknown : isDefinedRole s.auth role = false) :
      UserWarns s i u (.undefinedRole i role)
  | unlicensed (bound : u.environments ≠ []) (community : s.license.enterprise = false) :
      UserWarns s i u (.unlicensed i)

inductive EntryWarns (jobs : JobSettings) (i : Nat) (e : ScheduleSettings) : Warning → Prop where
  | ignoredFlag (system : e.kind = ScheduleKind.systemCleanup.name) (off : e.enabled = false) :
      EntryWarns jobs i e (.ignoredFlag i)
  | missingCommand (needs : needsCommand jobs e.kind = true) : EntryWarns jobs i e (.missingCommand i e.kind)

theorem mem_warnings_checkUser :
    f ∈ (checkUser s tokens i u).warnings ↔ ∃ x, UserWarns s i u x ∧ x.finding = f := by
  have roles : f ∈ (u.roles.map (undefinedRole s.auth (indexed "auth.users" i))).flatMap (·.warnings) ↔
      ∃ role ∈ u.roles, isDefinedRole s.auth role = false ∧ f = (Warning.undefinedRole i role).finding := by
    simp [undefinedRole, mem_warnings_warningIf, Warning.finding]
  simp only [checkUser, warnings_all, List.flatMap_append, List.mem_append, List.flatMap_cons, List.flatMap_nil,
    warnings_errorIf, List.not_mem_nil, false_or, or_false, roles, mem_warnings_warningIf]
  constructor
  · rintro (⟨role, listed, unknown, rfl⟩ | ⟨bound, rfl⟩)
    · exact ⟨_, .undefinedRole listed unknown, rfl⟩
    · exact ⟨_, .unlicensed (by simp_all) (by simp_all), rfl⟩
  · rintro ⟨_, ⟨listed, unknown⟩ | ⟨bound, community⟩, rfl⟩
    · exact .inl ⟨_, listed, unknown, rfl⟩
    · exact .inr ⟨by simp_all, rfl⟩

theorem mem_warnings_checkUsers : f ∈ (checkUsers s tokens i users).warnings ↔
    ∃ j u, users[j]? = some u ∧ ∃ x, UserWarns s (i + j) u x ∧ x.finding = f := by
  induction users generalizing tokens i with
  | nil => simp [checkUsers]
  | cons u rest ih =>
    rw [checkUsers, warnings_append, List.mem_append, mem_warnings_checkUser, ih,
      exists_place_cons (Q := fun j u => ∃ x, UserWarns s (i + j) u x ∧ x.finding = f)]
    simp only [Nat.add_zero, Nat.add_assoc, Nat.add_comm 1]

theorem mem_warnings_checkSchedule :
    f ∈ (checkSchedule jobs earlier i e).warnings ↔ ∃ x, EntryWarns jobs i e x ∧ x.finding = f := by
  simp only [checkSchedule, warnings_all, List.mem_append, List.flatMap_cons, List.flatMap_nil,
    warnings_errorIf, List.not_mem_nil, false_or, or_false, mem_warnings_warningIf]
  constructor
  · rintro (⟨off, rfl⟩ | ⟨needs, rfl⟩)
    · exact ⟨_, .ignoredFlag (by simp_all) (by simp_all), rfl⟩
    · exact ⟨_, .missingCommand needs, rfl⟩
  · rintro ⟨_, ⟨system, off⟩ | needs, rfl⟩
    · exact .inl ⟨by simp_all, rfl⟩
    · exact .inr ⟨needs, rfl⟩

theorem mem_warnings_checkSchedules : f ∈ (checkSchedules jobs earlier i entries).warnings ↔
    ∃ j e, entries[j]? = some e ∧ ∃ x, EntryWarns jobs (i + j) e x ∧ x.finding = f := by
  induction entries generalizing earlier i with
  | nil => simp [checkSchedules]
  | cons e rest ih =>
    rw [checkSchedules, warnings_append, List.mem_append, mem_warnings_checkSchedule, ih,
      exists_place_cons (Q := fun j e => ∃ x, EntryWarns jobs (i + j) e x ∧ x.finding = f)]
    simp only [Nat.add_zero, Nat.add_assoc, Nat.add_comm 1]

end Validation

namespace Settings

open Validation

variable {s : Settings} {i : Nat} {u : UserSettings} {e : ScheduleSettings} {role : String}

inductive Warns (s : Settings) : Warning → Prop where
  | unenforced (off : s.auth.enabled = false) (users : s.auth.users ≠ []) : Warns s .unenforced
  | user {i : Nat} {u : UserSettings} {x : Warning} (there : s.auth.users[i]? = some u)
      (warns : UserWarns s i u x) : Warns s x
  | entry {i : Nat} {e : ScheduleSettings} {x : Warning} (there : s.schedules[i]? = some e)
      (warns : EntryWarns s.jobs i e x) : Warns s x

theorem mem_warnings {f : Finding} : f ∈ s.fullReport.warnings ↔ ∃ x, s.Warns x ∧ x.finding = f := by
  have whole : f ∈ s.fullReport.warnings ↔
      ((s.auth.enabled = false ∧ s.auth.users ≠ []) ∧ f = Warning.unenforced.finding) ∨
        f ∈ (checkUsers s [] 0 s.auth.users).warnings ∨
          f ∈ (checkSchedules s.jobs [] 0 s.schedules).warnings := by
    simp [fullReport, validate, checkAuth, checkScheduler, checkLogging, Report.warnings_append,
      Report.warnings_all, Report.warnings_errorIf, Report.mem_warnings_warningIf, Warning.finding]
  rw [whole, mem_warnings_checkUsers, mem_warnings_checkSchedules]
  constructor
  · rintro (⟨⟨off, users⟩, rfl⟩ | ⟨i, u, there, x, warns, rfl⟩ | ⟨i, e, there, x, warns, rfl⟩)
    · exact ⟨_, .unenforced off users, rfl⟩
    · exact ⟨x, .user there (by simpa using warns), rfl⟩
    · exact ⟨x, .entry there (by simpa using warns), rfl⟩
  · rintro ⟨x, warns, rfl⟩
    cases warns with
    | unenforced off users => exact .inl ⟨⟨off, users⟩, rfl⟩
    | @user i u _ there warns => exact .inr (.inl ⟨i, u, there, x, by simpa using warns, rfl⟩)
    | @entry i e _ there warns => exact .inr (.inr ⟨i, e, there, x, by simpa using warns, rfl⟩)

theorem finding_mem_warnings {x : Warning} : x.finding ∈ s.fullReport.warnings ↔ s.Warns x := by
  rw [mem_warnings]
  constructor
  · rintro ⟨y, warns, same⟩
    exact Warning.finding_inj same ▸ warns
  · exact fun warns => ⟨x, warns, rfl⟩

theorem warns_undefinedRole (there : s.auth.users[i]? = some u) (listed : role ∈ u.roles) :
    s.Warns (.undefinedRole i role) ↔ isDefinedRole s.auth role = false := by
  constructor
  · intro warns
    cases warns with
    | user _ warns =>
      cases warns with
      | undefinedRole _ unknown => exact unknown
    | entry _ warns => cases warns
  · exact fun unknown => .user there (.undefinedRole listed unknown)

theorem warns_ignoredFlag (there : s.schedules[i]? = some e) :
    s.Warns (.ignoredFlag i) ↔ e.kind = ScheduleKind.systemCleanup.name ∧ e.enabled = false := by
  constructor
  · intro warns
    cases warns with
    | user _ warns => cases warns
    | entry there' warns =>
      cases warns with
      | ignoredFlag system off =>
        obtain rfl := Option.some.inj (there.symm.trans there')
        exact ⟨system, off⟩
  · exact fun ⟨system, off⟩ => .entry there (.ignoredFlag system off)

theorem warns_missingCommand (there : s.schedules[i]? = some e) :
    s.Warns (.missingCommand i e.kind) ↔ needsCommand s.jobs e.kind = true := by
  constructor
  · intro warns
    generalize same : Warning.missingCommand i e.kind = x at warns
    cases warns with
    | unenforced => cases same
    | user _ warns => cases warns <;> cases same
    | entry there' warns =>
      cases warns with
      | ignoredFlag => cases same
      | missingCommand needs =>
        obtain ⟨-, kind⟩ := Warning.missingCommand.inj same
        rwa [kind]
  · exact fun needs => .entry there (.missingCommand needs)

theorem isDefinedRole_iff {m : Access.Model} (loaded : Access.Model.ofSettings s.auth = .ok m) :
    isDefinedRole s.auth role = true ↔ role ∈ m.roleNames := by
  have presets : Access.Model.empty.withPresets.roleNames = builtinRoles := rfl
  rw [(Access.Model.ofSettings_eq_ok.mp loaded).2, Access.Model.mem_roleNames_declared, presets]
  simp [isDefinedRole]

theorem needsCommand_name (jobs : JobSettings) (k : ScheduleKind) :
    needsCommand jobs k.name = true ↔ k ≠ .systemCleanup ∧ jobs.command? k = none := by
  have named : ScheduleKind.ofName? k.name = some k := by cases k <;> decide
  unfold needsCommand
  rw [named]
  cases k <;> simp

structure Foretold (s : Settings) (t : DescriptorTable) (i : Nat) (e : ScheduleSettings) (d : Descriptor) :
    Prop where
  described : e.Describes d
  kind : d.kind.name = e.kind
  held : ScheduleSettings.LastOfKey s.schedules d.key e → t.get? d.key = some (DescriptorTable.forced d)
  command : d.kind ≠ .systemCleanup → ∀ starter,
    ((Warning.missingCommand i e.kind).finding ∈ s.fullReport.warnings ↔ (s.bodies starter).RunsIdle d.key)
  started : d.kind ≠ .systemCleanup → ∀ starter h starts ends answer,
    (s.bodies starter).Runs d.key h starts ends answer → starts = (invocations h).filterMap (s.process? starter)
  flag : d.kind = .systemCleanup → ((Warning.ignoredFlag i).finding ∈ s.fullReport.warnings ↔
    e.enabled = false ∧ (DescriptorTable.forced d).enabled = true)

theorem foretold (valid : s.fullReport.isValid = true) {t : DescriptorTable}
    (loaded : DescriptorTable.ofSettings s.schedules = .ok t) (there : s.schedules[i]? = some e) :
    ∃ d, s.Foretold t i e d := by
  obtain ⟨d, described, kind⟩ := fullReport_described valid (List.mem_of_getElem? there)
  refine ⟨d, described, kind, fun last => ?_, fun other starter => ?_,
    fun other starter h starts ends answer => ?_, fun system => ?_⟩
  · exact (DescriptorTable.get?_ofSettings loaded).mpr (.inl ⟨e, d, last, described, rfl⟩)
  · rw [finding_mem_warnings, warns_missingCommand there, runsIdle_iff other, ← kind, needsCommand_name]
    exact and_iff_right other
  · exact runs_start other
  · have on : (DescriptorTable.forced d).enabled = true := (DescriptorTable.enabled_forced d).mpr (.inr system)
    rw [finding_mem_warnings, warns_ignoredFlag there, ← kind, system]
    exact ⟨fun ⟨_, off⟩ => ⟨off, on⟩, fun ⟨off, _⟩ => ⟨rfl, off⟩⟩

/-- Valid settings are warned of just the roles that the model does not define and that grant nothing, of
just the entries whose runs start no process and are skipped, and of just the flags that the table of
descriptors does not follow. -/
theorem warnings_come_true (valid : s.fullReport.isValid = true) :
    ∃ m t, Access.Model.ofSettings s.auth = .ok m ∧ DescriptorTable.ofSettings s.schedules = .ok t ∧
      (∀ i u role, s.auth.users[i]? = some u → role ∈ u.roles →
        ((Warning.undefinedRole i role).finding ∈ s.fullReport.warnings ↔ role ∉ m.roleNames)) ∧
      (∀ role, role ∉ m.roleNames → ∀ roles r a e,
        m.isGranted roles r a e = m.isGranted (roles.filter (· ≠ role)) r a e) ∧
      ∀ i e, s.schedules[i]? = some e → ∃ d, s.Foretold t i e d := by
  obtain ⟨-, m, built⟩ := fullReport_valid valid
  obtain ⟨t, loaded⟩ := fullReport_table valid
  refine ⟨m, t, built, loaded, fun i u role there listed => ?_, ?_, fun i e there => foretold valid loaded there⟩
  · rw [finding_mem_warnings, warns_undefinedRole there listed, ← isDefinedRole_iff built, Bool.not_eq_true]
  · exact fun role unknown => Access.isGranted_undefined unknown

end Settings

def halfSet : Settings where
  auth := { enabled := true, users := [{ name := "alice", roles := ["viewer", "pilot"] }] }
  schedules :=
    [{ kind := "container_update", id := .numeric 1, cron := "0 4 * * *" },
     { kind := "git_stack_sync", id := .numeric 2, cron := "0 5 * * *" },
     { kind := "system_cleanup", id := .named "event_cleanup", cron := "0 2 * * *", enabled := false }]
  jobs := { containerUpdate := some { command := "true" } }

theorem halfSet_valid : halfSet.fullReport.isValid = true := by
  have logging : Validation.checkLogging halfSet.logging = {} := Validation.checkLogging_default
  rw [Settings.fullReport, Settings.validate, logging]
  decide +kernel

namespace Settings

theorem halfSet_come_true :
    halfSet.fullReport.isValid = true ∧
      (∃ m, Access.Model.ofSettings halfSet.auth = .ok m ∧ "viewer" ∈ m.roleNames ∧ "pilot" ∉ m.roleNames) ∧
      (halfSet.bodies unequipped).RunsIdle ⟨.gitStackSync, .numeric 2⟩ := by
  obtain ⟨m, t, built, -, roles, -, entries⟩ := warnings_come_true halfSet_valid
  refine ⟨halfSet_valid, ⟨m, built, ?_, ?_⟩, ?_⟩
  · have unwarned : (Warning.undefinedRole 0 "viewer").finding ∉ halfSet.fullReport.warnings := by
      rw [finding_mem_warnings, warns_undefinedRole (rfl : halfSet.auth.users[0]? = some _) (by decide)]
      decide
    exact not_not.mp fun absent => unwarned ((roles 0 _ "viewer" rfl (by decide)).mpr absent)
  · refine (roles 0 _ "pilot" rfl (by decide)).mp ?_
    rw [finding_mem_warnings, warns_undefinedRole (rfl : halfSet.auth.users[0]? = some _) (by decide)]
    decide
  · obtain ⟨d, sync⟩ := entries 1 _ rfl
    have own : ScheduleSettings.key? { kind := "git_stack_sync", id := .numeric 2, cron := "0 5 * * *" } =
        some ⟨.gitStackSync, .numeric 2⟩ := by
      decide +kernel
    have key : d.key = ⟨.gitStackSync, .numeric 2⟩ :=
      Option.some.inj ((ScheduleSettings.key?_eq_some.mpr ⟨d, sync.described, rfl⟩).symm.trans own)
    have kind : d.kind = .gitStackSync := congrArg ScheduleKey.kind key
    rw [← key]
    refine (sync.command (by simp [kind]) unequipped).mp ?_
    rw [finding_mem_warnings, warns_missingCommand (rfl : halfSet.schedules[1]? = some _)]
    decide

end Settings

end FleetOps
