import FleetOps.Proofs.Schedule.Id
import FleetOps.Proofs.Settings.Startup

set_option autoImplicit false

namespace FleetOps

namespace ScheduleId

def bare (id : ScheduleId) : String :=
  Text.trim id.text

/-- Ids that are read as one: between blanks they are the same text, or digits of the same number. -/
def Alike (a b : ScheduleId) : Prop :=
  a.bare = b.bare ∨ isNumber a.bare = true ∧ isNumber b.bare = true ∧
    Text.digitsValue a.bare.toList = Text.digitsValue b.bare.toList
deriving Decidable

theorem bare_numeric (n : Nat) : (numeric n).bare = String.ofList (Nat.toDigits 10 n) := by
  have visible : ∀ c ∈ Nat.toDigits 10 n, Text.isBlank c = false := fun c mem =>
    Text.isBlank_digit (Text.isDigit_toDigits mem)
  rw [bare, Text.trim, toList_text_numeric, Text.trimChars_eq_self visible]

theorem idOfSettings_eq {a a' : ScheduleId} (read : Descriptor.idOfSettings a = .ok a') :
    a' = if isNumber a.bare then .numeric (Text.digitsValue a.bare.toList) else .named a.bare := by
  cases a with
  | numeric n =>
    obtain rfl := Except.ok.inj read
    have number : isNumber (numeric n).bare = true := by
      rw [isNumber_iff, bare_numeric]
      exact ⟨by simp, by simpa using fun c => Text.isDigit_toDigits⟩
    rw [if_pos number, bare_numeric, String.toList_ofList, Text.digitsValue_toDigits]
  | named t =>
    have cut : (named t).bare = Text.trim t := rfl
    have parsed : parse t = .ok a' := read
    rw [cut]
    rcases parse?_eq_some.mp (parse_eq_ok.mp parsed) with ⟨n, rfl, spells⟩ | ⟨rfl, spells⟩
    · rw [if_pos (spellsNumber_iff.mp spells).1, spells.value]
    · rw [if_neg (by simp [(spellsName_iff.mp spells).1])]

theorem alike_iff {a b a' b' : ScheduleId} (reads : Descriptor.idOfSettings a = .ok a')
    (reads' : Descriptor.idOfSettings b = .ok b') : a.Alike b ↔ a' = b' := by
  rw [idOfSettings_eq reads, idOfSettings_eq reads', Alike]
  by_cases number : isNumber a.bare = true <;> by_cases number' : isNumber b.bare = true
  · have same (equal : a.bare = b.bare) : Text.digitsValue a.bare.toList = Text.digitsValue b.bare.toList :=
      congrArg _ (congrArg _ equal)
    simp only [number, number', if_true, numeric.injEq, true_and]
    exact ⟨fun alike => alike.elim same id, .inr⟩
  · have other : a.bare ≠ b.bare := fun equal => number' (equal ▸ number)
    simp [number, number', other]
  · have other : a.bare ≠ b.bare := fun equal => number (equal ▸ number')
    simp [number, number', other]
  · simp [number, number']

end ScheduleId

namespace Validation

open Report

variable {jobs : JobSettings} {earlier : List (String × String)} {i : Nat} {e : ScheduleSettings}
  {entries : List ScheduleSettings}

def written (e : ScheduleSettings) : String × String :=
  (e.kind, e.id.text)

def WellFormed (e : ScheduleSettings) : Prop :=
  e.kind ∈ kindNames ∧ 5 ≤ (Text.fields e.cron).length ∧ (Text.fields e.cron).length ≤ 7

theorem checkSchedule_errors :
    (checkSchedule jobs earlier i e).errors = [] ↔ WellFormed e ∧ written e ∉ earlier := by
  simp [checkSchedule, errors_all, errors_errorIf, errors_warningIf, WellFormed, written, and_assoc]

theorem checkSchedules_errors : (checkSchedules jobs earlier i entries).errors = [] ↔
    (∀ e ∈ entries, WellFormed e) ∧ (entries.map written).Nodup ∧
      ∀ w ∈ entries.map written, w ∉ earlier := by
  induction entries generalizing earlier i with
  | nil => simp [checkSchedules]
  | cons e rest ih =>
    simp only [checkSchedules, errors_append, List.append_eq_nil_iff, checkSchedule_errors, ih,
      List.map_cons, List.nodup_cons, List.forall_mem_cons, List.mem_append, List.mem_singleton]
    change (WellFormed e ∧ written e ∉ earlier) ∧ (∀ e ∈ rest, WellFormed e) ∧
      (rest.map written).Nodup ∧ (∀ w ∈ rest.map written, ¬ (w ∈ earlier ∨ w = written e)) ↔ _
    grind

end Validation

theorem ScheduleKind.parse_name {name : String} (known : name ∈ Validation.kindNames) :
    ∃ k : ScheduleKind, k.name = name ∧ ScheduleKind.parse name = .ok k := by
  obtain ⟨k, -, rfl⟩ := List.mem_map.mp known
  exact ⟨k, rfl, by cases k <;> decide +kernel⟩

namespace Settings

open Validation

variable {s : Settings}

theorem fullReport_schedules (valid : s.fullReport.isValid = true) :
    (∀ e ∈ s.schedules, WellFormed e) ∧ (s.schedules.map written).Nodup := by
  rw [Report.isValid_iff, fullReport, Report.errors_append, List.append_eq_nil_iff] at valid
  simp only [validate, Report.errors_all, List.flatMap_cons, List.append_eq_nil_iff] at valid
  obtain ⟨wellFormed, once, -⟩ := checkSchedules_errors.mp valid.1.2.2.1
  exact ⟨wellFormed, once⟩

theorem fullReport_described (valid : s.fullReport.isValid = true) {e : ScheduleSettings}
    (listed : e ∈ s.schedules) : ∃ d, e.Describes d ∧ d.kind.name = e.kind := by
  obtain ⟨d, built⟩ := fullReport_entries valid e listed
  have described := Descriptor.ofSettings_eq_ok.mp built
  obtain ⟨k, name, parsed⟩ := ScheduleKind.parse_name ((fullReport_schedules valid).1 e listed).1
  obtain rfl := Except.ok.inj (parsed.symm.trans described.kind)
  exact ⟨d, described, name⟩

theorem key?_ne_iff (valid : s.fullReport.isValid = true) {e f : ScheduleSettings}
    (here : e ∈ s.schedules) (there : f ∈ s.schedules) :
    e.key? ≠ f.key? ↔ (e.kind = f.kind → ¬ e.id.Alike f.id) := by
  obtain ⟨d, described, name⟩ := fullReport_described valid here
  obtain ⟨d', described', name'⟩ := fullReport_described valid there
  have kinds : d.kind = d'.kind ↔ e.kind = f.kind := by rw [← name, ← name', ScheduleKind.name_inj]
  rw [ScheduleSettings.key?_eq_some.mpr ⟨d, described, rfl⟩,
    ScheduleSettings.key?_eq_some.mpr ⟨d', described', rfl⟩, ScheduleId.alike_iff described.id described'.id,
    ← kinds]
  simp [Descriptor.key]

/-- Entries of valid settings have keys of their own just if no two of a kind have ids that are read as
one. Then the table has the descriptor of each. -/
theorem entries_kept (valid : s.fullReport.isValid = true) :
    (s.schedules.map written).Nodup ∧
      ((s.schedules.map (·.key?)).Nodup ↔
        s.schedules.Pairwise fun e f => e.kind = f.kind → ¬ e.id.Alike f.id) ∧
      ∃ t, DescriptorTable.ofSettings s.schedules = .ok t ∧
        ((s.schedules.map (·.key?)).Nodup → ∀ e ∈ s.schedules,
          ∃ d, e.Describes d ∧ t.get? d.key = some (DescriptorTable.forced d)) := by
  obtain ⟨t, loaded⟩ := fullReport_table valid
  refine ⟨(fullReport_schedules valid).2, ?_, t, loaded, fun once e mem => ?_⟩
  · rw [List.Nodup, List.pairwise_map]
    exact List.Pairwise.iff_of_mem fun here there => key?_ne_iff valid here there
  · obtain ⟨d, built⟩ := fullReport_entries valid e mem
    have described := Descriptor.ofSettings_eq_ok.mp built
    have own := ScheduleSettings.key?_eq_some.mpr ⟨d, described, rfl⟩
    obtain ⟨before, after, split⟩ := List.append_of_mem mem
    refine ⟨d, described, (DescriptorTable.get?_ofSettings loaded).mpr
      (.inl ⟨e, d, ⟨before, after, split, own, fun f later same => ?_⟩, described, rfl⟩)⟩
    rw [split, List.map_append, List.map_cons, List.nodup_append, List.nodup_cons] at once
    exact once.2.1.1 (List.mem_map.mpr ⟨f, later, same.trans own.symm⟩)

theorem nightly_kept :
    nightly.fullReport.isValid = true ∧ (nightly.schedules.map (·.key?)).Nodup ∧
      ∃ t, DescriptorTable.ofSettings nightly.schedules = .ok t ∧ ∀ e ∈ nightly.schedules,
        ∃ d, e.Describes d ∧ t.get? d.key = some (DescriptorTable.forced d) := by
  obtain ⟨-, apart, t, loaded, kept⟩ := entries_kept nightly_valid
  have once := apart.mpr (by decide +kernel)
  exact ⟨nightly_valid, once, t, loaded, kept once⟩

end Settings

def twins : Settings where
  schedules :=
    [{ kind := "container_update", id := .named "5", cron := "0 4 * * *" },
     { kind := "container_update", id := .named "05", cron := "0 5 * * *" }]
  jobs := { containerUpdate := some { command := "true" } }

theorem twins_collide :
    twins.fullReport.isValid = true ∧ ¬ (twins.schedules.map (·.key?)).Nodup ∧
      ∃ t, DescriptorTable.ofSettings twins.schedules = .ok t ∧ t.entries.length = 4 ∧
        ∀ d ∈ t.entries, d.cron ≠ "0 4 * * *" := by
  have logging : Validation.checkLogging twins.logging = {} := Validation.checkLogging_default
  let second : Descriptor := { kind := .containerUpdate, id := .numeric 5, cron := "0 5 * * *" }
  have loaded : DescriptorTable.ofSettings twins.schedules =
      .ok ⟨second :: DescriptorTable.systemJobs.entries⟩ := by
    decide +kernel
  refine ⟨?_, by decide +kernel, _, loaded, by decide +kernel, by decide +kernel⟩
  rw [Settings.fullReport, Settings.validate, logging]
  decide +kernel

end FleetOps
