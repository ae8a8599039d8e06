import FleetOps.Proofs.Schedule.Table

set_option autoImplicit false

namespace FleetOps

structure ScheduleSettings.Describes (e : ScheduleSettings) (d : Descriptor) : Prop where
  kind : ScheduleKind.parse e.kind = .ok d.kind
  id : Descriptor.idOfSettings e.id = .ok d.id
  job : d.kind = .systemCleanup → ∃ j : SystemJob, j.key = d.key
  readable : ∃ schedule, Cron.parse e.cron = .ok schedule
  rest : d = { kind := d.kind, id := d.id, environment := Descriptor.environmentOf d.kind d.id e.environment,
               cron := e.cron, enabled := e.enabled, name := e.name }

theorem SystemJob.ofId?_eq_some {id : ScheduleId} {j : SystemJob} :
    SystemJob.ofId? id = some j ↔ j.key = ⟨.systemCleanup, id⟩ := by
  cases id with
  | numeric n => simp [ofId?, key]
  | named name =>
    have once : (all.map SystemJob.name).Nodup := by decide
    have every : j ∈ all := by cases j <;> decide
    simp [ofId?, ofName?, find?_eq_some_of_nodup once, every, key]

namespace Descriptor

variable {e : ScheduleSettings} {d : Descriptor}

theorem ofSettings_eq_ok : ofSettings e = .ok d ↔ e.Describes d := by
  unfold ofSettings
  constructor
  · intro built
    obtain ⟨k, kind, built⟩ := bind_eq_ok.mp built
    obtain ⟨i, id, built⟩ := bind_eq_ok.mp built
    by_cases stray : k = .systemCleanup ∧ SystemJob.ofId? i = none
    · rw [if_pos stray] at built
      cases built
    · rw [if_neg stray] at built
      obtain ⟨schedule, reads, built⟩ := bind_eq_ok.mp built
      obtain rfl := Except.ok.inj built
      refine ⟨kind, id, fun system => ?_, ⟨schedule, reads⟩, rfl⟩
      obtain ⟨j, named⟩ := Option.ne_none_iff_exists'.mp fun unknown => stray ⟨system, unknown⟩
      exact ⟨j, (SystemJob.ofId?_eq_some.mp named).trans (by rw [key, ← system])⟩
  · intro described
    obtain ⟨schedule, reads⟩ := described.readable
    have known : ¬ (d.kind = .systemCleanup ∧ SystemJob.ofId? d.id = none) := by
      rintro ⟨system, unknown⟩
      obtain ⟨j, own⟩ := described.job system
      rw [SystemJob.ofId?_eq_some.mpr (own.trans (by rw [key, system]))] at unknown
      cases unknown
    simp only [described.kind, described.id, known, reads, bind, Except.bind, pure, Except.pure, if_false]
    exact congrArg _ described.rest.symm

end Descriptor

namespace ScheduleSettings

def descriptor? (e : ScheduleSettings) : Option Descriptor :=
  (Descriptor.ofSettings e).toOption

def key? (e : ScheduleSettings) : Option ScheduleKey :=
  e.descriptor?.map (·.key)

variable {e : ScheduleSettings} {d : Descriptor} {k : ScheduleKey}

theorem descriptor?_eq_some : e.descriptor? = some d ↔ e.Describes d := by
  rw [← Descriptor.ofSettings_eq_ok, descriptor?]
  cases Descriptor.ofSettings e <;> simp [Except.toOption]

theorem key?_eq_some : e.key? = some k ↔ ∃ d, e.Describes d ∧ d.key = k := by
  simp only [key?, Option.map_eq_some_iff, descriptor?_eq_some]

def LastOfKey (entries : List ScheduleSettings) (k : ScheduleKey) (e : ScheduleSettings) : Prop :=
  ∃ before after, entries = before ++ e :: after ∧ e.key? = some k ∧ ∀ f ∈ after, f.key? ≠ some k

theorem LastOfKey.key?_eq {entries : List ScheduleSettings} (last : LastOfKey entries k e) :
    e.key? = some k := by
  obtain ⟨_, _, -, own, -⟩ := last
  exact own

theorem LastOfKey.mem {entries : List ScheduleSettings} (last : LastOfKey entries k e) : e ∈ entries := by
  obtain ⟨_, _, rfl, -⟩ := last
  simp

theorem lastOfKey_iff {entries : List ScheduleSettings} :
    entries.reverse.find? (·.key? = some k) = some e ↔ LastOfKey entries k e := by
  rw [find?_reverse_eq_some, decide_eq_true_eq]
  constructor
  · rintro ⟨own, before, after, split, others⟩
    exact ⟨before, after, split, own, fun f mem => of_decide_eq_false (others f mem)⟩
  · rintro ⟨before, after, split, own, others⟩
    exact ⟨own, before, after, split, fun f mem => decide_eq_false (others f mem)⟩

theorem LastOfKey.unique {entries : List ScheduleSettings} {f : ScheduleSettings} (last : LastOfKey entries k e)
    (last' : LastOfKey entries k f) : e = f :=
  Option.some.inj ((lastOfKey_iff.mpr last).symm.trans (lastOfKey_iff.mpr last'))

end ScheduleSettings

namespace DescriptorTable

open ScheduleSettings

variable {entries : List ScheduleSettings} {t : DescriptorTable} {d : Descriptor} {k : ScheduleKey}

theorem key_forced (d : Descriptor) : (forced d).key = d.key := by
  unfold forced
  split <;> rfl

theorem cron_forced (d : Descriptor) : (forced d).cron = d.cron := by
  unfold forced
  split <;> rfl

theorem environment_forced (d : Descriptor) : (forced d).environment = d.environment := by
  unfold forced
  split <;> rfl

theorem enabled_forced (d : Descriptor) :
    (forced d).enabled = true ↔ d.enabled = true ∨ d.kind = .systemCleanup := by
  unfold forced
  cases kind : d.kind <;> simp [ScheduleKind.canDisable]

theorem ofSettings_eq_ok : ofSettings entries = .ok t ↔
    (∀ e ∈ entries, ∃ d, Descriptor.ofSettings e = .ok d) ∧
      t = ((entries.filterMap descriptor?).map forced).foldl upsert systemJobs := by
  unfold ofSettings
  simp only [bind_eq_ok, mapM_eq_ok]
  constructor
  · rintro ⟨_, ⟨all, rfl⟩, built⟩
    exact ⟨all, (Except.ok.inj built).symm⟩
  · rintro ⟨all, rfl⟩
    exact ⟨_, ⟨all, rfl⟩, rfl⟩

theorem exists_of_ofSettings_eq_error {x : SchedulerError} (failed : ofSettings entries = .error x) :
    ∃ e ∈ entries, Descriptor.ofSettings e = .error x := by
  unfold ofSettings at failed
  obtain reads | ⟨ds, -, failed⟩ := bind_eq_error.mp failed
  · exact exists_of_mapM_eq_error reads
  · cases failed

theorem sorted_ofSettings (loaded : ofSettings entries = .ok t) : t.Sorted := by
  rw [(ofSettings_eq_ok.mp loaded).2]
  exact sorted_systemJobs.upserts _

theorem find?_forced (k : ScheduleKey) :
    ((entries.filterMap descriptor?).map forced).reverse.find? (·.key = k) =
      ((entries.reverse.find? (·.key? = some k)).bind descriptor?).map forced := by
  have keyed (d? : Option Descriptor) :
      (d?.any fun d => decide ((forced d).key = k)) = decide (d?.map (·.key) = some k) := by
    cases d? <;> simp [key_forced]
  rw [← List.map_reverse, ← List.filterMap_reverse, List.find?_map, List.find?_filterMap]
  congr 3
  funext e
  exact keyed e.descriptor?

/-- A key has the descriptor of its last entry; without an entry, that of its system job. -/
theorem get?_ofSettings (loaded : ofSettings entries = .ok t) : t.get? k = some d ↔
    (∃ e d', LastOfKey entries k e ∧ e.Describes d' ∧ d = forced d') ∨
      (∀ e ∈ entries, e.key? ≠ some k) ∧ ∃ j : SystemJob, j.key = k ∧ d = .ofSystemJob j := by
  rw [(ofSettings_eq_ok.mp loaded).2, get?_upserts sorted_systemJobs, find?_forced]
  cases last : entries.reverse.find? (·.key? = some k) with
  | none =>
    have absent : ∀ e ∈ entries, e.key? ≠ some k := by
      simpa using List.find?_eq_none.mp last
    have unset (e : ScheduleSettings) : ¬ LastOfKey entries k e := fun there => by
      simp [lastOfKey_iff.mpr there] at last
    simp only [Option.bind_none, Option.map_none, Option.none_or, get?_systemJobs, unset, false_and,
      exists_false, false_or, and_iff_right absent]
  | some e =>
    have here := lastOfKey_iff.mp last
    obtain ⟨d', described, key⟩ := key?_eq_some.mp here.key?_eq
    have set : ¬ ∀ e ∈ entries, e.key? ≠ some k := fun absent =>
      absent e (List.mem_reverse.mp (List.mem_of_find?_eq_some last)) here.key?_eq
    simp only [Option.bind_some, descriptor?_eq_some.mpr described, Option.map_some, Option.some_or, set,
      false_and, or_false, Option.some.injEq]
    constructor
    · rintro rfl
      exact ⟨e, d', here, described, rfl⟩
    · rintro ⟨f, d'', there, described', rfl⟩
      obtain rfl : e = f := here.unique there
      obtain rfl : d' = d'' :=
        Option.some.inj ((descriptor?_eq_some.mpr described).symm.trans (descriptor?_eq_some.mpr described'))
      rfl

end DescriptorTable

end FleetOps
