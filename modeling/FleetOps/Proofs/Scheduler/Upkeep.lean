import FleetOps.Proofs.Scheduler.Toggle

set_option autoImplicit false

namespace FleetOps

inductive Upkeep where
  | upsert (d : Descriptor)
  | remove (k : ScheduleKey)
  | setFlag (k : ScheduleKey) (enabled : Bool)
  | register (k : ScheduleKey) (override : Option EnvironmentId)
  | follow (k : ScheduleKey) (d : Descriptor) (override : Option EnvironmentId)
  | unregister (k : ScheduleKey)
  | rebuild
  | toggle (k : ScheduleKey) (enabled : Bool)
  | toggleStep (t : Toggle)
  | shutdown
  | fire (token : Nat) (woken : Clock)
  | clock (clock : Clock)

def Upkeep.clock? : Upkeep → Option Clock
  | .fire _ reading | .clock reading => some reading
  | _ => none

namespace Scheduler

-- A timer that has ended, or was cancelled, does not fire.
def fire (s : Scheduler) (token : Nat) (woken : Clock) : Scheduler :=
  match s.registry.timers.find? (·.token = token) with
  | none => s
  | some t =>
    match t.timer.pending with
    | none => s
    | some f =>
      let s := { s with clock := woken, registry := s.registry.refire t f woken }
      (s.run { key := t.key, environment := t.environment, trigger := .cron }).2

def upkeep (s : Scheduler) : Upkeep → Scheduler
  | .upsert d => { s with descriptors := s.descriptors.upsert d }
  | .remove k => { s with descriptors := s.descriptors.remove k }
  | .setFlag k enabled => (s.setEnabled k enabled).2
  | .register k override => (s.register k override).2
  | .follow k d override => { s with registry := (s.registry.follow k d override s.clock).2 }
  | .unregister k => (s.unregister k).2
  | .rebuild => s.start.2
  | .toggle k enabled => (s.toggle k enabled).2
  | .toggleStep t => (s.stepToggle t).2
  | .shutdown => s.shutdown
  | .fire token woken => s.fire token woken
  | .clock clock => { s with clock }

def upkeeps (s : Scheduler) (us : List Upkeep) : Scheduler :=
  us.foldl upkeep s

section

variable (s : Scheduler) (k : ScheduleKey)

theorem register_tended (override : Option EnvironmentId) :
    s.registry.Tended s.clock (s.register k override).2.registry ∧
      (s.register k override).2.clock = s.clock := by
  have same := s.describe_same k
  unfold register
  split
  · next call =>
    rw [call] at same
    exact ⟨same.registry ▸ .same, same.clock⟩
  · next call =>
    rw [call] at same
    exact ⟨same.registry ▸ .same, same.clock⟩
  · next d s' call =>
    rw [call] at same
    dsimp only at same ⊢
    rw [← same.registry, ← same.clock]
    exact ⟨.follow s'.registry k d override s'.clock, rfl⟩

theorem registerEach_tended (ds : List Descriptor) :
    s.registry.Tended s.clock (s.registerEach ds).2.registry ∧ (s.registerEach ds).2.clock = s.clock := by
  induction ds generalizing s with
  | nil => exact ⟨.same, rfl⟩
  | cons d rest ih =>
    obtain ⟨first, clock⟩ := s.register_tended d.key d.environment
    obtain ⟨others, clock'⟩ := ih (s.register d.key d.environment).2
    rw [clock] at others clock'
    unfold registerEach
    dsimp only
    split <;> exact ⟨first.trans others, clock'⟩

theorem start_tended : s.registry.Tended s.clock s.start.2.registry ∧ s.start.2.clock = s.clock := by
  have same := s.listEnabled_same
  unfold start
  split
  · next call =>
    rw [call] at same
    exact ⟨same.registry ▸ .same, same.clock⟩
  · next ds s' call =>
    rw [call] at same
    dsimp only at same ⊢
    rw [← same.registry, ← same.clock]
    exact s'.registerEach_tended ds

theorem advanceToggle_tended (n : Nat) (t : Toggle) :
    s.registry.Tended s.clock (advanceToggle n s t).2.registry ∧ (advanceToggle n s t).2.clock = s.clock := by
  induction n generalizing s t with
  | zero => exact ⟨.same, rfl⟩
  | succ n ih =>
    obtain ⟨first, clock⟩ := (s.steps_stepToggle t).tended
    obtain ⟨others, clock'⟩ := ih (s.stepToggle t).2 (s.stepToggle t).1
    rw [clock] at others clock'
    exact ⟨first.trans others, clock'⟩

theorem toggle_tended (enabled : Bool) :
    s.registry.Tended s.clock (s.toggle k enabled).2.registry ∧ (s.toggle k enabled).2.clock = s.clock := by
  let t : Toggle := { key := k, enabled }
  exact s.advanceToggle_tended t.phase.rank t

theorem fire_tended (token : Nat) (woken : Clock) :
    s.registry.Tended woken (s.fire token woken).registry ∧
      ((s.fire token woken).clock = s.clock ∨ (s.fire token woken).clock = woken) := by
  unfold fire
  split
  · exact ⟨.same, .inl rfl⟩
  · next t found =>
    split
    · exact ⟨.same, .inl rfl⟩
    · next f due =>
      have ran := SameSchedules.of_run
        { s with clock := woken, registry := s.registry.refire t f woken }
        { key := t.key, environment := t.environment, trigger := .cron } false
      exact ⟨ran.registry ▸ .refire .same (List.mem_of_find?_eq_some found) due, .inr ran.clock⟩

theorem upkeep_tended (u : Upkeep) (on : u ≠ .shutdown) : ∃ clock,
    (clock = s.clock ∨ u.clock? = some clock) ∧ s.registry.Tended clock (s.upkeep u).registry ∧
      ((s.upkeep u).clock = s.clock ∨ u.clock? = some (s.upkeep u).clock) := by
  have here {s' : Scheduler} (tended : s.registry.Tended s.clock s'.registry ∧ s'.clock = s.clock) :
      ∃ clock, (clock = s.clock ∨ u.clock? = some clock) ∧ s.registry.Tended clock s'.registry ∧
        (s'.clock = s.clock ∨ u.clock? = some s'.clock) :=
    ⟨s.clock, .inl rfl, tended.1, .inl tended.2⟩
  cases u with
  | upsert d => exact here ⟨.same, rfl⟩
  | remove k => exact here ⟨.same, rfl⟩
  | setFlag k enabled =>
    obtain ⟨registry, clock⟩ := s.setEnabled_registry k enabled
    exact here ⟨registry.symm ▸ .same, clock⟩
  | register k override => exact here (s.register_tended k override)
  | follow k d override => exact here ⟨.follow s.registry k d override s.clock, rfl⟩
  | unregister k => exact here ⟨.disarm .same k, rfl⟩
  | rebuild => exact here s.start_tended
  | toggle k enabled => exact here (s.toggle_tended k enabled)
  | toggleStep t => exact here (s.steps_stepToggle t).tended
  | shutdown => exact absurd rfl on
  | fire token woken =>
    obtain ⟨tended, clock⟩ := s.fire_tended token woken
    exact ⟨woken, .inr rfl, tended, clock.imp id fun same => congrArg some same.symm⟩
  | clock clock => exact ⟨s.clock, .inl rfl, .same, .inr rfl⟩

end

end Scheduler

namespace Registry

/-- A key is armed while it has a timer; it has one timer at most, which is that of its entry and sleeps
by the entry's cron text: since it was started or last fired, for the next instant of its schedule. A timer
without a pending firing has ended for want of one. -/
structure InStep (r : Registry) (readings : List Clock) : Prop where
  one : ∀ k, (r.timers.filter (·.key = k)).length ≤ 1
  armed_iff : ∀ k, r.isArmed k = true ↔ ∃ t ∈ r.timers, t.key = k
  entry : ∀ t ∈ r.timers, ∀ a, r.armed? t.key = some a →
    a.token = t.token ∧ a.schedule = t.timer.schedule ∧ a.environment = t.environment ∧
      Cron.parse a.cron = .ok t.timer.schedule
  sleeps : ∀ t ∈ r.timers, ∃ after, t.timer.Looks readings after ∧
    t.timer.pending.map (·.instant) = t.timer.schedule.nextAfter after

variable {r : Registry} {readings : List Clock}

theorem Paired.inStep (paired : r.Paired) (looks : r.Looks readings) : r.InStep readings := by
  have entry {t : LiveTimer} (mem : t ∈ r.timers) : ∃ a ∈ r.armed, a.arming = t.arming :=
    List.mem_map.mp (paired.timers.mem_iff.mp (List.mem_map_of_mem mem))
  have found {a : ArmedSchedule} {k : ScheduleKey} : r.armed? k = some a ↔ a ∈ r.armed ∧ a.key = k :=
    find?_eq_some_of_nodup paired.keys
  constructor
  · intro k
    have once := List.nodup_iff_count_le_one.mp paired.nodup_keys k
    rw [List.count, List.countP_map] at once
    rw [← List.countP_eq_length_filter]
    simpa [Function.comp_def, beq_eq_decide] using once
  · intro k
    rw [isArmed, Option.isSome_iff_exists]
    simp only [found]
    constructor
    · rintro ⟨a, mem, rfl⟩
      obtain ⟨t, there, same⟩ := paired.exists_timer mem
      exact ⟨t, there, congrArg Arming.key same⟩
    · rintro ⟨t, mem, rfl⟩
      obtain ⟨a, there, same⟩ := entry mem
      exact ⟨a, there, congrArg Arming.key same⟩
  · intro t mem a own
    obtain ⟨b, there, same⟩ := entry mem
    obtain ⟨here, key⟩ := found.mp own
    obtain rfl : a = b :=
      List.inj_on_of_nodup_map paired.keys here there (key.trans (congrArg Arming.key same).symm)
    obtain ⟨token, -, environment, schedule⟩ := Arming.mk.inj same
    exact ⟨token, schedule, environment, schedule ▸ paired.readable a here⟩
  · intro t mem
    obtain ⟨after, looks⟩ := looks t mem
    exact ⟨after, looks, looks.pending⟩

end Registry

namespace Scheduler

variable {s : Scheduler}

theorem upkeep_paired (paired : s.registry.Paired) (u : Upkeep) : (s.upkeep u).registry.Paired := by
  by_cases off : u = .shutdown
  · subst off
    exact .of_bare rfl rfl
  · obtain ⟨clock, -, tended, -⟩ := s.upkeep_tended u off
    exact paired.tended tended

theorem upkeep_looks {readings : List Clock} (looks : s.registry.Looks readings) (paired : s.registry.Paired)
    (read : s.clock ∈ readings) {u : Upkeep} (reads : ∀ clock, u.clock? = some clock → clock ∈ readings) :
    (s.upkeep u).registry.Looks readings ∧ (s.upkeep u).clock ∈ readings := by
  have among {clock : Clock} (known : clock = s.clock ∨ u.clock? = some clock) : clock ∈ readings :=
    known.elim (fun same => same ▸ read) (reads clock)
  by_cases off : u = .shutdown
  · subst off
    exact ⟨fun t mem => absurd mem List.not_mem_nil, read⟩
  · obtain ⟨clock, known, tended, after⟩ := s.upkeep_tended u off
    exact ⟨looks.tended paired (among known) tended, among after⟩

def readings (s : Scheduler) (us : List Upkeep) : List Clock :=
  s.clock :: us.filterMap (·.clock?)

theorem upkeeps_inStep {readings : List Clock} (paired : s.registry.Paired)
    (looks : s.registry.Looks readings) (read : s.clock ∈ readings) {us : List Upkeep}
    (reads : ∀ u ∈ us, ∀ clock, u.clock? = some clock → clock ∈ readings) :
    (s.upkeeps us).registry.InStep readings := by
  induction us generalizing s with
  | nil => exact paired.inStep looks
  | cons u rest ih =>
    obtain ⟨first, reads⟩ := List.forall_mem_cons.mp reads
    obtain ⟨looks, read⟩ := upkeep_looks looks paired read first
    exact ih (upkeep_paired paired u) looks read reads

theorem upkeep_closed (closed : s.registry.Closed) (u : Upkeep) : (s.upkeep u).registry.Closed := by
  by_cases off : u = .shutdown
  · subst off
    exact s.registry.closed_shutdown
  · obtain ⟨clock, -, tended, -⟩ := s.upkeep_tended u off
    exact closed.tended tended

theorem upkeeps_closed (us : List Upkeep) (closed : s.registry.Closed ∨ .shutdown ∈ us) :
    (s.upkeeps us).registry.Closed := by
  induction us generalizing s with
  | nil => exact closed.resolve_right List.not_mem_nil
  | cons u rest ih =>
    refine ih ?_
    obtain closed | mem := closed
    · exact .inl (upkeep_closed closed u)
    · rcases List.mem_cons.mp mem with rfl | later
      · exact .inl s.registry.closed_shutdown
      · exact .inr later

theorem timers_in_step (s : Scheduler) (us : List Upkeep) :
    ({ s with registry := .empty }.upkeeps us).registry.InStep (s.readings us) ∧
      (.shutdown ∈ us → ({ s with registry := .empty }.upkeeps us).registry.Closed) := by
  refine ⟨?_, fun down => upkeeps_closed us (.inr down)⟩
  refine upkeeps_inStep .empty (fun t mem => absurd mem List.not_mem_nil) List.mem_cons_self ?_
  exact fun u mem clock own => List.mem_cons_of_mem _ (List.mem_filterMap.mpr ⟨u, mem, own⟩)

end Scheduler

end FleetOps
