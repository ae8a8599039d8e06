import FleetOps.Proofs.Scheduler.Refusals

set_option autoImplicit false

namespace FleetOps

def DescriptorTable.flag (t : DescriptorTable) (k : ScheduleKey) : Bool :=
  (t.get? k).any (·.enabled)

theorem DescriptorTable.flag_known {t : DescriptorTable} {k : ScheduleKey} {d : Descriptor}
    (known : t.get? k = some d) : t.flag k = d.enabled := by
  simp [flag, known]

theorem DescriptorTable.get?_setEnabled_self {t : DescriptorTable} {k : ScheduleKey} {d : Descriptor}
    (known : t.get? k = some d) (enabled : Bool) :
    (t.setEnabled k enabled).get? k = some { d with enabled } := by
  simp [get?_setEnabled, known]

def Registry.FiresBy (r : Registry) (k : ScheduleKey) (d : Descriptor) (clock : Clock) : Prop :=
  ∀ a, r.armed? k = some a → a.cron = d.cron ∧ a.environment = d.environment ∧
    Cron.parse d.cron = .ok a.schedule ∧
    ⟨a.token, k, d.environment, Timer.start Cron.Schedule.nextAfter a.schedule clock⟩ ∈ r.timers

theorem Registry.firesBy_arm (r : Registry) {k : ScheduleKey} {d : Descriptor} {schedule : Cron.Schedule}
    (reads : Cron.parse d.cron = .ok schedule) (clock : Clock) :
    (r.arm k d.cron schedule d.environment clock).FiresBy k d clock := by
  intro a found
  rw [armed?_arm, if_pos rfl] at found
  obtain rfl := Option.some.inj found
  exact ⟨rfl, rfl, reads, by simp [arm]⟩

namespace Scheduler

/-- What a toggle leaves of one scheduler in another, and how its answer goes with that. A lookup that
fails is answered as if there were no descriptor. -/
structure Switched (s : Scheduler) (k : ScheduleKey) (enabled : Bool) (result : ToggleResult)
    (s' : Scheduler) : Prop where
  told : s.faults.due .descriptorGet = false → result.enabled = s'.descriptors.flag k
  achieved : result.success = true → ∃ d, s'.descriptors.get? k = some d ∧ d.enabled = enabled ∧
    (s.registry.isShutDown = false →
      (s'.registry.isArmed k = true ↔ enabled = true) ∧ s'.registry.FiresBy k d s.clock)
  refused : result.success = false → s'.registry = s.registry
  fields : ∃ flag, s'.descriptors.get? k = (s.descriptors.get? k).map ({ · with enabled := flag })
  descriptors : ∀ l ≠ k, s'.descriptors.get? l = s.descriptors.get? l
  armed : ∀ l ≠ k, s'.registry.armed? l = s.registry.armed? l
  timers : s.registry.Paired → ∀ l ≠ k,
    s'.registry.timers.filter (·.key = l) = s.registry.timers.filter (·.key = l)

namespace Switched

variable {s s' : Scheduler} {k : ScheduleKey} {enabled : Bool} {result : ToggleResult} {d : Descriptor}

theorem unchanged (failed : result.success = false) (registry : s'.registry = s.registry)
    (descriptors : s'.descriptors = s.descriptors)
    (told : s.faults.due .descriptorGet = false → result.enabled = s.descriptors.flag k) :
    s.Switched k enabled result s' where
  told passes := descriptors ▸ told passes
  achieved done := absurd done (by simp [failed])
  refused _ := registry
  fields := by
    refine ⟨s.descriptors.flag k, ?_⟩
    rw [descriptors, DescriptorTable.flag]
    cases s.descriptors.get? k <;> rfl
  descriptors _ _ := by rw [descriptors]
  armed _ _ := by rw [registry]
  timers _ _ _ := by rw [registry]

theorem written (known : s.descriptors.get? k = some d)
    (descriptors : s'.descriptors = s.descriptors.setEnabled k enabled) (same : result.enabled = enabled)
    (achieved : result.success = true → s.registry.isShutDown = false →
      (s'.registry.isArmed k = true ↔ enabled = true) ∧ s'.registry.FiresBy k { d with enabled } s.clock)
    (refused : result.success = false → s'.registry = s.registry)
    (armed : ∀ l ≠ k, s'.registry.armed? l = s.registry.armed? l)
    (timers : s.registry.Paired → ∀ l ≠ k,
      s'.registry.timers.filter (·.key = l) = s.registry.timers.filter (·.key = l)) :
    s.Switched k enabled result s' := by
  have own := DescriptorTable.get?_setEnabled_self known enabled
  refine ⟨fun _ => ?_, fun done => ?_, refused, ⟨enabled, ?_⟩, fun l other => ?_, armed, timers⟩
  · rw [same, descriptors, DescriptorTable.flag_known own]
  · exact ⟨_, descriptors ▸ own, rfl, achieved done⟩
  · rw [descriptors, own, known]
    rfl
  · rw [descriptors, DescriptorTable.get?_setEnabled]
    simp [other]

end Switched

structure Wrote (s : Scheduler) (k : ScheduleKey) (enabled : Bool) (s' : Scheduler) : Prop where
  registry : s'.registry = s.registry
  clock : s'.clock = s.clock
  descriptors : s'.descriptors = s.descriptors.setEnabled k enabled
  known : ∃ d, s.descriptors.get? k = some d

namespace Wrote

variable {s s' s'' : Scheduler} {k : ScheduleKey} {enabled : Bool}

theorem same (wrote : s.Wrote k enabled s') (same : s'.SameSchedules s'') : s.Wrote k enabled s'' :=
  ⟨same.registry.trans wrote.registry, same.clock.trans wrote.clock,
    same.descriptors.trans wrote.descriptors, wrote.known⟩

theorem refused (wrote : s.Wrote k true s') (e : SchedulerError) :
    s.Switched k true (.rejected true e) s' := by
  obtain ⟨d, known⟩ := wrote.known
  refine .written known wrote.descriptors rfl nofun (fun _ => wrote.registry) ?_ ?_
  · exact fun l _ => by rw [wrote.registry]
  · exact fun _ l _ => by rw [wrote.registry]

theorem forgotten (wrote : s.Wrote k false s') :
    s.Switched k false { success := true, enabled := false }
      { s' with registry := s'.registry.disarm k } := by
  obtain ⟨d, known⟩ := wrote.known
  rw [wrote.registry]
  have unarmed : (s.registry.disarm k).armed? k = none := by simp [Registry.armed?_disarm]
  refine .written known wrote.descriptors rfl (fun _ _ => ⟨?_, ?_⟩) nofun ?_ ?_
  · simp [Registry.isArmed_disarm]
  · exact fun a found => by simp [unarmed] at found
  · exact fun l other => by simp [Registry.armed?_disarm, other]
  · exact fun paired l other => paired.timers_disarm other

theorem followed {d : Descriptor} {answer : Except SchedulerError Bool} {r : Registry}
    (wrote : s.Wrote k true s') (read : s'.descriptors.get? k = some d)
    (follows : s'.registry.Follows k d none s'.clock answer r) :
    s.Switched k true
      (match answer with
        | .error e => .rejected true e
        | .ok _ => { success := true, enabled := true })
      { s' with registry := r } := by
  obtain ⟨d₀, known⟩ := wrote.known
  obtain rfl : { d₀ with enabled := true } = d := by
    rw [wrote.descriptors, DescriptorTable.get?_setEnabled_self known] at read
    exact Option.some.inj read
  rw [wrote.registry, wrote.clock] at follows
  cases follows with
  | disabled off => cases off
  | unreadable =>
    have kept : s.Wrote k true { s' with registry := s.registry } :=
      ⟨rfl, wrote.clock, wrote.descriptors, wrote.known⟩
    exact kept.refused _
  | late _ _ down =>
    refine .written known wrote.descriptors rfl (fun _ up => ?_) nofun (fun _ _ => rfl) fun _ _ _ => rfl
    simp [down] at up
  | armed _ reads =>
    refine .written known wrote.descriptors rfl (fun _ _ => ⟨?_, ?_⟩) nofun ?_ ?_
    · simp [Registry.isArmed_arm]
    · exact s.registry.firesBy_arm reads s.clock
    · exact fun l other => by simp [Registry.armed?_arm, other]
    · exact fun paired l other => paired.timers_arm other

end Wrote

end Scheduler

namespace Toggle

open Scheduler

variable {s s' s'' : Scheduler} {t t' : Toggle}

def Stands (s : Scheduler) (t : Toggle) (s' : Scheduler) : Prop :=
  match t.phase with
  | .asked => s' = s
  | .known current =>
    s.SameSchedules s' ∧ ∃ d, s.descriptors.get? t.key = some d ∧ d.enabled = current
  | .written => s.Wrote t.key t.enabled s'
  | .reread d => s.Wrote t.key t.enabled s' ∧ t.enabled = true ∧ s'.descriptors.get? t.key = some d
  | .answered result => s.Switched t.key t.enabled result s'

theorem Stands.rejectedAs {flag : Bool} {e : SchedulerError}
    (switched : s.Switched t.key t.enabled (.rejected flag e) s') : Stands s (t.rejectedAs flag e) s' :=
  switched

theorem Stands.done (switched : s.Switched t.key t.enabled { success := true, enabled := t.enabled } s') :
    Stands s t.done s' :=
  switched

theorem Stands.steps (stands : Stands s t s') (steps : s'.ToggleSteps t t' s'') : Stands s t' s'' := by
  have described := s'.describe_same t.key
  have set := s'.setEnabled_registry t.key t.enabled
  cases steps with
  | unread here call =>
    simp only [Stands, here] at stands
    subst stands
    rw [call] at described
    refine .rejectedAs (.unchanged rfl described.registry described.descriptors fun passes => ?_)
    simp [describe, attempt, passes] at call
  | unknown here call =>
    simp only [Stands, here] at stands
    subst stands
    rw [call] at described
    refine .rejectedAs (.unchanged rfl described.registry described.descriptors fun _ => ?_)
    rw [DescriptorTable.flag, ← describe_ok call]
    rfl
  | fixed here call =>
    simp only [Stands, here] at stands
    subst stands
    rw [call] at described
    refine .rejectedAs (.unchanged rfl described.registry described.descriptors fun _ => ?_)
    exact (DescriptorTable.flag_known (describe_ok call).symm).symm
  | found here call =>
    simp only [Stands, here] at stands
    subst stands
    rw [call] at described
    exact ⟨described, _, (describe_ok call).symm, rfl⟩
  | unset here call | vanished here call =>
    simp only [Stands, here] at stands
    obtain ⟨same, d, known, rfl⟩ := stands
    have kept := setEnabled_descriptors (same.descriptors ▸ known) t.enabled
    rw [call] at set kept
    refine .rejectedAs (.unchanged rfl (set.1.trans same.registry) (kept.trans same.descriptors)
      fun _ => ?_)
    exact (DescriptorTable.flag_known known).symm
  | set here call =>
    simp only [Stands, here] at stands
    obtain ⟨same, d, known, -⟩ := stands
    have written := setEnabled_descriptors (same.descriptors ▸ known) t.enabled
    rw [call] at set written
    rw [same.descriptors] at written
    exact ⟨set.1.trans same.registry, set.2.trans same.clock, written, d, known⟩
  | lost here on call | gone here on call =>
    simp only [Stands, here] at stands
    rw [call] at described
    refine .rejectedAs ?_
    rw [on] at stands ⊢
    exact (stands.same described).refused _
  | reread here on call =>
    simp only [Stands, here] at stands
    rw [call] at described
    refine ⟨stands.same described, on, ?_⟩
    rw [described.descriptors]
    exact (describe_ok call).symm
  | forget here off =>
    simp only [Stands, here] at stands
    refine .done ?_
    rw [off] at stands ⊢
    exact stands.forgotten
  | @refused d _ _ here call =>
    simp only [Stands, here] at stands
    obtain ⟨wrote, on, read⟩ := stands
    have follows := s'.registry.follows_follow t.key d none s'.clock
    rw [call] at follows
    refine .rejectedAs ?_
    rw [on] at wrote ⊢
    exact wrote.followed read follows
  | @followed d _ _ here call =>
    simp only [Stands, here] at stands
    obtain ⟨wrote, on, read⟩ := stands
    have follows := s'.registry.follows_follow t.key d none s'.clock
    rw [call] at follows
    refine .done ?_
    rw [on] at wrote ⊢
    exact wrote.followed read follows
  | rest here => exact stands

theorem Stands.advance (stands : Stands s t s') (n : Nat) :
    Stands s (advanceToggle n s' t).1 (advanceToggle n s' t).2 := by
  induction n generalizing s' t with
  | zero => exact stands
  | succ n ih => exact ih (stands.steps (s'.steps_stepToggle t))

end Toggle

namespace Scheduler

/-- A toggle leaves the flag and the timer of its schedule as it answers, and all else as it was. -/
theorem toggle_switched (s : Scheduler) (k : ScheduleKey) (enabled : Bool) :
    s.Switched k enabled (s.toggle k enabled).1 (s.toggle k enabled).2 := by
  let t : Toggle := { key := k, enabled }
  have stands : Toggle.Stands s (advanceToggle t.phase.rank s t).1 (s.toggle k enabled).2 :=
    Toggle.Stands.advance (t := t) rfl t.phase.rank
  obtain ⟨result, answered⟩ := advanceToggle_answered t.phase.rank s t le_rfl
  have answer : (s.toggle k enabled).1 = result := by
    change (advanceToggle t.phase.rank s t).1.answer = result
    simp only [Toggle.answer, answered]
  have same := advanceToggle_same t.phase.rank s t
  simp only [Toggle.Stands, answered, same] at stands
  rwa [answer]

def parked : Scheduler where
  clock := { now := ⟨0, 0⟩ }
  store := .memory .empty
  descriptors := .ofList
    [{ kind := .containerUpdate, id := .numeric 1, cron := "0 4 * * *", environment := some 3,
       enabled := false },
     { kind := .gitStackSync, id := .numeric 2, cron := "0 5 * * *" }]
  bodies := fun _ _ _ => { work := .ends (.completed .null) }

def parkedKey : ScheduleKey :=
  ⟨.containerUpdate, .numeric 1⟩

theorem parked_switched :
    parked.registry.isShutDown = false ∧ (parked.toggle parkedKey true).1.success = true ∧
      ∃ d, (parked.toggle parkedKey true).2.descriptors.get? parkedKey = some d ∧ d.enabled = true ∧
        ((parked.toggle parkedKey true).2.registry.isArmed parkedKey = true ↔ true = true) ∧
        (parked.toggle parkedKey true).2.registry.FiresBy parkedKey d parked.clock := by
  have done : (parked.toggle parkedKey true).1.success = true := by decide +kernel
  obtain ⟨d, known, enabled, brought⟩ := (toggle_switched parked parkedKey true).achieved done
  exact ⟨rfl, done, d, known, enabled, brought rfl⟩

end Scheduler

end FleetOps
