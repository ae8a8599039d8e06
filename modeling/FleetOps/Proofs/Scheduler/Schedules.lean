import FleetOps.Proofs.Scheduler.Step

set_option autoImplicit false

namespace FleetOps

def Faults.SparesDescriptors (f : Faults) : Prop :=
  ∀ n, f .descriptorGet n = false ∧ f .descriptorList n = false ∧ f .descriptorSet n = false ∧
    f .descriptorVanish n = false

theorem Faults.SparesDescriptors.passed {f : Faults} (spared : f.SparesDescriptors) (p : FaultPoint) :
    (f.passed p).SparesDescriptors := by
  intro n
  obtain ⟨get, list, set, vanish⟩ := spared n
  obtain ⟨get', list', set', vanish'⟩ := spared (n + 1)
  simp only [Faults.passed]
  refine ⟨?_, ?_, ?_, ?_⟩ <;> split_ifs <;> assumption

namespace Scheduler

variable {s s' s'' : Scheduler} {run run' : Run} {k : ScheduleKey}

structure SameSchedules (s s' : Scheduler) : Prop where
  clock : s'.clock = s.clock
  descriptors : s'.descriptors = s.descriptors
  registry : s'.registry = s.registry
  spares : s.faults.SparesDescriptors → s'.faults.SparesDescriptors

namespace SameSchedules

theorem refl (s : Scheduler) : s.SameSchedules s :=
  ⟨rfl, rfl, rfl, id⟩

theorem trans (first : s.SameSchedules s') (rest : s'.SameSchedules s'') : s.SameSchedules s'' :=
  ⟨rest.clock.trans first.clock, rest.descriptors.trans first.descriptors,
    rest.registry.trans first.registry, rest.spares ∘ first.spares⟩

theorem passed (s : Scheduler) (p : FaultPoint) :
    s.SameSchedules { s with faults := s.faults.passed p } :=
  ⟨rfl, rfl, rfl, (·.passed p)⟩

theorem onStore {α : Type} (s : Scheduler) (p : FaultPoint)
    (call : Store → Except SchedulerError α × Store) :
    s.SameSchedules (s.attempt p (Scheduler.onStore call)).2 := by
  unfold attempt
  split
  · exact passed s p
  · exact ⟨rfl, rfl, rfl, (·.passed p)⟩

theorem update (s : Scheduler) (r : ExecutionRecord) : s.SameSchedules (s.update r).2 :=
  onStore s _ _

theorem perform (s : Scheduler) (work : JobWork) : s.SameSchedules (s.perform work).2 := by
  obtain same | ⟨_, cutoff, -, pruned⟩ := s.perform_state work
  · rw [same]
    exact refl s
  · rw [pruned]
    exact onStore s _ _

theorem steps (steps : s.Steps run run' s') : s.SameSchedules s' := by
  have created : s.SameSchedules (s.create run.new).2 := onStore s _ _
  have updated := update s
  cases steps with
  | enter | turnAway | abandon | invoke | release | rest => exact ⟨rfl, rfl, rfl, id⟩
  | unexcused here call => simpa [call] using created
  | excuse here call => simpa [call] using created
  | unbegun here call => simpa [call] using created
  | begin here call => simpa [call] using created
  | @write r next s' due call => simpa [call] using updated r
  | @refused r e next s' due call => simpa [call] using updated r
  | excuseAgain here => exact updated _
  | giveUp here failed => exact updated _
  | @work r body here => exact perform s body.work

theorem advance (s : Scheduler) (n : Nat) (run : Run) : s.SameSchedules (advance n s run).2 := by
  induction n generalizing s run with
  | zero => exact refl s
  | succ n ih => exact (steps (s.steps_step run)).trans (ih _ _)

theorem of_run (s : Scheduler) (new : NewExecution) (listened : Bool) :
    s.SameSchedules (s.run new listened).2 := by
  change s.SameSchedules (s.complete { new, listened }).2
  exact advance s _ _

end SameSchedules

theorem describe_same (s : Scheduler) (k : ScheduleKey) : s.SameSchedules (s.describe k).2 := by
  unfold describe attempt
  split
  · exact .passed s _
  · exact .passed s _

theorem listEnabled_same (s : Scheduler) : s.SameSchedules s.listEnabled.2 := by
  unfold listEnabled attempt
  split
  · exact .passed s _
  · exact .passed s _

theorem setEnabled_registry (s : Scheduler) (k : ScheduleKey) (enabled : Bool) :
    (s.setEnabled k enabled).2.registry = s.registry ∧ (s.setEnabled k enabled).2.clock = s.clock := by
  unfold setEnabled attempt
  split
  · exact ⟨rfl, rfl⟩
  · dsimp only
    split <;> exact ⟨rfl, rfl⟩

variable (spared : s.faults.SparesDescriptors)

include spared

theorem describe_answer (k : ScheduleKey) : (s.describe k).1 = .ok (s.descriptors.get? k) := by
  have passes : s.faults.due .descriptorGet = false := (spared 0).1
  simp [describe, attempt, passes]

theorem listEnabled_answer : s.listEnabled.1 = .ok s.descriptors.enabled := by
  have passes : s.faults.due .descriptorList = false := (spared 0).2.1
  simp [listEnabled, attempt, passes]

theorem setEnabled_answer (k : ScheduleKey) (enabled : Bool) :
    (s.setEnabled k enabled).1 = .ok ((s.descriptors.setEnabled k enabled).get? k) ∧
      (s.setEnabled k enabled).2.descriptors = s.descriptors.setEnabled k enabled ∧
      (s.setEnabled k enabled).2.faults.SparesDescriptors := by
  have sets : s.faults.due .descriptorSet = false := (spared 0).2.2.1
  have stays : (s.faults.passed .descriptorSet).due .descriptorVanish = false := (spared 0).2.2.2
  simpa [setEnabled, attempt, sets, stays] using (spared.passed _).passed _

end Scheduler

end FleetOps
