import FleetOps.Proofs.Scheduler.Step
import Mathlib.Data.List.Basic

set_option autoImplicit false

namespace FleetOps

namespace GuardTable

theorem isHeld_take (g : GuardTable) (k l : ScheduleKey) :
    isHeld ⟨k :: g.held⟩ l = true ↔ l = k ∨ g.isHeld l = true := by
  simp [isHeld]

theorem isHeld_release (g : GuardTable) (k l : ScheduleKey) :
    (g.release k).isHeld l = true ↔ l ≠ k ∧ g.isHeld l = true := by
  simp [isHeld, release, and_comm]

end GuardTable

namespace Scheduler

variable {s s' : Scheduler} {run run' : Run}

theorem Steps.new (steps : s.Steps run run' s') : run'.new = run.new := by
  cases steps <;> rfl

theorem holdsGuard_orLeave {change : RunAnswer} {next : ExecutionRecord → Phase}
    (holds : ∀ r, (next r).holdsGuard = true) : (orLeave change next).holdsGuard = true := by
  cases change with
  | ok r => exact holds r
  | error e => rfl

theorem holdsGuard_orReturn (change : RunAnswer) : (orReturn change).holdsGuard = false := by
  cases change <;> rfl

theorem Steps.guards (steps : s.Steps run run' s') :
    (run.phase.holdsGuard = false ∧ run'.phase.holdsGuard = true ∧
      s.guards.isHeld run.key = false ∧ s'.guards = ⟨run.key :: s.guards.held⟩) ∨
    (run.phase.holdsGuard = true ∧ run'.phase.holdsGuard = false ∧
      s'.guards = s.guards.release run.key) ∨
    (run'.phase.holdsGuard = run.phase.holdsGuard ∧ s'.guards = s.guards) := by
  have created := (s.create_frame run.new).guards
  have updated (r : ExecutionRecord) := (s.update_frame r).guards
  cases steps with
  | enter here free => exact .inl ⟨by rw [here]; rfl, rfl, free, rfl⟩
  | release here => exact .inr (.inl ⟨by rw [here]; rfl, rfl, rfl⟩)
  | turnAway here held => exact .inr (.inr ⟨by rw [here]; rfl, rfl⟩)
  | unexcused here call => exact .inr (.inr ⟨by rw [here]; rfl, by simpa [call] using created⟩)
  | excuse here call =>
    exact .inr (.inr ⟨by rw [here]; exact holdsGuard_orReturn _, by simpa [call] using created⟩)
  | unbegun here call => exact .inr (.inr ⟨by rw [here]; rfl, by simpa [call] using created⟩)
  | begin here call =>
    exact .inr (.inr ⟨by rw [here]; exact holdsGuard_orLeave fun _ => rfl,
      by simpa [call] using created⟩)
  | @write r next s' due call =>
    refine .inr (.inr ⟨?_, by simpa [call] using updated r⟩)
    generalize run.phase = phase at due
    cases due <;> rfl
  | @refused r e next s' due call =>
    refine .inr (.inr ⟨?_, by simpa [call] using updated r⟩)
    generalize run.phase = phase at due
    cases due <;> rfl
  | excuseAgain here => exact .inr (.inr ⟨by rw [here]; rfl, updated _⟩)
  | giveUp here failed => exact .inr (.inr ⟨by rw [here]; rfl, updated _⟩)
  | abandon here failed => exact .inr (.inr ⟨by rw [here]; rfl, rfl⟩)
  | invoke here => exact .inr (.inr ⟨by rw [here]; rfl, rfl⟩)
  | @work r body here =>
    exact .inr (.inr ⟨by rw [here]; exact holdsGuard_orLeave fun _ => rfl,
      (s.perform_frame body.work).guards⟩)
  | rest here => exact .inr (.inr ⟨rfl, rfl⟩)

end Scheduler

namespace Workload

variable {w w' : Workload} {i j : Nat} {k : ScheduleKey}

inductive Goes (w : Workload) : Move → Workload → Prop where
  | run {i : Nat} {run run' : Run} {s : Scheduler} (there : w.runs[i]? = some run)
      (steps : w.scheduler.Steps run run' s) :
      Goes w (.run i) { w with scheduler := s, runs := w.runs.set i run' }
  | aside {move : Move} {w' : Workload} (runs : w'.runs = w.runs)
      (frame : w.scheduler.Frame w'.scheduler)
      (store : w'.scheduler.store = w.scheduler.store) : Goes w move w'

theorem goes_move (w : Workload) (move : Move) : w.Goes move (w.move move) := by
  cases move with
  | run i =>
    cases there : w.runs[i]? with
    | none =>
      have same : w.move (.run i) = w := by simp [Workload.move, there]
      exact same.symm ▸ .aside rfl (.refl _) rfl
    | some run => simpa [Workload.move, there] using .run there (w.scheduler.steps_step run)
  | toggle i =>
    cases there : w.toggles[i]? with
    | none =>
      have same : w.move (.toggle i) = w := by simp [Workload.move, there]
      exact same.symm ▸ .aside rfl (.refl _) rfl
    | some toggle =>
      have kept := w.scheduler.stepToggle_frame toggle
      exact .aside (by simp [Workload.move, there]) (by simpa [Workload.move, there] using kept.1)
        (by simpa [Workload.move, there] using kept.2)
  | clock now => exact .aside rfl ⟨rfl, rfl, rfl, id⟩ rfl

theorem getElem?_set_run {runs : List Run} {run : Run} (there : runs[i]? = some run) (run' : Run)
    (j : Nat) : (runs.set i run')[j]? = if j = i then some run' else runs[j]? := by
  have bound : i < runs.length := (List.getElem?_eq_some_iff.mp there).1
  by_cases same : j = i
  · simp [same, bound]
  · simp [same, List.getElem?_set_ne (Ne.symm same)]

def Holds (w : Workload) (i : Nat) (k : ScheduleKey) : Prop :=
  ∃ run, w.runs[i]? = some run ∧ run.key = k ∧ run.phase.holdsGuard = true

structure Guarded (w : Workload) : Prop where
  held_iff : ∀ k, w.scheduler.guards.isHeld k = true ↔ ∃ i, w.Holds i k
  alone : ∀ {i j k}, w.Holds i k → w.Holds j k → i = j

theorem Guarded.goes {move : Move} (guarded : w.Guarded) (goes : w.Goes move w') : w'.Guarded := by
  have alone := @guarded.alone
  cases goes with
  | aside runs frame store =>
    have holds (j : Nat) (k : ScheduleKey) : w'.Holds j k ↔ w.Holds j k := by simp [Holds, runs]
    refine ⟨fun k => ?_, fun hi hj => alone ((holds _ _).mp hi) ((holds _ _).mp hj)⟩
    simp only [frame.guards, guarded.held_iff, holds]
  | @run i run run' s there steps =>
    generalize after : { w with scheduler := s, runs := w.runs.set i run' } = w'
    have others {j : Nat} (other : j ≠ i) (k : ScheduleKey) : w'.Holds j k ↔ w.Holds j k := by
      simp [Holds, ← after, List.getElem?_set_ne other.symm]
    have before (k : ScheduleKey) : w.Holds i k ↔ run.key = k ∧ run.phase.holdsGuard = true := by
      simp [Holds, there]
    have own (k : ScheduleKey) : w'.Holds i k ↔ run.key = k ∧ run'.phase.holdsGuard = true := by
      simp [Holds, ← after, getElem?_set_run there, Run.key, steps.new]
    have guards : w'.scheduler.guards = s.guards := by rw [← after]
    have held := guarded.held_iff
    obtain ⟨outside, inside, free, taken⟩ | ⟨inside, outside, released⟩ | ⟨same, kept⟩ := steps.guards
    · -- Nobody holds the key that the run now takes.
      have unheld (j : Nat) : ¬ w.Holds j run.key := fun h => by
        simp [(held _).mpr ⟨j, h⟩] at free
      refine ⟨fun k => ?_, by grind⟩
      rw [guards, taken, GuardTable.isHeld_take, held]
      constructor
      · rintro (rfl | ⟨j, h⟩)
        · exact ⟨i, (own _).mpr ⟨rfl, inside⟩⟩
        · exact ⟨j, (others (by grind) k).mpr h⟩
      · rintro ⟨j, h⟩
        by_cases here : j = i
        · exact .inl ((own k).mp (here ▸ h)).1.symm
        · exact .inr ⟨j, (others here k).mp h⟩
    · refine ⟨fun k => ?_, by grind⟩
      rw [guards, released, GuardTable.isHeld_release, held]
      constructor
      · rintro ⟨other, j, h⟩
        exact ⟨j, (others (by grind) k).mpr h⟩
      · rintro ⟨j, h⟩
        have left : j ≠ i := by grind
        have there := (others left k).mp h
        refine ⟨fun same => left (alone there ?_), j, there⟩
        exact (before k).mpr ⟨same.symm, inside⟩
    · have holds (j : Nat) (k : ScheduleKey) : w'.Holds j k ↔ w.Holds j k := by grind
      refine ⟨fun k => ?_, fun hi hj => alone ((holds _ _).mp hi) ((holds _ _).mp hj)⟩
      simp only [guards, kept, held, holds]

theorem Guarded.moves (guarded : w.Guarded) (moves : List Move) : (w.moves moves).Guarded := by
  induction moves generalizing w with
  | nil => exact guarded
  | cons move rest ih => exact ih (guarded.goes (w.goes_move move))

end Workload

end FleetOps
