import FleetOps.Proofs.Scheduler.Ledger
import Mathlib.Data.List.Induction
import Mathlib.Data.List.TakeWhile

set_option autoImplicit false

namespace FleetOps

open ExecutionRecord

namespace Run.Sound

variable {o : Origin} {m : MemoryStore} {calls : List JobContext} {run : Run} {answer : RunAnswer}

theorem answered (sound : run.Sound o m calls) (returned : run.phase = .returned answer) :
    ∃ r, answer = .ok r ∧ r.purpose = run.new ∧ Kept o.prunes (some r) (m.find? r.id) ∧
      (run.phase.turned = true ∧ r.BusySkip ∨ run.phase.turned = false ∧ run.Served o calls r) := by
  unfold Run.Sound at sound
  cases answer with
  | error e => simp [returned] at sound
  | ok r =>
    simp only [returned] at sound ⊢
    obtain ⟨served | ⟨purpose, busy⟩, kept⟩ := sound
    · have started := served.started
      refine ⟨r, rfl, served.purpose, kept, .inr ⟨?_, served⟩⟩
      cases at? : r.startedAt <;> simp_all [Phase.turned]
    · exact ⟨r, rfl, purpose, kept, .inl ⟨by simp [Phase.turned, busy.unstarted], busy⟩⟩

end Run.Sound

namespace Workload

variable {o : Origin} {w : Workload} {m : MemoryStore} {calls : List JobContext} {i : Nat} {run : Run}
  {moves : List Move}

def entry (w : Workload) (moves : List Move) (i : Nat) : Workload :=
  w.moves (moves.takeWhile (· ≠ .run i))

def callsSince (w₀ w : Workload) : List JobContext :=
  w.scheduler.invoked.drop w₀.scheduler.invoked.length

theorem moves_append (w : Workload) (first rest : List Move) :
    w.moves (first ++ rest) = (w.moves first).moves rest := by
  simp [moves]

theorem moves_unmoved (w : Workload) (unmoved : .run i ∉ moves) :
    (w.moves moves).runs[i]? = w.runs[i]? := by
  induction moves generalizing w with
  | nil => rfl
  | cons move rest ih =>
    have other : move ≠ .run i := fun same => unmoved (by simp [same])
    have later := ih (w.move move) fun mem => unmoved (by simp [mem])
    refine later.trans ?_
    have goes := w.goes_move move
    generalize w.move move = w' at goes
    cases goes with
    | aside runs => rw [runs]
    | @run j => exact List.getElem?_set_ne fun same => other (by rw [same])

theorem moves_keep {α : Type} {f : Run → α}
    (kept : ∀ {s s' run run'}, Scheduler.Steps s run run' s' → f run' = f run)
    (w : Workload) (moves : List Move) (i : Nat) :
    (w.moves moves).runs[i]?.map f = w.runs[i]?.map f := by
  induction moves generalizing w with
  | nil => rfl
  | cons move rest ih =>
    refine (ih (w.move move)).trans ?_
    have goes := w.goes_move move
    generalize w.move move = w' at goes
    cases goes with
    | aside runs => rw [runs]
    | @run j run run' s there steps =>
      dsimp only
      rw [getElem?_set_run there]
      split_ifs with same
      · simp [same, there, kept steps]
      · rfl

theorem tried_move (there : w.runs[i]? = some run) (arrived : run.phase = .arrived) :
    (w.move (.run i)).Tried i (w.scheduler.guards.isHeld run.key) := by
  have here : (w.move (.run i)).runs[i]? = some (w.scheduler.step run).1 := by
    simp [Workload.move, there, getElem?_set_run there]
  have phase : (w.scheduler.step run).1.phase =
      if w.scheduler.guards.isHeld run.key then .turnedAway else .admitted := by
    cases held : w.scheduler.guards.isHeld run.key <;>
      simp [Scheduler.step, arrived, GuardTable.tryAcquire, held, Run.at]
  refine ⟨_, here, ?_, ?_⟩
  · rw [phase]
    split_ifs <;> simp
  · rw [phase]
    split_ifs with held <;> simp [held, Phase.turned]

theorem unmoved_before_entry (moves : List Move) (i : Nat) : .run i ∉ moves.takeWhile (· ≠ .run i) :=
  fun mem => by simpa using List.mem_takeWhile_imp mem

theorem runs_entry (w : Workload) (moves : List Move) (i : Nat) :
    (w.entry moves i).runs[i]? = w.runs[i]? :=
  w.moves_unmoved (unmoved_before_entry moves i)

theorem split_at_entry (moved : .run i ∈ moves) :
    ∃ rest, moves = moves.takeWhile (· ≠ .run i) ++ .run i :: rest := by
  induction moves with
  | nil => simp at moved
  | cons move rest ih =>
    by_cases here : move = .run i
    · exact ⟨rest, by simp [here]⟩
    · obtain ⟨later, split⟩ := ih (by simpa [Ne.symm here] using moved)
      exact ⟨later, by simpa [here] using split⟩

theorem moves_entry {rest : List Move} (split : moves = moves.takeWhile (· ≠ .run i) ++ .run i :: rest) :
    w.moves moves = ((w.entry moves i).move (.run i)).moves rest := by
  rw [entry, split, moves_append, ← split]
  rfl

theorem Opens.turned_iff (opens : w.Opens m) (there : (w.moves moves).runs[i]? = some run)
    (left : run.phase ≠ .arrived) :
    ∃ run₀, (w.entry moves i).runs[i]? = some run₀ ∧ run₀.phase = .arrived ∧ run₀.new = run.new ∧
      run.phase.turned = (w.entry moves i).scheduler.guards.isHeld run.key := by
  obtain ⟨run₀, there₀, new⟩ : ∃ run₀, w.runs[i]? = some run₀ ∧ run₀.new = run.new := by
    have new := moves_keep Scheduler.Steps.new w moves i
    rw [there] at new
    simpa using new.symm
  have arrived : run₀.phase = .arrived := opens.arrived run₀ (List.mem_of_getElem? there₀)
  have moved : .run i ∈ moves := by
    by_contra unmoved
    obtain rfl : run₀ = run := by
      simpa [there, there₀] using (w.moves_unmoved unmoved).symm
    exact left arrived
  have entered : (w.entry moves i).runs[i]? = some run₀ := (w.runs_entry moves i).trans there₀
  refine ⟨run₀, entered, arrived, new, ?_⟩
  obtain ⟨rest, split⟩ := split_at_entry moved
  have reached : w.moves moves = ((w.entry moves i).move (.run i)).moves rest := moves_entry split
  obtain ⟨m₁, calls₁, ledger₁, -⟩ :=
    (opens.ledger True).moves (moves.takeWhile (· ≠ .run i)) fun _ => trivial
  obtain ⟨m₂, calls₂, ledger₂, -⟩ :=
    ledger₁.goes ((w.entry moves i).goes_move (.run i)) fun _ => trivial
  obtain ⟨-, -, -, -, lasting⟩ := ledger₂.moves rest fun _ => trivial
  obtain ⟨run₁, there₁, -, told⟩ := lasting i _ (tried_move entered arrived)
  rw [← reached, there] at there₁
  cases there₁
  rw [told, Run.key, new, Run.key]

theorem Ledger.uncalled {r : ExecutionRecord} (ledger : w.Ledger o m calls)
    (there : w.runs[i]? = some run) (returned : run.phase = .returned (.ok r))
    (unstarted : r.startedAt = none) : ∀ c ∈ calls, c.execution ≠ r.id := by
  intro c mem same
  obtain ⟨j, run₁, there₁, call⟩ := ledger.caller c mem
  obtain rfl : j = i := ledger.apart j i r.id
    ⟨run₁, there₁, same ▸ Run.id?_of_call? call⟩ ⟨run, there, by rw [returned]; rfl⟩
  obtain rfl : run = run₁ := by simpa [there] using there₁
  simp [Run.call?, returned, Phase.begun?, unstarted] at call

theorem Ledger.callsSince (ledger : w.Ledger o m calls) {w₀ : Workload}
    (invoked : o.invoked = w₀.scheduler.invoked) : w₀.callsSince w = calls := by
  simp [Workload.callsSince, ledger.invoked, invoked]

end Workload

end FleetOps
