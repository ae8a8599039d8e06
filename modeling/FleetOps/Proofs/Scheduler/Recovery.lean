import FleetOps.Proofs.Scheduler.History

set_option autoImplicit false

namespace FleetOps

open ExecutionRecord

structure Outlook where
  held : Bool
  id : ExecutionId
  lost : Nat → Bool

structure Outlook.Shows (o : Outlook) (s : Scheduler) (writes : Nat) (r : ExecutionRecord) : Prop where
  store : ∃ m, s.store = .memory m ∧ m.Ordered ∧ m.find? o.id = some r
  faults : ∀ n, s.faults .update n = o.lost (writes + n)

structure Outlook.Fresh (o : Outlook) (s : Scheduler) : Prop where
  store : ∃ m, s.store = .memory m ∧ m.Ordered ∧ o.id = m.lastId + 1
  creates : s.faults .create 0 = false
  faults : ∀ n, s.faults .update n = o.lost n

structure Outlook.Settles (o : Outlook) (r : ExecutionRecord) : Prop where
  ended : r.status.isTerminal = true ↔ o.held = true ∨ o.lost 1 = false
  stranded : r.status = .running ↔ o.held = false ∧ o.lost 1 = true

namespace Outlook

variable {o : Outlook} {s s' : Scheduler} {writes : Nat} {q r : ExecutionRecord} {new : NewExecution}

theorem Settles.of_ended (ends : r.status.isTerminal = true) (kept : o.held = true ∨ o.lost 1 = false) :
    o.Settles r := by
  have still : r.status ≠ .running := fun running => by simp [running, ExecutionStatus.isTerminal] at ends
  refine ⟨iff_of_true ends kept, iff_of_false still ?_⟩
  rintro ⟨free, lost⟩
  simp [free, lost] at kept

theorem Settles.of_running (runs : r.status = .running) (free : o.held = false) (lost : o.lost 1 = true) :
    o.Settles r := by
  refine ⟨iff_of_false ?_ ?_, iff_of_true runs ⟨free, lost⟩⟩
  · simp [runs, ExecutionStatus.isTerminal]
  · simp [free, lost]

theorem Fresh.create {answer : RunAnswer} (fresh : o.Fresh s) (call : s.create new = (answer, s')) :
    ∃ q, answer = .ok q ∧ q.status = .queued ∧ q.id = o.id ∧ q.purpose = new ∧ o.Shows s' 0 q := by
  obtain ⟨m, store, ordered, id⟩ := fresh.store
  have passes : s.faults.due .create = false := fresh.creates
  simp only [Scheduler.create, Scheduler.attempt, passes, Bool.false_eq_true, if_false,
    Scheduler.onStore, store, Store.create, Prod.mk.injEq] at call
  obtain ⟨rfl, rfl⟩ := call
  refine ⟨_, rfl, rfl, id.symm, rfl, ⟨_, rfl, ordered.create new s.clock.now, ?_⟩, fun n => ?_⟩
  · rw [MemoryStore.find?_create, if_pos id]
  · simpa [Faults.passed] using fresh.faults n

theorem Shows.update {answer : Except SchedulerError Unit} (shown : o.Shows s writes q)
    (pending : q.status.isTerminal = false) (own : r.id = o.id) (call : s.update r = (answer, s')) :
    answer = .ok () ∧ o.lost writes = false ∧ o.Shows s' (writes + 1) r ∨
      (∃ e, answer = .error e) ∧ o.lost writes = true ∧ o.Shows s' (writes + 1) q := by
  obtain ⟨m, store, ordered, found⟩ := shown.store
  have due : s.faults.due .update = o.lost writes := shown.faults 0
  have left (n : Nat) : s.faults.passed .update .update n = o.lost (writes + 1 + n) := by
    have next := shown.faults (n + 1)
    have place : writes + 1 + n = writes + (n + 1) := by omega
    simpa [Faults.passed, place] using next
  unfold Scheduler.update Scheduler.attempt at call
  cases lost : o.lost writes with
  | true =>
    simp only [due, lost, if_true, Prod.mk.injEq] at call
    obtain ⟨rfl, rfl⟩ := call
    exact .inr ⟨⟨_, rfl⟩, rfl, ⟨m, store, ordered, found⟩, left⟩
  | false =>
    have updated : m.update r = .ok (m.insert r) :=
      MemoryStore.update_eq_ok.mpr ⟨q, own ▸ found, pending, rfl⟩
    simp only [due, lost, Bool.false_eq_true, if_false, Scheduler.onStore, store, Store.update, updated,
      Prod.mk.injEq] at call
    obtain ⟨rfl, rfl⟩ := call
    refine .inl ⟨rfl, rfl, ⟨_, rfl, ordered.update updated, ?_⟩, left⟩
    rw [MemoryStore.find?_insert, if_pos own.symm]

theorem Shows.perform (shown : o.Shows s writes q) (pending : q.status.isTerminal = false)
    (work : JobWork) : o.Shows (s.perform work).2 writes q := by
  obtain same | ⟨_, cutoff, -, pruned⟩ := s.perform_state work
  · rwa [same]
  obtain ⟨m, store, ordered, found⟩ := shown.store
  have stays : (m.prune cutoff).2.find? o.id = some q := by
    simp [MemoryStore.find?_prune ordered, found, ExecutionRecord.finishedBefore, pending]
  rw [pruned]
  constructor
  · obtain same | fewer := Scheduler.prune_memory store cutoff
    · exact ⟨m, same, ordered, found⟩
    · exact ⟨_, fewer, ordered.prune cutoff, stays⟩
  · intro n
    rw [← shown.faults n]
    unfold Scheduler.prune Scheduler.attempt
    split <;> rfl

end Outlook

/-- What holds between two steps of a run whose writes are not lost both. -/
def Run.Recovers (o : Outlook) (s : Scheduler) (run : Run) : Prop :=
  let own (r : ExecutionRecord) := r.id = o.id ∧ r.purpose = run.new
  match run.phase with
  | .arrived => s.guards.isHeld run.key = o.held ∧ o.Fresh s
  | .turnedAway => o.held = true ∧ o.Fresh s
  | .admitted => o.held = false ∧ o.Fresh s
  | .skipping r =>
    o.held = true ∧ own r ∧ r.status.isTerminal = true ∧
      ∃ q, q.status.isTerminal = false ∧ o.Shows s 0 q
  | .unskipped r _ =>
    o.held = true ∧ own r ∧ r.status.isTerminal = true ∧
      ∃ q, q.status.isTerminal = false ∧ o.lost 0 = true ∧ o.Shows s 1 q
  | .starting r =>
    o.held = false ∧ own r ∧ r.status = .running ∧
      ∃ q, q.status.isTerminal = false ∧ o.Shows s 0 q
  | .unstarted r _ =>
    o.held = false ∧ own r ∧ r.status = .running ∧
      ∃ q, q.status.isTerminal = false ∧ o.lost 0 = true ∧ o.Shows s 1 q
  | .ready r | .working r _ => o.held = false ∧ own r ∧ r.status = .running ∧ o.Shows s 1 r
  | .ending r =>
    o.held = false ∧ own r ∧ r.status.isTerminal = true ∧
      ∃ q, own q ∧ q.status = .running ∧ o.Shows s 1 q
  | .leaving _ | .returned _ => ∃ r writes, own r ∧ o.Settles r ∧ o.Shows s writes r

namespace Run.Recovers

open Scheduler

variable {o : Outlook} {s s' : Scheduler} {run run' : Run}

theorem write {r : ExecutionRecord} {next : Phase} (recovers : run.Recovers o s)
    (due : run.phase.Writes r next) (call : s.update r = (.ok (), s')) :
    (run.at next).Recovers o s' := by
  unfold Recovers at recovers ⊢
  generalize run.phase = phase at recovers due
  cases due with
  | skipped =>
    obtain ⟨held, own, ends, q, pending, shown⟩ := recovers
    obtain ⟨-, -, shown⟩ | ⟨⟨_, refused⟩, -⟩ := shown.update pending own.1 call
    · exact ⟨r, _, own, .of_ended ends (.inl held), shown⟩
    · cases refused
  | started =>
    obtain ⟨free, own, runs, q, pending, shown⟩ := recovers
    obtain ⟨-, -, shown⟩ | ⟨⟨_, refused⟩, -⟩ := shown.update pending own.1 call
    · exact ⟨free, own, runs, shown⟩
    · cases refused
  | ended =>
    obtain ⟨free, own, ends, q, -, runs, shown⟩ := recovers
    have pending : q.status.isTerminal = false := by rw [runs]; rfl
    obtain ⟨-, kept, shown⟩ | ⟨⟨_, refused⟩, -⟩ := shown.update pending own.1 call
    · exact ⟨r, _, own, .of_ended ends (.inr kept), shown⟩
    · cases refused

theorem refused {r : ExecutionRecord} {e : SchedulerError} {next : Phase} (recovers : run.Recovers o s)
    (due : run.phase.Refused r e next) (call : s.update r = (.error e, s')) :
    (run.at next).Recovers o s' := by
  unfold Recovers at recovers ⊢
  generalize run.phase = phase at recovers due
  cases due with
  | unskipped =>
    obtain ⟨held, own, ends, q, pending, shown⟩ := recovers
    obtain ⟨accepted, -⟩ | ⟨-, lost, shown⟩ := shown.update pending own.1 call
    · cases accepted
    · exact ⟨held, own, ends, q, pending, lost, shown⟩
  | unstarted =>
    obtain ⟨free, own, runs, q, pending, shown⟩ := recovers
    obtain ⟨accepted, -⟩ | ⟨-, lost, shown⟩ := shown.update pending own.1 call
    · cases accepted
    · exact ⟨free, own, runs, q, pending, lost, shown⟩
  | unended =>
    obtain ⟨free, own, ends, q, owned, runs, shown⟩ := recovers
    have pending : q.status.isTerminal = false := by rw [runs]; rfl
    obtain ⟨accepted, -⟩ | ⟨-, lost, shown⟩ := shown.update pending own.1 call
    · cases accepted
    · exact ⟨q, _, owned, .of_running runs free lost, shown⟩

theorem excuse {q : ExecutionRecord} (held : o.held = true) (queued : q.status = .queued)
    (id : q.id = o.id) (purpose : q.purpose = run.new) (shown : o.Shows s 0 q) (now : Instant) :
    (run.at (orReturn (q.skip alreadyRunning now))).Recovers o s := by
  have pending : q.status.isTerminal = false := by simp [queued, ExecutionStatus.isTerminal]
  rw [skip_queued _ queued]
  exact ⟨held, ⟨id, purpose⟩, rfl, q, pending, shown⟩

theorem begin {q : ExecutionRecord} (free : o.held = false) (queued : q.status = .queued)
    (id : q.id = o.id) (purpose : q.purpose = run.new) (shown : o.Shows s 0 q) (now : Instant) :
    (run.at (orLeave (q.start now) .starting)).Recovers o s := by
  have pending : q.status.isTerminal = false := by simp [queued, ExecutionStatus.isTerminal]
  rw [start_queued queued]
  exact ⟨free, ⟨id, purpose⟩, rfl, q, pending, shown⟩

theorem retry {q r : ExecutionRecord} (once : ¬ (o.lost 0 = true ∧ o.lost 1 = true))
    (own : r.id = o.id ∧ r.purpose = run.new) (ends : r.status.isTerminal = true)
    (pending : q.status.isTerminal = false) (lost : o.lost 0 = true) (shown : o.Shows s 1 q) :
    ∃ r' writes, (r'.id = o.id ∧ r'.purpose = run.new) ∧ o.Settles r' ∧
      o.Shows (s.update r).2 writes r' := by
  have kept : o.lost 1 = false := by simpa [lost] using once
  obtain ⟨-, -, shown⟩ | ⟨-, again, -⟩ := shown.update pending own.1 rfl
  · exact ⟨r, _, own, .of_ended ends (.inr kept), shown⟩
  · simp [kept] at again

theorem steps (once : ¬ (o.lost 0 = true ∧ o.lost 1 = true)) (recovers : run.Recovers o s)
    (steps : s.Steps run run' s') : run'.Recovers o s' := by
  cases steps with
  | write due call => exact recovers.write due call
  | refused due call => exact recovers.refused due call
  | enter here free =>
    simp only [Recovers, here] at recovers
    obtain ⟨guard, store, creates, faults⟩ := recovers
    exact ⟨guard.symm.trans free, store, creates, faults⟩
  | turnAway here held =>
    simp only [Recovers, here] at recovers
    exact ⟨recovers.1.symm.trans held, recovers.2⟩
  | unexcused here call =>
    simp only [Recovers, here] at recovers
    obtain ⟨_, answered, -⟩ := recovers.2.create call
    cases answered
  | excuse here call =>
    simp only [Recovers, here] at recovers
    obtain ⟨q, answered, queued, id, purpose, shown⟩ := recovers.2.create call
    cases answered
    exact excuse recovers.1 queued id purpose shown _
  | unbegun here call =>
    simp only [Recovers, here] at recovers
    obtain ⟨_, answered, -⟩ := recovers.2.create call
    cases answered
  | begin here call =>
    simp only [Recovers, here] at recovers
    obtain ⟨q, answered, queued, id, purpose, shown⟩ := recovers.2.create call
    cases answered
    exact begin recovers.1 queued id purpose shown _
  | excuseAgain here =>
    simp only [Recovers, here] at recovers
    obtain ⟨-, own, ends, q, pending, lost, shown⟩ := recovers
    exact retry once own ends pending lost shown
  | giveUp here failed =>
    simp only [Recovers, here] at recovers
    obtain ⟨-, own, runs, q, pending, lost, shown⟩ := recovers
    rw [fail_running _ runs] at failed
    cases failed
    refine retry once ?_ ?_ pending lost shown
    · exact own
    · rfl
  | abandon here failed =>
    simp only [Recovers, here] at recovers
    obtain ⟨-, -, runs, -⟩ := recovers
    rw [fail_running _ runs] at failed
    cases failed
  | @invoke r here =>
    simp only [Recovers, here] at recovers
    obtain ⟨free, own, runs, store, faults⟩ := recovers
    exact ⟨free, own, runs, store, faults⟩
  | @work r body here =>
    simp only [Recovers, here] at recovers
    obtain ⟨free, own, runs, shown⟩ := recovers
    have pending : r.status.isTerminal = false := by rw [runs]; rfl
    obtain ⟨r', concluded, id, purpose, -, reports⟩ :=
      conclude_running (s.perform body.work).2.clock.now (s.perform body.work).1 runs
    rw [concluded]
    exact ⟨free, ⟨id.trans own.1, purpose.trans own.2⟩, reports.isTerminal, r, own, runs,
      shown.perform pending body.work⟩
  | release here =>
    simp only [Recovers, here] at recovers
    obtain ⟨r, writes, own, settles, store, faults⟩ := recovers
    exact ⟨r, writes, own, settles, store, faults⟩
  | rest here => exact recovers

end Run.Recovers

namespace Scheduler

/-- Over a store in memory where not both writes of a run are lost, the record of the run has ended,
unless the run had its guard and the write of its outcome is the one that is lost. -/
theorem run_recovers {s : Scheduler} {m : MemoryStore} (store : s.store = .memory m) (ordered : m.Ordered)
    (creates : s.faults .create 0 = false)
    (once : ¬ (s.faults .update 0 = true ∧ s.faults .update 1 = true)) (new : NewExecution)
    (listened : Bool) :
    ∃ m' r, (s.run new listened).2.store = .memory m' ∧ m'.find? (m.lastId + 1) = some r ∧
      r.purpose = new ∧
      (r.status.isTerminal = true ↔ s.guards.isHeld new.key = true ∨ s.faults .update 1 = false) ∧
      (r.status = .running ↔ s.guards.isHeld new.key = false ∧ s.faults .update 1 = true) := by
  let run : Run := { new, listened }
  let o : Outlook := ⟨s.guards.isHeld new.key, m.lastId + 1, s.faults .update⟩
  have start : run.Recovers o s := ⟨rfl, ⟨m, store, ordered, rfl⟩, creates, fun _ => rfl⟩
  have unchanged (n : Nat) : (advance n s run).1.new = new :=
    advance_induction (P := fun run _ => run.new = new) rfl (fun same steps => steps.new.trans same) n
  have recovers : (s.complete run).1.Recovers o (s.complete run).2 :=
    advance_induction (P := fun run s => run.Recovers o s) start (Run.Recovers.steps once) _
  obtain ⟨answer, returned⟩ := s.complete_returned run
  simp only [Run.Recovers, returned] at recovers
  obtain ⟨r, writes, own, settles, ⟨m', store', -, found⟩, -⟩ := recovers
  exact ⟨m', r, store', found, own.2.trans (unchanged _), settles.ended, settles.stranded⟩

def forgetful : Scheduler where
  clock := { now := ⟨0, 0⟩ }
  store := .memory .empty
  descriptors := .empty
  faults := Faults.none.plan .update 1 1
  bodies := fun _ _ _ => { work := .ends (.completed .null) }

def errand : NewExecution :=
  { key := ⟨.containerUpdate, .numeric 1⟩, environment := none, trigger := .manual }

theorem forgetful_recovers :
    ∃ m r, (forgetful.run errand).2.store = .memory m ∧ m.find? 1 = some r ∧
      (r.status = .running ↔ forgetful.guards.isHeld errand.key = false ∧
        forgetful.faults .update 1 = true) := by
  have ordered : MemoryStore.empty.Ordered := MemoryStore.Made.empty.ordered
  obtain ⟨m, r, store, found, -, -, stranded⟩ :=
    run_recovers (s := forgetful) rfl ordered rfl (by decide) errand false
  exact ⟨m, r, store, found, stranded⟩

theorem forgetful_strands :
    forgetful.faults .create 0 = false ∧ (∀ n, forgetful.faults .update n = true ↔ n = 1) ∧
      ∃ m r, (forgetful.run errand).2.store = .memory m ∧ m.find? 1 = some r ∧
        r.status = .running := by
  refine ⟨rfl, fun n => ?_, _, _, rfl, rfl, rfl⟩
  simp [forgetful, Faults.plan]
  omega

end Scheduler

end FleetOps
