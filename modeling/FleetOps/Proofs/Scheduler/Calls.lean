import FleetOps.Proofs.Store.Memory
import FleetOps.Scheduler.Concurrent

set_option autoImplicit false

namespace FleetOps

def Faults.SparesStore (f : Faults) : Prop :=
  ∀ n, f .create n = false ∧ f .update n = false

theorem Faults.SparesStore.passed {f : Faults} (spared : f.SparesStore) (p : FaultPoint) :
    (f.passed p).SparesStore := by
  intro n
  simp only [Faults.passed]
  split_ifs <;> simp [(spared _).1, (spared _).2]

namespace Scheduler

variable {s s' : Scheduler} {m m' : MemoryStore}

structure Frame (s s' : Scheduler) : Prop where
  guards : s'.guards = s.guards
  invoked : s'.invoked = s.invoked
  bodies : s'.bodies = s.bodies
  spares : s.faults.SparesStore → s'.faults.SparesStore

theorem Frame.refl (s : Scheduler) : s.Frame s :=
  ⟨rfl, rfl, rfl, id⟩

theorem Frame.kept (frame : s.Frame s') :
    s'.bodies = s.bodies ∧ (s.faults.SparesStore → s'.faults.SparesStore) :=
  ⟨frame.bodies, frame.spares⟩

theorem passed_frame (s : Scheduler) (p : FaultPoint) :
    s.Frame { s with faults := s.faults.passed p } :=
  ⟨rfl, rfl, rfl, (·.passed p)⟩

theorem attempt_frame {α : Type} {p : FaultPoint}
    {call : Scheduler → Except SchedulerError α × Scheduler}
    (made : s.Frame (call { s with faults := s.faults.passed p }).2) :
    s.Frame (s.attempt p call).2 := by
  unfold attempt
  split
  · exact passed_frame s p
  · exact made

theorem onStore_frame {α : Type} (p : FaultPoint) (call : Store → Except SchedulerError α × Store) :
    s.Frame (s.attempt p (onStore call)).2 :=
  attempt_frame ⟨rfl, rfl, rfl, (·.passed p)⟩

theorem create_frame (s : Scheduler) (new : NewExecution) : s.Frame (s.create new).2 :=
  onStore_frame _ _

theorem update_frame (s : Scheduler) (r : ExecutionRecord) : s.Frame (s.update r).2 :=
  onStore_frame _ _

theorem prune_frame (s : Scheduler) (cutoff : Instant) : s.Frame (s.prune cutoff).2 :=
  onStore_frame _ _

theorem perform_state (s : Scheduler) (work : JobWork) :
    (s.perform work).2 = s ∨
      ∃ days cutoff, work = .prunes days ∧ (s.perform work).2 = (s.prune cutoff).2 := by
  cases work with
  | ends e => exact .inl rfl
  | prunes days =>
    unfold perform
    dsimp only
    generalize s.clock.now.minusDays? days = cutoff?
    cases cutoff? with
    | none => exact .inl rfl
    | some cutoff =>
      refine .inr ⟨days, cutoff, rfl, ?_⟩
      dsimp only
      split <;> simp_all

theorem perform_frame (s : Scheduler) (work : JobWork) : s.Frame (s.perform work).2 := by
  obtain same | ⟨_, cutoff, -, pruned⟩ := s.perform_state work
  · rw [same]
    exact Frame.refl s
  · rw [pruned]
    exact s.prune_frame cutoff

theorem describe_frame (s : Scheduler) (k : ScheduleKey) :
    s.Frame (s.describe k).2 ∧ (s.describe k).2.store = s.store := by
  unfold describe
  refine ⟨attempt_frame ⟨rfl, rfl, rfl, (·.passed _)⟩, ?_⟩
  unfold attempt
  split <;> rfl

theorem setEnabled_frame (s : Scheduler) (k : ScheduleKey) (enabled : Bool) :
    s.Frame (s.setEnabled k enabled).2 ∧ (s.setEnabled k enabled).2.store = s.store := by
  unfold setEnabled attempt
  split
  · exact ⟨passed_frame s _, rfl⟩
  · dsimp only
    split
    · exact ⟨⟨rfl, rfl, rfl, fun h => (h.passed _).passed _⟩, rfl⟩
    · exact ⟨⟨rfl, rfl, rfl, fun h => (h.passed _).passed _⟩, rfl⟩

theorem stepToggle_frame (s : Scheduler) (t : Toggle) :
    s.Frame (s.stepToggle t).2 ∧ (s.stepToggle t).2.store = s.store := by
  have described := s.describe_frame t.key
  have set := s.setEnabled_frame t.key t.enabled
  unfold stepToggle
  cases t.phase with
  | asked =>
    dsimp only
    split <;> simp_all
    split <;> simp_all
  | known current =>
    dsimp only
    split <;> simp_all
  | written =>
    dsimp only
    split
    · split <;> simp_all
    · exact ⟨⟨rfl, rfl, rfl, id⟩, rfl⟩
  | reread d =>
    dsimp only
    split <;> exact ⟨⟨rfl, rfl, rfl, id⟩, rfl⟩
  | answered result => exact ⟨Frame.refl s, rfl⟩

theorem create_memory (store : s.store = .memory m) (spared : s.faults.SparesStore)
    (new : NewExecution) :
    ∃ s', s.create new = (.ok (m.create new s.clock.now).1, s') ∧
      s'.store = .memory (m.create new s.clock.now).2 := by
  have passes : s.faults.due .create = false := (spared 0).1
  simp [create, attempt, onStore, passes, store, Store.create]

theorem update_memory {r : ExecutionRecord} (store : s.store = .memory m)
    (spared : s.faults.SparesStore) (updated : m.update r = .ok m') :
    ∃ s', s.update r = (.ok (), s') ∧ s'.store = .memory m' := by
  have passes : s.faults.due .update = false := (spared 0).2
  simp [update, attempt, onStore, passes, store, Store.update, updated]

theorem prune_memory (store : s.store = .memory m) (cutoff : Instant) :
    (s.prune cutoff).2.store = .memory m ∨ (s.prune cutoff).2.store = .memory (m.prune cutoff).2 := by
  unfold prune attempt
  split
  · exact .inl store
  · exact .inr (by simp [onStore, store, Store.prune])

theorem perform_memory (store : s.store = .memory m) (work : JobWork) :
    (s.perform work).2.store = .memory m ∨
      ∃ days cutoff, work = .prunes days ∧ (s.perform work).2.store = .memory (m.prune cutoff).2 := by
  obtain same | ⟨days, cutoff, prunes, pruned⟩ := s.perform_state work
  · exact .inl (by rw [same, store])
  · rw [pruned]
    exact (prune_memory store cutoff).imp_right fun h => ⟨days, cutoff, prunes, h⟩

end Scheduler

end FleetOps
