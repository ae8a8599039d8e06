import FleetOps.Proofs.Scheduler.Effect

set_option autoImplicit false

namespace FleetOps

namespace Scheduler

variable {s s' : Scheduler} {run run' : Run} {r r' : ExecutionRecord}

theorem Steps.left (steps : s.Steps run run' s') : run'.phase ≠ .arrived := by
  cases steps with
  | @excuse q s' => cases q.skip alreadyRunning s'.clock.now <;> simp [Run.at, orReturn]
  | @begin q s' => cases q.start s'.clock.now <;> simp [Run.at, orLeave]
  | @work r body =>
    cases r.conclude (s.perform body.work).1 (s.perform body.work).2.clock.now <;>
      simp [Run.at, orLeave]
  | @write r next s' due =>
    generalize run.phase = phase at due
    cases due <;> simp [Run.at]
  | @refused r e next s' due =>
    generalize run.phase = phase at due
    cases due <;> simp [Run.at]
  | invoke here => exact nofun
  | rest here => simp [here]
  | _ => simp [Run.at]

theorem Steps.context (steps : s.Steps run run' s') (same : r'.id = r.id) :
    run'.context r' = run.context r := by
  unfold Run.context
  rw [same]
  cases steps <;> rfl

end Scheduler

def Run.call? (run : Run) : Option JobContext :=
  run.phase.begun?.map run.context

theorem Phase.id?_of_begun? {p : Phase} {r : ExecutionRecord} (h : p.begun? = some r) :
    p.id? = some r.id := by
  unfold begun? at h
  split at h <;> simp_all [id?, record?]

theorem Run.id?_of_call? {run : Run} {c : JobContext} (h : run.call? = some c) :
    run.phase.id? = some c.execution := by
  obtain ⟨r, begun, rfl⟩ := Option.map_eq_some_iff.mp h
  exact Phase.id?_of_begun? begun

namespace Workload

def prunesBy (w : Workload) : Move → Bool
  | .run i => w.runs[i]?.any Run.prunes
  | .toggle _ | .clock _ => false

def prunes (w : Workload) : List Move → Bool
  | [] => false
  | move :: rest => w.prunesBy move || (w.move move).prunes rest

def Owns (w : Workload) (i : Nat) (id : ExecutionId) : Prop :=
  ∃ run, w.runs[i]? = some run ∧ run.phase.id? = some id

def Tried (w : Workload) (i : Nat) (turned : Bool) : Prop :=
  ∃ run, w.runs[i]? = some run ∧ run.phase ≠ .arrived ∧ run.phase.turned = turned

/-- Runs that have yet to move, over a store in memory whose creates and updates do not fail. -/
structure Opens (w : Workload) (m : MemoryStore) : Prop where
  store : w.scheduler.store = .memory m
  made : m.Made
  unguarded : w.scheduler.guards = .empty
  spared : w.scheduler.faults.SparesStore
  arrived : ∀ run ∈ w.runs, run.phase = .arrived

/-- The books over a store, with the calls since the origin. -/
structure Ledger (o : Origin) (w : Workload) (m : MemoryStore) (calls : List JobContext) : Prop where
  store : w.scheduler.store = .memory m
  ordered : m.Ordered
  spared : w.scheduler.faults.SparesStore
  bodies : w.scheduler.bodies = o.bodies
  invoked : w.scheduler.invoked = o.invoked ++ calls
  sound : ∀ (i : Nat) (run : Run), w.runs[i]? = some run → run.Sound o m calls
  grown : o.store.lastId ≤ m.lastId
  given : ∀ i id, w.Owns i id → o.store.lastId < id ∧ id ≤ m.lastId
  apart : ∀ i j id, w.Owns i id → w.Owns j id → i = j
  old : ∀ id ≤ o.store.lastId, Kept o.prunes (o.store.find? id) (m.find? id)
  owned : ∀ id r, m.find? id = some r → o.store.lastId < id → ∃ i, w.Owns i id
  caller : ∀ c ∈ calls, ∃ (i : Nat) (run : Run), w.runs[i]? = some run ∧ run.call? = some c
  once : (calls.map (·.execution)).Nodup

structure MoveEffect (o : Origin) (w w' : Workload) (m m' : MemoryStore) (move : Move) : Prop where
  owns : ∀ i id, w.Owns i id → w'.Owns i id
  tried : ∀ i turned, w.Tried i turned → w'.Tried i turned
  frame : ∀ id, (∀ i, move = .run i → ¬ w'.Owns i id) → Kept o.prunes (m.find? id) (m'.find? id)

variable {o : Origin} {w w' : Workload} {m m' : MemoryStore} {calls : List JobContext} {move : Move}

theorem Opens.ledger (opens : w.Opens m) (prunes : Prop) :
    w.Ledger ⟨m, w.scheduler.bodies, w.scheduler.invoked, prunes⟩ m [] := by
  have arrived (i : Nat) (run : Run) (there : w.runs[i]? = some run) : run.phase = .arrived :=
    opens.arrived run (List.mem_of_getElem? there)
  have unowned (i : Nat) (id : ExecutionId) : ¬ w.Owns i id := by
    rintro ⟨run, there, own⟩
    simp [arrived i run there, Phase.id?, Phase.record?] at own
  exact {
    store := opens.store
    ordered := opens.made.ordered
    spared := opens.spared
    bodies := rfl
    invoked := by simp
    sound := fun i run there => by simp [Run.Sound, arrived i run there]
    grown := Nat.le_refl _
    given := fun i id own => absurd own (unowned i id)
    apart := fun i _ id own => absurd own (unowned i id)
    old := fun _ _ => .refl _
    owned := fun id r found fresh => by simp [opens.made.ordered.find?_fresh fresh] at found
    caller := by simp
    once := .nil }

theorem Ledger.aside (ledger : w.Ledger o m calls) (runs : w'.runs = w.runs)
    (frame : w.scheduler.Frame w'.scheduler) (store : w'.scheduler.store = w.scheduler.store) :
    w'.Ledger o m calls := by
  have owns (i : Nat) (id : ExecutionId) : w'.Owns i id ↔ w.Owns i id := by simp [Owns, runs]
  exact { ledger with
    store := store.trans ledger.store
    spared := frame.spares ledger.spared
    bodies := frame.bodies.trans ledger.bodies
    invoked := frame.invoked.trans ledger.invoked
    sound := runs ▸ ledger.sound
    given := fun i id own => ledger.given i id ((owns i id).mp own)
    apart := fun i j id own own' => ledger.apart i j id ((owns i id).mp own) ((owns j id).mp own')
    owned := fun id r found fresh =>
      (ledger.owned id r found fresh).imp fun i own => (owns i id).mpr own
    caller := runs ▸ ledger.caller }

theorem MoveEffect.aside (runs : w'.runs = w.runs) : MoveEffect o w w' m m move where
  owns := fun _ _ ⟨run, there, own⟩ => ⟨run, runs ▸ there, own⟩
  tried := fun _ _ ⟨run, there, tried⟩ => ⟨run, runs ▸ there, tried⟩
  frame := fun _ _ => .refl _

section
variable {s : Scheduler} {run run' : Run} {i : Nat} {calls' : List JobContext}

theorem Ledger.step (ledger : w.Ledger o m calls) (there : w.runs[i]? = some run)
    (steps : w.scheduler.Steps run run' s) (store : s.store = .memory m')
    (invoked : s.invoked = o.invoked ++ calls') (effect : StepEffect o m m' calls calls' run run')
    (after : w' = { w with scheduler := s, runs := w.runs.set i run' }) : w'.Ledger o m' calls' := by
  have scheduler : w'.scheduler = s := by rw [after]
  have runs (j : Nat) : w'.runs[j]? = if j = i then some run' else w.runs[j]? := by
    rw [after]
    exact getElem?_set_run there run' j
  have owns (j : Nat) (id : ExecutionId) :
      w'.Owns j id ↔ if j = i then run'.phase.id? = some id else w.Owns j id := by
    by_cases same : j = i <;> simp [Owns, runs, same]
  have own {id : ExecutionId} (h : run.phase.id? = some id) : w.Owns i id := ⟨run, there, h⟩
  have newer {id : ExecutionId} (h : run'.phase.id? = some id) :
      o.store.lastId < id ∧ id ≤ m'.lastId := by
    obtain before | ⟨rfl, last⟩ := effect.fresh id h
    · exact (ledger.given i id (own before)).imp_right (Nat.le_trans · effect.grown)
    · exact ⟨Nat.lt_succ_of_le ledger.grown, Nat.le_of_eq last.symm⟩
  -- What others own is not what this run owns after its step.
  have foreign {j : Nat} {id : ExecutionId} (h : w.Owns j id) (other : j ≠ i) :
      run'.phase.id? ≠ some id := by
    intro same
    obtain before | ⟨rfl, -⟩ := effect.fresh id same
    · exact other (ledger.apart j i id h (own before))
    · exact absurd (ledger.given j _ h).2 (Nat.not_succ_le_self _)
  have calling {c : JobContext} (h : run.call? = some c) : run'.call? = some c := by
    obtain ⟨r, begun, rfl⟩ := Option.map_eq_some_iff.mp h
    obtain ⟨r', begun', same⟩ := effect.begun r begun
    simp [Run.call?, begun', steps.context same]
  have callers {c : JobContext} (mem : c ∈ calls) :
      ∃ (j : Nat) (run₁ : Run), w'.runs[j]? = some run₁ ∧ run₁.call? = some c := by
    obtain ⟨j, run₁, there₁, call⟩ := ledger.caller c mem
    by_cases same : j = i
    · obtain rfl : run = run₁ := by simpa [same, there] using there₁
      exact ⟨i, run', by simp [runs], calling call⟩
    · exact ⟨j, run₁, by simp [runs, same, there₁], call⟩
  exact {
    store := scheduler ▸ store
    ordered := effect.ordered
    spared := scheduler ▸ steps.kept.2 ledger.spared
    bodies := scheduler ▸ steps.kept.1.trans ledger.bodies
    invoked := scheduler ▸ invoked
    sound := by
      intro j run₁ there₁
      rw [runs] at there₁
      split_ifs at there₁ with same
      · cases there₁
        exact effect.sound
      · obtain ⟨extra, rfl⟩ : ∃ extra, calls' = calls ++ extra := by
          obtain rfl | ⟨r, -, -, rfl⟩ := effect.called
          · exact ⟨[], by simp⟩
          · exact ⟨_, rfl⟩
        refine (ledger.sound j run₁ there₁).frame fun r working => effect.frame r.id ?_
        exact foreign ⟨run₁, there₁, by simp [Phase.id?, working]⟩ same
    grown := Nat.le_trans ledger.grown effect.grown
    given := by
      intro j id h
      rw [owns] at h
      split_ifs at h
      · exact newer h
      · exact (ledger.given j id h).imp_right (Nat.le_trans · effect.grown)
    apart := by
      intro j k id hj hk
      rw [owns] at hj hk
      split_ifs at hj hk with first second second
      · rw [first, second]
      · exact absurd hj (foreign hk second)
      · exact absurd hk (foreign hj first)
      · exact ledger.apart j k id hj hk
    old := by
      intro id known
      refine (ledger.old id known).trans (effect.frame id fun h => ?_)
      exact absurd (newer h).1 (Nat.not_lt.mpr known)
    owned := by
      intro id r found fresh
      by_cases mine : run'.phase.id? = some id
      · exact ⟨i, (owns i id).mpr (by simp [mine])⟩
      · obtain ⟨j, h⟩ := ledger.owned id r (found ▸ effect.frame id mine).before fresh
        have other : j ≠ i := by
          rintro rfl
          obtain ⟨run₁, there₁, before⟩ := h
          obtain rfl : run = run₁ := by simpa [there] using there₁
          exact mine (effect.lasting id before)
        exact ⟨j, (owns j id).mpr (by simp [other, h])⟩
    caller := by
      intro c mem
      obtain rfl | ⟨r, ready, begun, rfl⟩ := effect.called
      · exact callers mem
      · obtain old | new := List.mem_append.mp mem
        · exact callers old
        · obtain rfl : c = run.context r := by simpa using new
          exact ⟨i, run', by simp [runs], by simp [Run.call?, begun, steps.context rfl]⟩
    once := by
      obtain rfl | ⟨r, ready, -, rfl⟩ := effect.called
      · exact ledger.once
      · have unbegun (c : JobContext) (mem : c ∈ calls) : c.execution ≠ r.id := by
          intro same
          obtain ⟨j, run₁, there₁, call⟩ := ledger.caller c mem
          obtain rfl : j = i := ledger.apart j i r.id
            ⟨run₁, there₁, same ▸ Run.id?_of_call? call⟩ (own (by rw [ready]; rfl))
          obtain rfl : run = run₁ := by simpa [there] using there₁
          simp [Run.call?, ready, Phase.begun?] at call
        rw [List.map_append, List.nodup_append]
        refine ⟨ledger.once, by simp, ?_⟩
        simpa [Run.context] using unbegun }

theorem MoveEffect.step (there : w.runs[i]? = some run) (steps : w.scheduler.Steps run run' s)
    (effect : StepEffect o m m' calls calls' run run')
    (after : w' = { w with scheduler := s, runs := w.runs.set i run' }) :
    MoveEffect o w w' m m' (.run i) := by
  have runs (j : Nat) : w'.runs[j]? = if j = i then some run' else w.runs[j]? := by
    rw [after]
    exact getElem?_set_run there run' j
  refine ⟨?_, ?_, ?_⟩
  · rintro j id ⟨run₁, there₁, own⟩
    by_cases same : j = i
    · obtain rfl : run = run₁ := by simpa [same, there] using there₁
      exact ⟨run', by simp [runs, same], effect.lasting id own⟩
    · exact ⟨run₁, by simp [runs, same, there₁], own⟩
  · rintro j turned ⟨run₁, there₁, tried, told⟩
    by_cases same : j = i
    · obtain rfl : run = run₁ := by simpa [same, there] using there₁
      have still := effect.turned.resolve_left tried
      exact ⟨run', by simp [runs, same], steps.left, still.trans told⟩
    · exact ⟨run₁, by simp [runs, same, there₁], tried, told⟩
  · intro id other
    exact effect.frame id fun own => other i rfl ⟨run', by simp [runs], own⟩

end

theorem Ledger.goes (ledger : w.Ledger o m calls) (goes : w.Goes move w')
    (may : w.prunesBy move = true → o.prunes) :
    ∃ m' calls', w'.Ledger o m' calls' ∧ MoveEffect o w w' m m' move := by
  cases goes with
  | aside runs frame store => exact ⟨m, calls, ledger.aside runs frame store, .aside runs⟩
  | @run i run run' s there steps =>
    obtain ⟨m', calls', store, invoked, effect⟩ := steps.effect ledger.store ledger.ordered
      ledger.spared ledger.bodies ledger.invoked (fun prunes => may (by simp [prunesBy, there, prunes]))
      (ledger.sound i run there)
    exact ⟨m', calls', ledger.step there steps store invoked effect rfl, .step there steps effect rfl⟩

theorem Ledger.moves (ledger : w.Ledger o m calls) (moves : List Move)
    (may : w.prunes moves = true → o.prunes) :
    ∃ m' calls', (w.moves moves).Ledger o m' calls' ∧
      (∀ i id, w.Owns i id → (w.moves moves).Owns i id) ∧
      ∀ i turned, w.Tried i turned → (w.moves moves).Tried i turned := by
  induction moves generalizing w m calls with
  | nil => exact ⟨m, calls, ledger, fun _ _ h => h, fun _ _ h => h⟩
  | cons move rest ih =>
    obtain ⟨m₁, calls₁, ledger₁, effect⟩ := ledger.goes (w.goes_move move) fun h => may (by simp [prunes, h])
    obtain ⟨m', calls', ledger', owns, tried⟩ := ih ledger₁ fun h => may (by simp [prunes, h])
    exact ⟨m', calls', ledger', fun i id h => owns i id (effect.owns i id h),
      fun i turned h => tried i turned (effect.tried i turned h)⟩

end Workload

end FleetOps
