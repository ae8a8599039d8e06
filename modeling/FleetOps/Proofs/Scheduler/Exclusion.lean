import FleetOps.Proofs.Scheduler.Entry

set_option autoImplicit false

namespace FleetOps

open ExecutionRecord

def Run.executes (run : Run) : Bool :=
  match run.phase with
  | .working _ _ => true
  | _ => false

def MemoryStore.running (m : MemoryStore) (k : ScheduleKey) : List ExecutionRecord :=
  m.records.filter fun r => r.key = k ∧ r.status = .running

def RunAnswer.BusyAmong (answer : RunAnswer) (calls : List JobContext) : Prop :=
  ∃ r, answer = .ok r ∧ r.BusySkip ∧ ∀ c ∈ calls, c.execution ≠ r.id

theorem Run.Sound.running {o : Origin} {m : MemoryStore} {calls : List JobContext} {run : Run}
    {id : ExecutionId} {q : ExecutionRecord} (sound : run.Sound o m calls)
    (own : run.phase.id? = some id) (found : m.find? id = some q) (running : q.status = .running) :
    run.phase.holdsGuard = true ∧ q.key = run.key := by
  have keyed {r : ExecutionRecord} (purpose : r.purpose = run.new) : r.key = run.key :=
    congrArg NewExecution.key purpose
  -- A record that has ended is not running, whether it is still there or not.
  have ended {r : ExecutionRecord} (terminal : r.status.isTerminal = true)
      (kept : Kept o.prunes (some r) (m.find? id)) : False := by
    obtain same | ⟨-, gone, -⟩ := kept
    · obtain rfl : q = r := by simpa [found] using same
      simp [running, ExecutionStatus.isTerminal] at terminal
    · simp [found] at gone
  obtain ⟨r, record, rfl⟩ := Option.map_eq_some_iff.mp own
  unfold Run.Sound at sound
  generalize run.phase = phase at sound record ⊢
  cases phase with
  | arrived | turnedAway | admitted => simp [Phase.record?] at record
  | unskipped | unstarted => exact sound.elim
  | skipping | starting =>
    obtain rfl := Option.some.inj record
    simp_all
  | ready =>
    obtain rfl := Option.some.inj record
    obtain rfl := Option.some.inj (found.symm.trans sound.2.2.2)
    exact ⟨rfl, keyed sound.1⟩
  | working =>
    obtain rfl := Option.some.inj record
    obtain rfl := Option.some.inj (found.symm.trans sound.2.2.2.1)
    exact ⟨rfl, keyed sound.1⟩
  | ending =>
    obtain rfl := Option.some.inj record
    obtain ⟨-, q', found', -, purpose⟩ := sound
    obtain rfl := Option.some.inj (found.symm.trans found')
    exact ⟨rfl, keyed purpose⟩
  | leaving answer =>
    cases answer with
    | error e => exact sound.elim
    | ok =>
      obtain rfl := Option.some.inj record
      exact (ended sound.1.terminal sound.2).elim
  | returned answer =>
    cases answer with
    | error e => exact sound.elim
    | ok =>
      obtain rfl := Option.some.inj record
      obtain ⟨served | ⟨-, busy⟩, kept⟩ := sound
      · exact (ended served.terminal kept).elim
      · exact (ended (by rw [busy.status]; rfl) kept).elim

namespace Workload

variable {o : Origin} {w : Workload} {m : MemoryStore} {calls : List JobContext}

theorem Guarded.executing (guarded : w.Guarded) (k : ScheduleKey) :
    (w.runs.filter fun run => run.key = k ∧ run.executes = true).length ≤ 1 := by
  have holds (i : Nat) (run : Run) (there : w.runs[i]? = some run)
      (executes : run.key = k ∧ run.executes = true) : w.Holds i k := by
    refine ⟨run, there, executes.1, ?_⟩
    have executes := executes.2
    cases here : run.phase <;> simp_all [Run.executes, Phase.holdsGuard]
  refine length_filter_le_one fun i j a b hi hj pa pb => ?_
  exact guarded.alone (holds i a hi (by simpa using pa)) (holds j b hj (by simpa using pb))

theorem Ledger.running (ledger : w.Ledger o m calls) (guarded : w.Guarded)
    (idle : ∀ r ∈ o.store.records, r.status ≠ .running) (before : o.store.Ordered) (k : ScheduleKey) :
    (m.running k).length ≤ 1 := by
  -- A running record is of a run that holds the guard of the key.
  have holder {r : ExecutionRecord} (mem : r ∈ m.running k) : ∃ i, w.Holds i k ∧ w.Owns i r.id := by
    obtain ⟨mem, key, running⟩ : r ∈ m.records ∧ r.key = k ∧ r.status = .running := by
      simpa [MemoryStore.running] using mem
    have found := (MemoryStore.find?_eq_some ledger.ordered).mpr ⟨mem, rfl⟩
    obtain fresh | known := Nat.lt_or_ge o.store.lastId r.id
    · obtain ⟨i, run, there, own⟩ := ledger.owned r.id r found fresh
      obtain ⟨holds, same⟩ := (ledger.sound i run there).running own found running
      exact ⟨i, ⟨run, there, same.symm.trans key, holds⟩, run, there, own⟩
    · have old := (found ▸ ledger.old r.id known).before
      exact absurd running (idle r ((MemoryStore.find?_eq_some before).mp old).1)
  have rising : (m.running k).Pairwise fun a b => a.id < b.id := ledger.ordered.rising.filter _
  match listed : m.running k with
  | [] | [_] => simp
  | a :: b :: rest =>
    obtain ⟨i, holds, run, there, own⟩ := holder (r := a) (by simp [listed])
    obtain ⟨j, holds', run', there', own'⟩ := holder (r := b) (by simp [listed])
    obtain rfl := guarded.alone holds holds'
    obtain rfl : run = run' := by simpa [there] using there'
    have less : a.id < b.id := by
      rw [listed] at rising
      exact (List.pairwise_cons.mp rising).1 b (by simp)
    exact absurd (Option.some.inj (own.symm.trans own')) (Nat.ne_of_lt less)

theorem Opens.guarded (opens : w.Opens m) : w.Guarded := by
  have unheld (i : Nat) (k : ScheduleKey) : ¬ w.Holds i k := by
    rintro ⟨run, there, -, holds⟩
    simp [opens.arrived run (List.mem_of_getElem? there), Phase.holdsGuard] at holds
  refine ⟨fun k => ?_, fun h => absurd h (unheld _ _)⟩
  simp [opens.unguarded, GuardTable.isHeld, GuardTable.empty, unheld]

/-- Runs of a key exclude each other, in their bodies, in the store and in their answers. -/
structure Exclusive (w : Workload) (moves : List Move) : Prop where
  guards : ∀ k, (w.moves moves).scheduler.guards.isHeld k = true ↔ ∃ i, (w.moves moves).Holds i k
  executing : ∀ k,
    ((w.moves moves).runs.filter fun run => run.key = k ∧ run.executes = true).length ≤ 1
  running : ∃ m, (w.moves moves).scheduler.store = .memory m ∧ ∀ k, (m.running k).length ≤ 1
  busy_iff : ∀ (i : Nat) (run : Run) (answer : RunAnswer),
    (w.moves moves).runs[i]? = some run → run.phase = .returned answer →
      (answer.BusyAmong (w.callsSince (w.moves moves)) ↔
        ∃ j, j ≠ i ∧ (w.entry moves i).Holds j run.key)

theorem runs_exclude (opens : w.Opens m) (idle : ∀ r ∈ m.records, r.status ≠ .running)
    (moves : List Move) : w.Exclusive moves := by
  obtain ⟨m', calls, ledger, -⟩ := (opens.ledger True).moves moves fun _ => trivial
  have guarded := opens.guarded.moves moves
  have called : w.callsSince (w.moves moves) = calls := ledger.callsSince rfl
  refine ⟨guarded.held_iff, guarded.executing, ⟨m', ledger.store, ?_⟩, ?_⟩
  · exact ledger.running guarded idle opens.made.ordered
  · intro i run answer there returned
    obtain ⟨r, rfl, -, -, ends⟩ := (ledger.sound i run there).answered returned
    obtain ⟨run₀, there₀, arrived, -, turned⟩ := opens.turned_iff there (by simp [returned])
    have held : run.phase.turned = true ↔ ∃ j, (w.entry moves i).Holds j run.key := by
      rw [turned]
      exact (opens.guarded.moves _).held_iff run.key
    constructor
    · rintro ⟨r', same, busy, -⟩
      cases same
      obtain ⟨j, holds⟩ := held.mp (by simp [returned, Phase.turned, busy.unstarted])
      refine ⟨j, ?_, holds⟩
      -- The run itself has yet to take its guard.
      rintro rfl
      obtain ⟨run₁, there₁, -, holds⟩ := holds
      obtain rfl : run₀ = run₁ := by simpa [there₀] using there₁
      simp [arrived, Phase.holdsGuard] at holds
    · rintro ⟨j, -, holds⟩
      obtain ⟨-, busy⟩ | ⟨unturned, -⟩ := ends
      · exact ⟨r, rfl, busy, called ▸ ledger.uncalled there returned busy.unstarted⟩
      · simp [held.mpr ⟨j, holds⟩] at unturned

def rivals : Workload where
  scheduler :=
    { clock := { now := ⟨0, 0⟩ }, store := .memory .empty, descriptors := .empty,
      bodies := fun _ _ _ => { work := .ends (.completed .null) } }
  runs :=
    [{ new := ⟨⟨.containerUpdate, .numeric 1⟩, none, .cron⟩ },
     { new := ⟨⟨.containerUpdate, .numeric 1⟩, none, .manual⟩ }]

theorem rivals_open : rivals.Opens .empty where
  store := rfl
  made := .empty
  unguarded := rfl
  spared := fun _ => ⟨rfl, rfl⟩
  arrived := by simp [rivals]

theorem rivals_exclude : rivals.Exclusive [.run 0, .run 1, .run 0, .run 1, .run 0, .run 1] :=
  runs_exclude rivals_open (by simp [MemoryStore.empty]) _

end Workload

end FleetOps
