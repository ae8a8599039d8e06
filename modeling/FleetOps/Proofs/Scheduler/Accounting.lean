import FleetOps.Proofs.Scheduler.Exclusion
import Mathlib.Data.List.Nodup
import Mathlib.Data.Set.List

set_option autoImplicit false

namespace FleetOps

open ExecutionRecord

def Run.done (run : Run) : Bool :=
  match run.phase with
  | .returned _ => true
  | _ => false

namespace Workload

structure RunAccounted (w : Workload) (calls : List JobContext) (busy : Bool) (run : Run)
    (r : ExecutionRecord) : Prop where
  purpose : r.purpose = run.new
  terminal : r.status.isTerminal = true
  turnedAway : busy = true → r.BusySkip ∧ ∀ c ∈ calls, c.execution ≠ r.id
  served : busy = false → ∃ earlier later e,
    calls = earlier ++ run.context r :: later ∧ (∀ c ∈ earlier ++ later, c.execution ≠ r.id) ∧
      (w.scheduler.bodies run.key.kind (callsIn (w.scheduler.invoked ++ earlier) run.key.kind)
        (run.context r)).work = .ends e ∧ r.Reports e

/-- The books of a workload after moves by which all runs have returned. -/
structure Accounted (w : Workload) (m : MemoryStore) (moves : List Move) (m' : MemoryStore)
    (records : List ExecutionRecord) : Prop where
  store : (w.moves moves).scheduler.store = .memory m'
  answers : (w.moves moves).runs.map Run.answer = records.map .ok
  stored : m'.records.Perm (m.records ++ records)
  distinct : ((m.records ++ records).map (·.id)).Nodup
  callers : ∀ c ∈ w.callsSince (w.moves moves), ∃ r ∈ records, c.execution = r.id
  runs : ∀ (i : Nat) (run : Run) (r : ExecutionRecord), w.runs[i]? = some run → records[i]? = some r →
    w.RunAccounted (w.callsSince (w.moves moves))
      ((w.entry moves i).scheduler.guards.isHeld run.key) run r
  untouched : ∀ before i rest, moves = before ++ .run i :: rest →
    ∀ id, (∀ r, records[i]? = some r → r.id ≠ id) →
      ((w.moves before).move (.run i)).scheduler.store.find? id =
        (w.moves before).scheduler.store.find? id

variable {o : Origin} {w : Workload} {m m' : MemoryStore} {calls : List JobContext} {moves : List Move}
  {records : List ExecutionRecord}

theorem prunes_append (w : Workload) (first rest : List Move) :
    w.prunes (first ++ rest) = (w.prunes first || (w.moves first).prunes rest) := by
  induction first generalizing w with
  | nil => rfl
  | cons move first ih => simp only [List.cons_append, prunes, ih, Bool.or_assoc]; rfl

structure Returned (o : Origin) (w : Workload) (m : MemoryStore) (calls : List JobContext)
    (records : List ExecutionRecord) : Prop where
  ledger : w.Ledger o m calls
  unpruned : ¬ o.prunes
  answers : w.runs.map Run.answer = records.map .ok
  record : ∀ {i : Nat} {run : Run}, w.runs[i]? = some run →
    ∃ r, records[i]? = some r ∧ run.phase = .returned (.ok r)
  run : ∀ {i : Nat} {r : ExecutionRecord}, records[i]? = some r →
    ∃ run, w.runs[i]? = some run ∧ run.phase = .returned (.ok r)

theorem Ledger.returned (ledger : w.Ledger o m calls) (unpruned : ¬ o.prunes)
    (done : ∀ run ∈ w.runs, run.done = true) : ∃ records, w.Returned o m calls records := by
  have answered (i : Nat) (run : Run) (there : w.runs[i]? = some run) :
      ∃ r, run.phase = .returned (.ok r) := by
    have ends := done run (List.mem_of_getElem? there)
    cases here : run.phase with
    | returned answer =>
      obtain ⟨r, rfl, -⟩ := (ledger.sound i run there).answered here
      exact ⟨r, rfl⟩
    | _ => simp [Run.done, here] at ends
  obtain ⟨records, same⟩ : w.runs.map Run.answer ∈ Set.range (List.map Except.ok) := by
    rw [Set.range_list_map]
    intro answer given
    obtain ⟨run, mem, rfl⟩ := List.mem_map.mp given
    obtain ⟨i, there⟩ := List.mem_iff_getElem?.mp mem
    obtain ⟨r, returned⟩ := answered i run there
    exact ⟨r, by simp [Run.answer, returned]⟩
  have places (i : Nat) : records[i]?.map Except.ok = w.runs[i]?.map Run.answer := by
    simpa using congrArg (·[i]?) same
  refine ⟨records, ledger, unpruned, same.symm, ?_, ?_⟩
  · intro i run there
    obtain ⟨r, returned⟩ := answered i run there
    have place := places i
    simp only [there, Run.answer, returned, Option.map_some] at place
    obtain ⟨r', here, same⟩ := Option.map_eq_some_iff.mp place
    cases same
    exact ⟨r, here, returned⟩
  · intro i r here
    have place := (places i).symm
    simp only [here, Option.map_some] at place
    obtain ⟨run, there, answer⟩ := Option.map_eq_some_iff.mp place
    obtain ⟨r', returned⟩ := answered i run there
    simp only [Run.answer, returned] at answer
    cases answer
    exact ⟨run, there, returned⟩

namespace Returned

theorem owns (returned : w.Returned o m calls records) {i : Nat} {r : ExecutionRecord}
    (here : records[i]? = some r) : w.Owns i r.id := by
  obtain ⟨run, there, ends⟩ := returned.run here
  exact ⟨run, there, by rw [ends]; rfl⟩

theorem owner (returned : w.Returned o m calls records) {i : Nat} {id : ExecutionId}
    (own : w.Owns i id) : ∃ r, records[i]? = some r ∧ r.id = id := by
  obtain ⟨run, there, own⟩ := own
  obtain ⟨r, here, ends⟩ := returned.record there
  exact ⟨r, here, by simpa [ends, Phase.id?, Phase.record?] using own⟩

theorem find? (returned : w.Returned o m calls records) {i : Nat} {r : ExecutionRecord}
    (here : records[i]? = some r) : m.find? r.id = some r := by
  obtain ⟨run, there, ends⟩ := returned.run here
  obtain ⟨r', same, -, kept, -⟩ := (returned.ledger.sound i run there).answered ends
  cases same
  exact kept.of_not returned.unpruned

theorem distinct (returned : w.Returned o m calls records) (before : o.store.Ordered) :
    ((o.store.records ++ records).map (·.id)).Nodup := by
  rw [List.map_append, List.nodup_append]
  refine ⟨before.nodup_ids, ?_, ?_⟩
  · rw [List.Nodup, List.pairwise_map, List.pairwise_iff_getElem]
    intro i j hi hj less same
    have own := returned.owns (List.getElem?_eq_getElem hi)
    have own' := returned.owns (List.getElem?_eq_getElem hj)
    exact Nat.ne_of_lt less (returned.ledger.apart i j _ own (same ▸ own'))
  · intro id old id' new
    obtain ⟨q, mem, rfl⟩ := List.mem_map.mp old
    obtain ⟨r, mem', rfl⟩ := List.mem_map.mp new
    obtain ⟨i, here⟩ := List.mem_iff_getElem?.mp mem'
    exact Nat.ne_of_lt (Nat.lt_of_le_of_lt (before.given q mem)
      (returned.ledger.given i r.id (returned.owns here)).1)

theorem stored (returned : w.Returned o m calls records) (before : o.store.Ordered) :
    m.records.Perm (o.store.records ++ records) := by
  have ledger := returned.ledger
  have ordered := ledger.ordered
  refine (List.perm_ext_iff_of_nodup (List.Nodup.of_map _ ordered.nodup_ids)
    (List.Nodup.of_map _ (returned.distinct before))).mpr fun r => ?_
  rw [List.mem_append]
  constructor
  · intro mem
    have found := (MemoryStore.find?_eq_some ordered).mpr ⟨mem, rfl⟩
    obtain fresh | known := Nat.lt_or_ge o.store.lastId r.id
    · obtain ⟨i, own⟩ := ledger.owned r.id r found fresh
      obtain ⟨r', here, same⟩ := returned.owner own
      obtain rfl : r' = r := by simpa [same, found] using (returned.find? here).symm
      exact .inr (List.mem_of_getElem? here)
    · have old := (ledger.old r.id known).of_not returned.unpruned
      exact .inl ((MemoryStore.find?_eq_some before).mp (old.symm.trans found)).1
  · rintro (old | new)
    · have kept := (ledger.old r.id (before.given r old)).of_not returned.unpruned
      have found := (MemoryStore.find?_eq_some before).mpr ⟨old, rfl⟩
      exact ((MemoryStore.find?_eq_some ordered).mp (kept.trans found)).1
    · obtain ⟨i, here⟩ := List.mem_iff_getElem?.mp new
      exact ((MemoryStore.find?_eq_some ordered).mp (returned.find? here)).1

theorem callers (returned : w.Returned o m calls records) {c : JobContext} (mem : c ∈ calls) :
    ∃ r ∈ records, c.execution = r.id := by
  obtain ⟨i, run, there, call⟩ := returned.ledger.caller c mem
  obtain ⟨r, here, same⟩ := returned.owner ⟨run, there, Run.id?_of_call? call⟩
  exact ⟨r, List.mem_of_getElem? here, same.symm⟩

theorem served (returned : w.Returned o m calls records) {run : Run} {r : ExecutionRecord}
    (served : run.Served o calls r) :
    ∃ earlier later e, calls = earlier ++ run.context r :: later ∧
      (∀ c ∈ earlier ++ later, c.execution ≠ r.id) ∧
        (o.bodies run.key.kind (callsIn (o.invoked ++ earlier) run.key.kind) (run.context r)).work =
          .ends e ∧ r.Reports e := by
  obtain ⟨body, ⟨earlier, later, split, chosen⟩, ends | pruned⟩ := served.reports
  · obtain ⟨e, work, reports⟩ := ends
    refine ⟨earlier, later, e, split, ?_, chosen ▸ work, reports⟩
    have once := returned.ledger.once
    rw [split, List.map_append, List.map_cons, List.nodup_middle, List.nodup_cons] at once
    intro c mem same
    refine once.1 (List.map_append ▸ List.mem_map.mpr ⟨c, mem, ?_⟩)
    exact same
  · exact absurd pruned.1 returned.unpruned

end Returned

theorem Opens.runAccounted (opens : w.Opens m)
    (returned : (w.moves moves).Returned ⟨m, w.scheduler.bodies, w.scheduler.invoked, False⟩ m' calls records)
    {i : Nat} {run : Run} {r : ExecutionRecord} (there : w.runs[i]? = some run)
    (here : records[i]? = some r) :
    w.RunAccounted calls ((w.entry moves i).scheduler.guards.isHeld run.key) run r := by
  obtain ⟨run', there', ends⟩ := returned.run here
  obtain ⟨new, context⟩ : run'.new = run.new ∧ run'.context r = run.context r := by
    have new := moves_keep Scheduler.Steps.new w moves i
    have context := moves_keep (fun steps => steps.context (r := r) rfl) w moves i
    simp only [there, there', Option.map_some, Option.some.injEq] at new context
    exact ⟨new, context⟩
  have key : run'.key = run.key := congrArg NewExecution.key new
  obtain ⟨_, same, purpose, -, told⟩ := (returned.ledger.sound i run' there').answered ends
  cases same
  obtain ⟨-, -, -, -, turned⟩ := opens.turned_iff there' (by simp [ends])
  rw [turned, key] at told
  refine ⟨purpose.trans new, ?_, ?_, ?_⟩
  · obtain ⟨-, busy⟩ | ⟨-, served⟩ := told
    · rw [busy.status]
      rfl
    · exact served.terminal
  · intro held
    obtain ⟨-, busy⟩ | ⟨free, -⟩ := told
    · exact ⟨busy, returned.ledger.uncalled there' ends busy.unstarted⟩
    · simp [held] at free
  · intro free
    obtain ⟨held, -⟩ | ⟨-, served⟩ := told
    · simp [free] at held
    · simpa only [context, key] using returned.served served

theorem Opens.untouched (opens : w.Opens m) (unpruned : w.prunes moves = false)
    (returned : (w.moves moves).Returned o m' calls records) {before : List Move} {i : Nat}
    {rest : List Move} (split : moves = before ++ .run i :: rest) {id : ExecutionId}
    (other : ∀ r, records[i]? = some r → r.id ≠ id) :
    ((w.moves before).move (.run i)).scheduler.store.find? id =
      (w.moves before).scheduler.store.find? id := by
  rw [split, prunes_append, prunes, Bool.or_eq_false_iff, Bool.or_eq_false_iff] at unpruned
  obtain ⟨unpruned, own, after⟩ := unpruned
  obtain ⟨m₁, calls₁, ledger₁, -⟩ := (opens.ledger False).moves before (by simp [unpruned])
  obtain ⟨m₂, calls₂, ledger₂, effect⟩ :=
    ledger₁.goes ((w.moves before).goes_move (.run i)) (by simp [own])
  obtain ⟨-, -, -, lasting, -⟩ := ledger₂.moves rest (by simp [after])
  have kept := effect.frame id fun j same owns => by
    cases same
    have reached : w.moves moves = ((w.moves before).move (.run i)).moves rest := by
      rw [split, moves_append]
      rfl
    obtain ⟨r, here, same⟩ := returned.owner (reached ▸ lasting i id owns)
    exact other r here same
  have same : m₂.find? id = m₁.find? id := kept.of_not not_false
  simp [ledger₁.store, ledger₂.store, Store.find?, same]

/-- Whatever the order of the moves, as long as no cleanup does its work in between. -/
theorem runs_accounted (opens : w.Opens m) (unpruned : w.prunes moves = false)
    (done : ∀ run ∈ (w.moves moves).runs, run.done = true) :
    ∃ m' records, w.Accounted m moves m' records := by
  obtain ⟨m', calls, ledger, -⟩ := (opens.ledger False).moves moves (by simp [unpruned])
  obtain ⟨records, returned⟩ := ledger.returned not_false done
  have called : w.callsSince (w.moves moves) = calls := ledger.callsSince rfl
  exact ⟨m', records, {
    store := ledger.store
    answers := returned.answers
    stored := returned.stored opens.made.ordered
    distinct := returned.distinct opens.made.ordered
    callers := fun c mem => returned.callers (called ▸ mem)
    runs := fun i run r there here => called ▸ opens.runAccounted returned there here
    untouched := fun before i rest split id other => opens.untouched unpruned returned split other }⟩

theorem rivals_accounted :
    ∃ m' records, rivals.Accounted .empty
      ([.run 0, .run 1, .run 1, .run 1] ++ List.replicate 6 (.run 0)) m' records :=
  runs_accounted rivals_open (by decide) (by decide)

end Workload

end FleetOps
