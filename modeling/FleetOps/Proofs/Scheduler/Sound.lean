import FleetOps.Proofs.Execution.Record
import FleetOps.Proofs.Scheduler.Guards

set_option autoImplicit false

namespace FleetOps

open ExecutionRecord

def Phase.record? : Phase → Option ExecutionRecord
  | .skipping r | .unskipped r _ | .starting r | .unstarted r _ | .ready r | .working r _ | .ending r
  | .leaving (.ok r) | .returned (.ok r) => some r
  | .arrived | .turnedAway | .admitted | .leaving (.error _) | .returned (.error _) => none

def Phase.id? (p : Phase) : Option ExecutionId :=
  p.record?.map (·.id)

def Phase.begun? : Phase → Option ExecutionRecord
  | .working r _ | .ending r | .leaving (.ok r) => some r
  | .returned (.ok r) => if r.startedAt.isSome then some r else none
  | _ => none

def Phase.turned : Phase → Bool
  | .turnedAway | .skipping _ | .unskipped _ _ => true
  | .returned (.ok r) => r.startedAt.isNone
  | _ => false

def Run.prunes (run : Run) : Bool :=
  match run.phase with
  | .working _ body =>
    match body.work with
    | .prunes _ => true
    | .ends _ => false
  | _ => false

/-- What a workload starts from, and whether cleanups may do their work on the way. -/
structure Origin where
  store : MemoryStore
  bodies : JobBodies
  invoked : List JobContext
  prunes : Prop

/-- What an id shows later: the same, or nothing where a cleanup may take a record that has ended. -/
def Kept (prune : Prop) (before after : Option ExecutionRecord) : Prop :=
  after = before ∨ prune ∧ after = none ∧ ∃ r, before = some r ∧ r.status.isTerminal = true

def callsIn (invoked : List JobContext) (kind : ScheduleKind) : Nat :=
  (invoked.filter (·.key.kind = kind)).length

section
variable (o : Origin) (m : MemoryStore) (calls : List JobContext)

def Run.Invoked (run : Run) (r : ExecutionRecord) (body : JobBody) : Prop :=
  ∃ earlier later, calls = earlier ++ run.context r :: later ∧
    body = o.bodies run.key.kind (callsIn (o.invoked ++ earlier) run.key.kind) (run.context r)

structure Run.Served (run : Run) (r : ExecutionRecord) : Prop where
  purpose : r.purpose = run.new
  started : r.startedAt.isSome = true
  terminal : r.status.isTerminal = true
  reports : ∃ body, run.Invoked o calls r body ∧
    ((∃ e, body.work = .ends e ∧ r.Reports e) ∨ o.prunes ∧ ∃ days, body.work = .prunes days)

def Run.Sound (run : Run) : Prop :=
  match run.phase with
  | .arrived | .turnedAway | .admitted => True
  | .skipping r =>
    r.purpose = run.new ∧ r.BusySkip ∧ ∃ q, m.find? r.id = some q ∧ q.status = .queued
  | .starting r =>
    r.purpose = run.new ∧ r.startedAt.isSome = true ∧ r.status = .running ∧
      ∃ q, m.find? r.id = some q ∧ q.status = .queued
  | .ready r =>
    r.purpose = run.new ∧ r.startedAt.isSome = true ∧ r.status = .running ∧ m.find? r.id = some r
  | .working r body =>
    r.purpose = run.new ∧ r.startedAt.isSome = true ∧ r.status = .running ∧ m.find? r.id = some r ∧
      run.Invoked o calls r body
  | .ending r =>
    run.Served o calls r ∧
      ∃ q, m.find? r.id = some q ∧ q.status = .running ∧ q.purpose = run.new
  | .leaving (.ok r) => run.Served o calls r ∧ Kept o.prunes (some r) (m.find? r.id)
  | .returned (.ok r) =>
    (run.Served o calls r ∨ r.purpose = run.new ∧ r.BusySkip) ∧
      Kept o.prunes (some r) (m.find? r.id)
  | .unskipped _ _ | .unstarted _ _ | .leaving (.error _) | .returned (.error _) => False

end

section
variable {o : Origin} {m m' : MemoryStore} {calls extra : List JobContext} {run : Run}
  {r : ExecutionRecord}

theorem Kept.refl {prune : Prop} (before : Option ExecutionRecord) : Kept prune before before :=
  .inl rfl

theorem Kept.of_not {prune : Prop} {before after : Option ExecutionRecord} (kept : Kept prune before after)
    (unpruned : ¬ prune) : after = before :=
  kept.resolve_right fun taken => unpruned taken.1

theorem Kept.trans {prune : Prop} {x y z : Option ExecutionRecord} (h : Kept prune x y)
    (h' : Kept prune y z) : Kept prune x z := by
  obtain rfl | ⟨may, rfl, ended⟩ := h
  · exact h'
  · obtain rfl | ⟨-, -, r, present, -⟩ := h'
    · exact .inr ⟨may, rfl, ended⟩
    · cases present

theorem Kept.before {prune : Prop} {before : Option ExecutionRecord} (kept : Kept prune before (some r)) :
    before = some r := by
  obtain same | ⟨-, gone, -⟩ := kept
  · exact same.symm
  · cases gone

theorem Kept.open {prune : Prop} {after : Option ExecutionRecord} (kept : Kept prune (some r) after)
    (going : r.status.isTerminal = false) : after = some r := by
  obtain same | ⟨-, -, r', same, ended⟩ := kept
  · exact same
  · cases same
    simp [going] at ended

theorem Run.Invoked.append {body : JobBody} (h : run.Invoked o calls r body) :
    run.Invoked o (calls ++ extra) r body := by
  obtain ⟨earlier, later, rfl, body⟩ := h
  exact ⟨earlier, later ++ extra, by simp, body⟩

theorem Run.Served.append (h : run.Served o calls r) : run.Served o (calls ++ extra) r :=
  { h with reports := h.reports.imp fun _ told => ⟨told.1.append, told.2⟩ }

theorem Run.Served.at (h : run.Served o calls r) (phase : Phase) :
    (run.at phase).Served o calls r :=
  ⟨h.purpose, h.started, h.terminal, h.reports⟩

theorem Run.Served.ofEnd {r' : ExecutionRecord} {body : JobBody} {e : JobEnd}
    (purpose : r'.purpose = run.new) (started : r'.startedAt.isSome = true) (same : r'.id = r.id)
    (called : run.Invoked o calls r body) (reports : r'.Reports e)
    (ends : body.work = .ends e ∨ o.prunes ∧ ∃ days, body.work = .prunes days) :
    run.Served o calls r' := by
  have context : run.context r' = run.context r := by simp [Run.context, same]
  obtain ⟨earlier, later, split, chosen⟩ := called
  refine ⟨purpose, started, reports.isTerminal, body, ?_, ?_⟩
  · exact ⟨earlier, later, context ▸ split, context ▸ chosen⟩
  · exact ends.imp_left fun work => ⟨e, work, reports⟩

theorem Run.Sound.frame (sound : run.Sound o m calls)
    (kept : ∀ r, run.phase.record? = some r → Kept o.prunes (m.find? r.id) (m'.find? r.id)) :
    run.Sound o m' (calls ++ extra) := by
  unfold Run.Sound at sound ⊢
  generalize run.phase = phase at sound kept ⊢
  cases phase with
  | arrived | turnedAway | admitted => trivial
  | skipping r =>
    obtain ⟨purpose, busy, q, found, queued⟩ := sound
    have later := found ▸ kept r rfl
    exact ⟨purpose, busy, q, later.open (by rw [queued]; rfl), queued⟩
  | starting r =>
    obtain ⟨purpose, started, running, q, found, queued⟩ := sound
    have later := found ▸ kept r rfl
    exact ⟨purpose, started, running, q, later.open (by rw [queued]; rfl), queued⟩
  | ready r =>
    obtain ⟨purpose, started, running, found⟩ := sound
    have later := found ▸ kept r rfl
    exact ⟨purpose, started, running, later.open (by rw [running]; rfl)⟩
  | working r body =>
    obtain ⟨purpose, started, running, found, called⟩ := sound
    have later := found ▸ kept r rfl
    exact ⟨purpose, started, running, later.open (by rw [running]; rfl), called.append⟩
  | ending r =>
    obtain ⟨served, q, found, running, purpose⟩ := sound
    have later := found ▸ kept r rfl
    exact ⟨served.append, q, later.open (by rw [running]; rfl), running, purpose⟩
  | leaving answer =>
    cases answer with
    | error e => exact sound.elim
    | ok r => exact ⟨sound.1.append, sound.2.trans (kept r rfl)⟩
  | returned answer =>
    cases answer with
    | error e => exact sound.elim
    | ok r => exact ⟨sound.1.imp_left (·.append), sound.2.trans (kept r rfl)⟩
  | unskipped | unstarted => exact sound.elim

theorem MemoryStore.Ordered.kept_prune {prune : Prop} (ordered : m.Ordered) (may : prune)
    (cutoff : Instant) (id : ExecutionId) :
    Kept prune (m.find? id) ((m.prune cutoff).2.find? id) := by
  rw [MemoryStore.find?_prune ordered]
  cases found : m.find? id with
  | none => exact .inl rfl
  | some r =>
    cases old : r.finishedBefore cutoff with
    | false => exact .inl (by simp [old])
    | true =>
      have ended : r.status.isTerminal = true := by
        simp only [ExecutionRecord.finishedBefore, Bool.and_eq_true] at old
        exact old.1
      exact .inr ⟨may, by simp [old], r, rfl, ended⟩

end

end FleetOps
