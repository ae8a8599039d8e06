import FleetOps.Proofs.Scheduler.Guards
import FleetOps.Proofs.Execution.Record

set_option autoImplicit false

namespace FleetOps

inductive RunEvent where
  | created (answer : RunAnswer)
  | updated (r : ExecutionRecord) (answer : Except SchedulerError Unit)
  | invoked (context : JobContext)

def RunEvent.invocation? : RunEvent → Option JobContext
  | .invoked context => some context
  | .created _ | .updated _ _ => none

def RunEvent.write? : RunEvent → Option (Except SchedulerError Unit)
  | .updated _ answer => some answer
  | .created _ | .invoked _ => none

namespace Scheduler

def event? (s : Scheduler) (run : Run) : Option RunEvent :=
  match run.phase with
  | .turnedAway | .admitted => some (.created (s.create run.new).1)
  | .skipping r | .unskipped r _ | .starting r | .ending r => some (.updated r (s.update r).1)
  | .unstarted r cause =>
    match r.fail ("could not record start: " ++ cause.message) s.clock.now with
    | .ok r => some (.updated r (s.update r).1)
    | .error _ => none
  | .ready r => some (.invoked (run.context r))
  | .arrived | .working _ _ | .leaving _ | .returned _ => none

def trace (s : Scheduler) : Nat → Run → List RunEvent
  | 0, _ => []
  | n + 1, run => (s.event? run).toList ++ trace (s.step run).2 n (s.step run).1

variable {s s' : Scheduler} {run run' : Run} {r : ExecutionRecord} {next : Phase}

theorem event?_writes (due : run.phase.Writes r next) :
    s.event? run = some (.updated r (s.update r).1) := by
  unfold event?
  generalize run.phase = phase at due
  cases due <;> rfl

theorem event?_refused {e : SchedulerError} (due : run.phase.Refused r e next) :
    s.event? run = some (.updated r (s.update r).1) := by
  obtain ⟨_, due⟩ := due.due
  exact event?_writes due

end Scheduler

def RunEvent.Leaves (s : Scheduler) (new : NewExecution) (s' : Scheduler) : RunEvent → Prop
  | .created answer => s.create new = (answer, s')
  | .updated r answer => s.update r = (answer, s')
  | .invoked context => s' = { s with invoked := s.invoked ++ [context] }

namespace Scheduler

variable {s s' : Scheduler} {run run' : Run}

theorem Steps.leaves (steps : s.Steps run run' s') {e : RunEvent} (asked : s.event? run = some e) :
    e.Leaves s run.new s' := by
  cases steps with
  | write due call =>
    obtain rfl := Option.some.inj ((event?_writes due).symm.trans asked)
    simp [RunEvent.Leaves, call]
  | refused due call =>
    obtain rfl := Option.some.inj ((event?_refused due).symm.trans asked)
    simp [RunEvent.Leaves, call]
  | invoke here =>
    obtain rfl : .invoked _ = e := by simpa [event?, here] using asked
    rfl
  | giveUp here failed =>
    obtain rfl : .updated _ _ = e := by simpa [event?, here, failed] using asked
    rfl
  | excuseAgain here =>
    obtain rfl : .updated _ _ = e := by simpa [event?, here] using asked
    rfl
  | unexcused here call | excuse here call | unbegun here call | begin here call =>
    obtain rfl : .created _ = e := by simpa [event?, here] using asked
    simp [RunEvent.Leaves, call]
  | enter here | turnAway here | work here | release here | rest here => simp [event?, here] at asked
  | abandon here failed => simp [event?, here, failed] at asked

theorem Steps.silent (steps : s.Steps run run' s') (asked : s.event? run = none) :
    (∃ guards, s' = { s with guards }) ∨
      ∃ r body, run.phase = .working r body ∧ s' = (s.perform body.work).2 := by
  cases steps with
  | enter here free => exact .inl ⟨_, rfl⟩
  | release here => exact .inl ⟨_, rfl⟩
  | turnAway | abandon | rest => exact .inl ⟨s.guards, rfl⟩
  | work here => exact .inr ⟨_, _, here, rfl⟩
  | write due call => simp [event?_writes due] at asked
  | refused due call => simp [event?_refused due] at asked
  | giveUp here failed => simp [event?, here, failed] at asked
  | invoke here | excuseAgain here | unexcused here | excuse here | unbegun here | begin here =>
    simp [event?, here] at asked

theorem rank_orLeave {change : RunAnswer} {next : ExecutionRecord → Phase} {n : Nat} (pending : 1 ≤ n)
    (below : ∀ r, (next r).rank ≤ n) : (orLeave change next).rank ≤ n := by
  cases change with
  | ok r => exact below r
  | error e => exact pending

theorem Steps.rank (steps : s.Steps run run' s') : run'.phase.rank ≤ run.phase.rank - 1 := by
  cases steps with
  | @excuse q s' here call =>
    cases q.skip alreadyRunning s'.clock.now <;> simp [here, orReturn, Run.at, Phase.rank]
  | begin here call =>
    rw [here]
    exact rank_orLeave (n := 5) (by decide) fun _ => Nat.le_refl 5
  | work here =>
    rw [here]
    exact rank_orLeave (n := 2) (by decide) fun _ => Nat.le_refl 2
  | @write r next s' due call =>
    generalize run.phase = phase at due
    cases due <;> simp [Run.at, Phase.rank]
  | @refused r e next s' due call =>
    generalize run.phase = phase at due
    cases due <;> simp [Run.at, Phase.rank]
  | invoke here =>
    rw [here]
    exact Nat.le_refl 3
  | _ => simp_all [Run.at, Phase.rank]

theorem rank_advance (n : Nat) (s : Scheduler) (run : Run) :
    (advance n s run).1.phase.rank ≤ run.phase.rank - n := by
  induction n generalizing s run with
  | zero => exact Nat.le_refl _
  | succ n ih =>
    have first := (s.steps_step run).rank
    have rest := ih (s.step run).2 (s.step run).1
    simp only [advance]
    omega

theorem complete_returned (s : Scheduler) (run : Run) :
    ∃ answer, (s.complete run).1.phase = .returned answer := by
  have done : (s.complete run).1.phase.rank ≤ 0 := by
    simpa [complete] using rank_advance run.phase.rank s run
  cases phase : (s.complete run).1.phase with
  | returned answer => exact ⟨answer, rfl⟩
  | _ => simp [phase, Phase.rank] at done

theorem create_eq_queued {new : NewExecution} {q : ExecutionRecord} (call : s.create new = (.ok q, s')) :
    ∃ id now, q = .queued id new now := by
  unfold create attempt at call
  split at call
  · cases call
  · unfold onStore Store.create at call
    cases store : s.store with
    | memory m =>
      simp only [store, Prod.mk.injEq, Except.ok.injEq] at call
      exact ⟨_, _, call.1.symm⟩
    | files f =>
      simp only [store, Prod.mk.injEq] at call
      unfold FileStore.create at call
      dsimp only at call
      split at call
      · simp at call
      · simp only [Except.ok.injEq] at call
        exact ⟨_, _, call.1.symm⟩

theorem create_queued {new : NewExecution} {q : ExecutionRecord} (call : s.create new = (.ok q, s')) :
    q.status = .queued := by
  obtain ⟨id, now, rfl⟩ := create_eq_queued call
  rfl

theorem update_shown {r : ExecutionRecord} {m : MemoryStore} (call : s.update r = (.ok (), s'))
    (store : s'.store = .memory m) : m.find? r.id = some r := by
  unfold update attempt at call
  split at call
  · cases call
  · unfold onStore Store.update at call
    cases before : s.store with
    | files f =>
      simp only [before, Prod.mk.injEq] at call
      simp [← call.2] at store
    | memory m₀ =>
      simp only [before] at call
      cases updated : m₀.update r with
      | error e => simp [updated] at call
      | ok m₁ =>
        simp only [updated, Prod.mk.injEq, true_and] at call
        obtain ⟨_, -, -, rfl⟩ := MemoryStore.update_eq_ok.mp updated
        obtain rfl : m₀.insert r = m := by simpa [← call] using store
        rw [MemoryStore.find?_insert, if_pos rfl]

theorem Steps.sameContext (steps : s.Steps run run' s') : run'.context = run.context := by
  cases steps <;> rfl

end Scheduler

/-- The histories that a run can end with, and its answer to each. -/
inductive Ends (context : ExecutionRecord → JobContext) : List RunEvent → RunAnswer → Prop where
  | uncreated (e : SchedulerError) : Ends context [.created (.error e)] (.error e)
  | skipped {q r : ExecutionRecord} (own : r.id = q.id) (terminal : r.status.isTerminal = true) :
      Ends context [.created (.ok q), .updated r (.ok ())] (.ok r)
  | unrecorded (q r r' : ExecutionRecord) (cause : SchedulerError) (answer : Except SchedulerError Unit) :
      Ends context [.created (.ok q), .updated r (.error cause), .updated r' answer] (.error cause)
  | ended {q r r' : ExecutionRecord} (own : r.id = q.id) (active : r.status = .running)
      (own' : r'.id = q.id) (terminal : r'.status.isTerminal = true) :
      Ends context
        [.created (.ok q), .updated r (.ok ()), .invoked (context r), .updated r' (.ok ())] (.ok r')
  | unended {q r : ExecutionRecord} (own : r.id = q.id) (active : r.status = .running)
      (r' : ExecutionRecord) (e : SchedulerError) :
      Ends context
        [.created (.ok q), .updated r (.ok ()), .invoked (context r), .updated r' (.error e)]
        (.error (.store e.message))

inductive Traced (context : ExecutionRecord → JobContext) : List RunEvent → Phase → Prop where
  | arrived : Traced context [] .arrived
  | turnedAway : Traced context [] .turnedAway
  | admitted : Traced context [] .admitted
  | skipping {q r : ExecutionRecord} (own : r.id = q.id) (terminal : r.status.isTerminal = true) :
      Traced context [.created (.ok q)] (.skipping r)
  | unskipped (q r : ExecutionRecord) (cause : SchedulerError) :
      Traced context [.created (.ok q), .updated r (.error cause)] (.unskipped r cause)
  | starting {q r : ExecutionRecord} (own : r.id = q.id) (active : r.status = .running) :
      Traced context [.created (.ok q)] (.starting r)
  | unstarted {q r : ExecutionRecord} (active : r.status = .running) (cause : SchedulerError) :
      Traced context [.created (.ok q), .updated r (.error cause)] (.unstarted r cause)
  | ready {q r : ExecutionRecord} (own : r.id = q.id) (active : r.status = .running) :
      Traced context [.created (.ok q), .updated r (.ok ())] (.ready r)
  | working {q r : ExecutionRecord} (own : r.id = q.id) (active : r.status = .running) (body : JobBody) :
      Traced context [.created (.ok q), .updated r (.ok ()), .invoked (context r)] (.working r body)
  | ending {q r r' : ExecutionRecord} (own : r.id = q.id) (active : r.status = .running)
      (own' : r'.id = q.id) (terminal : r'.status.isTerminal = true) :
      Traced context [.created (.ok q), .updated r (.ok ()), .invoked (context r)] (.ending r')
  | leaving {h : List RunEvent} {answer : RunAnswer} (ends : Ends context h answer) :
      Traced context h (.leaving answer)
  | returned {h : List RunEvent} {answer : RunAnswer} (ends : Ends context h answer) :
      Traced context h (.returned answer)

namespace Traced

open Scheduler

variable {s s' : Scheduler} {run run' : Run} {context : ExecutionRecord → JobContext}
  {h : List RunEvent}

theorem write {p next : Phase} {r : ExecutionRecord} (traced : Traced context h p)
    (due : p.Writes r next) : Traced context (h ++ [.updated r (.ok ())]) next := by
  cases due with
  | skipped =>
    cases traced with
    | skipping own terminal => exact .returned (.skipped own terminal)
  | started =>
    cases traced with
    | starting own active => exact .ready own active
  | ended =>
    cases traced with
    | ending own active own' terminal => exact .leaving (.ended own active own' terminal)

theorem refused {p next : Phase} {r : ExecutionRecord} {e : SchedulerError}
    (traced : Traced context h p) (due : p.Refused r e next) :
    Traced context (h ++ [.updated r (.error e)]) next := by
  cases due with
  | unskipped =>
    cases traced with
    | skipping own terminal => exact .unskipped _ _ e
  | unstarted =>
    cases traced with
    | starting own active => exact .unstarted active e
  | unended =>
    cases traced with
    | ending own active own' terminal => exact .leaving (.unended own active _ e)

theorem excuse {q : ExecutionRecord} (queued : q.status = .queued) (now : Instant) :
    Traced context [.created (.ok q)] (orReturn (q.skip alreadyRunning now)) := by
  rw [ExecutionRecord.skip_queued _ queued]
  exact .skipping rfl rfl

theorem begin {q : ExecutionRecord} (queued : q.status = .queued) (now : Instant) :
    Traced context [.created (.ok q)] (orLeave (q.start now) .starting) := by
  rw [ExecutionRecord.start_queued queued]
  exact .starting rfl rfl

theorem work {q r : ExecutionRecord} (own : r.id = q.id) (active : r.status = .running)
    (outcome : JobEnd) (now : Instant) :
    Traced context [.created (.ok q), .updated r (.ok ()), .invoked (context r)]
      (orLeave (r.conclude outcome now) .ending) := by
  obtain ⟨r', concluded, same, -, -, reports⟩ := ExecutionRecord.conclude_running now outcome active
  rw [concluded]
  exact .ending own active (same.trans own) reports.isTerminal

theorem steps (traced : Traced run.context h run.phase) (steps : s.Steps run run' s') :
    Traced run.context (h ++ (s.event? run).toList) run'.phase := by
  cases steps with
  | write due call => simpa [event?_writes due, call, Run.at] using traced.write due
  | refused due call => simpa [event?_refused due, call, Run.at] using traced.refused due
  | enter here free =>
    rw [here] at traced
    cases traced
    simpa [event?, here] using .admitted
  | turnAway here held =>
    rw [here] at traced
    cases traced
    simpa [event?, here] using .turnedAway
  | unexcused here call =>
    rw [here] at traced
    cases traced
    simpa [event?, here, call] using .returned (.uncreated _)
  | excuse here call =>
    rw [here] at traced
    cases traced
    simpa [event?, here, call, Run.at] using excuse (create_queued call) _
  | unbegun here call =>
    rw [here] at traced
    cases traced
    simpa [event?, here, call] using .leaving (.uncreated _)
  | begin here call =>
    rw [here] at traced
    cases traced
    simpa [event?, here, call, Run.at] using begin (create_queued call) _
  | excuseAgain here =>
    rw [here] at traced
    cases traced
    simpa [event?, here] using .returned (.unrecorded _ _ _ _ _)
  | giveUp here failed =>
    rw [here] at traced
    cases traced
    simpa [event?, here, failed] using .leaving (.unrecorded _ _ _ _ _)
  | abandon here failed =>
    rw [here] at traced
    cases traced with
    | unstarted active =>
      rw [ExecutionRecord.fail_running _ active] at failed
      cases failed
  | invoke here =>
    rw [here] at traced
    cases traced with
    | ready own active => simpa [event?, here] using .working own active _
  | work here =>
    rw [here] at traced
    cases traced with
    | working own active => simpa [event?, here, Run.at] using work own active _ _
  | release here =>
    rw [here] at traced
    cases traced with
    | leaving ends => simpa [event?, here] using .returned ends
  | rest here => simpa [event?, here] using traced

theorem advance (traced : Traced run.context h run.phase) (n : Nat) (s : Scheduler) :
    Traced run.context (h ++ s.trace n run) (Scheduler.advance n s run).1.phase := by
  induction n generalizing h s run with
  | zero => simpa [trace, Scheduler.advance] using traced
  | succ n ih =>
    have step := s.steps_step run
    have next := traced.steps step
    rw [← step.sameContext] at next
    have rest := ih next (s.step run).2
    rw [step.sameContext, List.append_assoc] at rest
    exact rest

end Traced

namespace Scheduler

variable {s s' : Scheduler} {run run' : Run}

structure Guarding (before : GuardTable) (run : Run) (s : Scheduler) : Prop where
  inside : run.phase.holdsGuard = true →
    before.isHeld run.key = false ∧ s.guards = ⟨run.key :: before.held⟩
  outside : run.phase.holdsGuard = false → s.guards = before

theorem release_taken {g : GuardTable} {k : ScheduleKey} (free : g.isHeld k = false) :
    GuardTable.release ⟨k :: g.held⟩ k = g := by
  have others : g.held.filter (· ≠ k) = g.held := by
    refine List.filter_eq_self.mpr fun l held => ?_
    by_cases same : l = k
    · simp [GuardTable.isHeld, ← same, held] at free
    · simpa using same
  rw [GuardTable.release, List.filter_cons_of_neg (by simp), others]

theorem Guarding.steps {before : GuardTable} (guarding : Guarding before run s)
    (steps : s.Steps run run' s') : Guarding before run' s' := by
  have key : run'.key = run.key := by rw [Run.key, steps.new, Run.key]
  obtain ⟨outside, inside, free, taken⟩ | ⟨inside, outside, released⟩ | ⟨same, kept⟩ := steps.guards
  · have guards := guarding.outside outside
    exact ⟨fun _ => by rw [key, taken, ← guards]; exact ⟨free, rfl⟩, fun h => by simp [inside] at h⟩
  · obtain ⟨free, guards⟩ := guarding.inside inside
    exact ⟨fun h => by simp [outside] at h, fun _ => by rw [released, guards, release_taken free]⟩
  · exact ⟨fun h => by rw [key, kept]; exact guarding.inside (same ▸ h),
      fun h => by rw [kept]; exact guarding.outside (same ▸ h)⟩

theorem Steps.invoked (steps : s.Steps run run' s') :
    s'.invoked = s.invoked ++ (s.event? run).toList.filterMap RunEvent.invocation? := by
  cases asked : s.event? run with
  | none =>
    obtain ⟨guards, rfl⟩ | ⟨_, body, -, rfl⟩ := steps.silent asked
    · simp
    · simp [(s.perform_frame body.work).invoked]
  | some e =>
    have leaves := steps.leaves asked
    cases e with
    | created answer =>
      have frame := s.create_frame run.new
      rw [leaves] at frame
      exact frame.invoked.trans (List.append_nil _).symm
    | updated r answer =>
      have frame := s.update_frame r
      rw [leaves] at frame
      exact frame.invoked.trans (List.append_nil _).symm
    | invoked context =>
      obtain rfl := leaves
      simp [RunEvent.invocation?]

end Scheduler

def Phase.promised? : Phase → Option ExecutionRecord
  | .leaving (.ok r) | .returned (.ok r) => some r
  | _ => none

namespace Scheduler

variable {s s' : Scheduler} {run run' : Run}

theorem promised?_orLeave (change : RunAnswer) (next : ExecutionRecord → Phase)
    (pending : ∀ r, (next r).promised? = none) : (orLeave change next).promised? = none := by
  cases change with
  | ok r => exact pending r
  | error e => rfl

theorem promised?_orReturn (change : RunAnswer) : (orReturn change).promised? = none := by
  cases change <;> rfl

def Shows (run : Run) (s : Scheduler) : Prop :=
  ∀ r m, run.phase.promised? = some r → s.store = .memory m → m.find? r.id = some r

theorem Shows.steps (shown : Shows run s) (steps : s.Steps run run' s') : Shows run' s' := by
  intro r m promised store
  cases steps with
  | write due call =>
    generalize run.phase = phase at due
    cases due with
    | started => cases promised
    | skipped | ended =>
      obtain rfl := Option.some.inj promised
      exact update_shown call store
  | refused due call =>
    generalize run.phase = phase at due
    cases due <;> cases promised
  | @release answer here =>
    have same : run.phase.promised? = (Phase.returned answer).promised? := by
      rw [here]
      cases answer <;> rfl
    exact shown r m (same.trans promised) store
  | rest here => exact shown r m promised store
  | excuse here call => simp [Run.at, promised?_orReturn] at promised
  | begin here call =>
    simp [Run.at, promised?_orLeave _ .starting fun _ => rfl] at promised
  | work here =>
    simp [Run.at, promised?_orLeave _ .ending fun _ => rfl] at promised
  | _ => cases promised

theorem advance_induction {P : Run → Scheduler → Prop} (start : P run s)
    (kept : ∀ {s s' : Scheduler} {run run' : Run}, P run s → s.Steps run run' s' → P run' s') (n : Nat) :
    P (advance n s run).1 (advance n s run).2 := by
  induction n generalizing s run with
  | zero => exact start
  | succ n ih => exact ih (kept start (s.steps_step run))

theorem advance_invoked (s : Scheduler) (n : Nat) (run : Run) :
    (advance n s run).2.invoked = s.invoked ++ (s.trace n run).filterMap RunEvent.invocation? := by
  induction n generalizing s run with
  | zero => simp [advance, trace]
  | succ n ih =>
    have step := (s.steps_step run).invoked
    rw [trace, List.filterMap_append, ← List.append_assoc, ← step]
    exact ih _ _

end Scheduler

def LastAccepted (h : List RunEvent) (r : ExecutionRecord) : Prop :=
  ∃ before after, h = before ++ .updated r (.ok ()) :: after ∧
    ∀ r', .updated r' (.ok ()) ∈ after → r'.id ≠ r.id

def invocations (h : List RunEvent) : List JobContext :=
  h.filterMap RunEvent.invocation?

def writes (h : List RunEvent) : List (Except SchedulerError Unit) :=
  h.filterMap RunEvent.write?

def StoreFailed (h : List RunEvent) : Prop :=
  (∃ e, .created (.error e) ∈ h) ∨ (∃ e, (writes h).head? = some (.error e)) ∨
    ∃ e, (writes h).getLast? = some (.error e)

structure Settled (run : Run) (h : List RunEvent) (answer : RunAnswer) : Prop where
  once : (invocations h).length ≤ 1
  recorded : ∀ before context after, h = before ++ .invoked context :: after →
    ∃ q r, .created (.ok q) ∈ before ∧ .updated r (.ok ()) ∈ before ∧ r.id = q.id ∧
      r.status = .running ∧ context = run.context r
  accepted : ∀ r, answer = .ok r → r.status.isTerminal = true ∧ LastAccepted h r
  fails : (∃ e, answer = .error e) ↔ StoreFailed h

theorem recorded_of_silent {run : Run} {h : List RunEvent} (silent : invocations h = []) :
    ∀ before context after, h = before ++ .invoked context :: after →
      ∃ q r, .created (.ok q) ∈ before ∧ .updated r (.ok ()) ∈ before ∧ r.id = q.id ∧
        r.status = .running ∧ context = run.context r := by
  rintro before context after rfl
  simp [invocations, RunEvent.invocation?] at silent

theorem recorded_of_begun {run : Run} {q r : ExecutionRecord} {last : RunEvent} (own : r.id = q.id)
    (active : r.status = .running) (other : last.invocation? = none) :
    ∀ before context after,
      [.created (.ok q), .updated r (.ok ()), .invoked (run.context r), last] =
        before ++ .invoked context :: after →
      ∃ q r, .created (.ok q) ∈ before ∧ .updated r (.ok ()) ∈ before ∧ r.id = q.id ∧
        r.status = .running ∧ context = run.context r := by
  intro before context after split
  have here : before = [.created (.ok q), .updated r (.ok ())] ∧ context = run.context r := by
    simp only [List.cons_eq_append_iff, List.nil_eq_append_iff] at split
    grind [RunEvent.invocation?]
  exact ⟨q, r, by simp [here.1], by simp [here.1], own, active, here.2⟩

theorem storeFailed_iff {h : List RunEvent} {ws : List (Except SchedulerError Unit)}
    (created : ∀ e, .created (.error e) ∉ h) (written : writes h = ws) :
    StoreFailed h ↔ (∃ e, ws.head? = some (.error e)) ∨ ∃ e, ws.getLast? = some (.error e) := by
  simp [StoreFailed, created, written]

theorem Ends.settled {run : Run} {h : List RunEvent} {answer : RunAnswer}
    (ends : Ends run.context h answer) : Settled run h answer := by
  cases ends with
  | uncreated e =>
    exact ⟨Nat.zero_le 1, recorded_of_silent rfl, by simp, by simp [StoreFailed]⟩
  | @skipped q r own terminal =>
    refine ⟨Nat.zero_le 1, recorded_of_silent rfl, ?_, ?_⟩
    · intro r' same
      obtain rfl := Except.ok.inj same
      exact ⟨terminal, [.created (.ok q)], [], rfl, by simp⟩
    · rw [storeFailed_iff (by simp) (rfl : writes _ = [.ok ()])]
      simp
  | unrecorded q r r' cause answer =>
    refine ⟨Nat.zero_le 1, recorded_of_silent rfl, by simp, ?_⟩
    rw [storeFailed_iff (by simp) (rfl : writes _ = [.error cause, answer])]
    simp
  | @ended q r r' own active own' terminal =>
    refine ⟨Nat.le_refl 1, recorded_of_begun own active rfl, ?_, ?_⟩
    · intro r'' same
      obtain rfl := Except.ok.inj same
      exact ⟨terminal, [.created (.ok q), .updated r (.ok ()), .invoked (run.context r)], [], rfl, by simp⟩
    · rw [storeFailed_iff (by simp) (rfl : writes _ = [.ok (), .ok ()])]
      simp
  | unended own active r' e =>
    refine ⟨Nat.le_refl 1, recorded_of_begun own active rfl, by simp, ?_⟩
    rw [storeFailed_iff (by simp) (rfl : writes _ = [.ok (), .error e])]
    simp

theorem Traced.ends {context : ExecutionRecord → JobContext} {h : List RunEvent} {answer : RunAnswer}
    (traced : Traced context h (.returned answer)) : Ends context h answer := by
  cases traced with
  | returned ends => exact ends

namespace Scheduler

theorem complete_ends (s : Scheduler) {run : Run} {answer : RunAnswer} (start : run.phase = .arrived)
    (returned : (s.complete run).1.phase = .returned answer) :
    Ends run.context (s.trace run.phase.rank run) answer := by
  have traced : Traced run.context (s.trace run.phase.rank run) (s.complete run).1.phase :=
    Traced.advance (start ▸ .arrived : Traced run.context [] run.phase) run.phase.rank s
  exact (returned ▸ traced).ends

theorem complete_settled (s : Scheduler) {run : Run} (start : run.phase = .arrived) :
    ∃ answer, (s.complete run).1.phase = .returned answer ∧ (s.complete run).2.guards = s.guards ∧
      (s.complete run).2.invoked = s.invoked ++ invocations (s.trace run.phase.rank run) ∧
      Settled run (s.trace run.phase.rank run) answer ∧
      ∀ r m, answer = .ok r → (s.complete run).2.store = .memory m → m.find? r.id = some r := by
  obtain ⟨answer, returned⟩ := s.complete_returned run
  have guarding : Guarding s.guards (s.complete run).1 (s.complete run).2 :=
    advance_induction ⟨fun inside => (by simp [start, Phase.holdsGuard] at inside), fun _ => rfl⟩
      Guarding.steps _
  have shown : Shows (s.complete run).1 (s.complete run).2 :=
    advance_induction (fun r m promised => (by simp [start, Phase.promised?] at promised)) Shows.steps _
  refine ⟨answer, returned, guarding.outside (by rw [returned]; rfl), s.advance_invoked _ run,
    (s.complete_ends start returned).settled, ?_⟩
  intro r m ok store
  exact shown r m (by rw [returned, ok]; rfl) store

theorem run_eq (s : Scheduler) (new : NewExecution) (listened : Bool) :
    s.run new listened =
      (((s.complete { new, listened }).1.answer, (s.complete { new, listened }).1.events),
        (s.complete { new, listened }).2) :=
  rfl

/-- Whatever the store answers, a run of a schedule returns with its guard released, its body invoked at
most once and not before the start was on record, and an error just where the store failed it. -/
theorem run_settled (s : Scheduler) (new : NewExecution) (listened : Bool) :
    let run : Run := { new, listened }
    let h := s.trace run.phase.rank run
    ∃ answer, (s.complete run).1.phase = .returned answer ∧ (s.run new listened).1.1 = answer ∧
      (s.run new listened).2.guards = s.guards ∧
      (s.run new listened).2.invoked = s.invoked ++ invocations h ∧
      Settled run h answer ∧
      ∀ r m, answer = .ok r → (s.run new listened).2.store = .memory m → m.find? r.id = some r := by
  intro run h
  obtain ⟨answer, returned, guards, rest⟩ := s.complete_settled (rfl : run.phase = .arrived)
  rw [run_eq]
  exact ⟨answer, returned, by simp [Run.answer, run, returned], guards, rest⟩

end Scheduler

end FleetOps
