import FleetOps.Proofs.Scheduler.Entry
import FleetOps.Proofs.Scheduler.Triggers

set_option autoImplicit false

namespace FleetOps

def JobBodies.EndIn (bodies : JobBodies) (k : ScheduleKey) (E : JobEnd → Prop) : Prop :=
  ∀ n (c : JobContext), c.key = k → ∃ e, E e ∧ (bodies k.kind n c).work = .ends e

def Run.EndsIn (run : Run) (E : JobEnd → Prop) : Prop :=
  ∀ r body, run.phase = .working r body → ∃ e, E e ∧ body.work = .ends e

/-- A run that found its guard free: its history so far, and the ends that its body has come to. -/
structure Run.Fated (run start : Run) (E : JobEnd → Prop) (h : List RunEvent) (ends : List JobEnd) : Prop where
  new : run.new = start.new
  context : run.context = start.context
  traced : Traced start.context h run.phase
  unfolds : Unfolds false (invocations h) ends run.phase
  endsIn : run.EndsIn E
  all : ∀ e ∈ ends, E e

namespace Scheduler

variable {s s' : Scheduler} {run run' start : Run} {E : JobEnd → Prop} {h : List RunEvent} {ends : List JobEnd}

theorem Steps.working (steps : s.Steps run run' s') {r : ExecutionRecord} {body : JobBody}
    (here : run'.phase = .working r body) :
    body = s.bodies run.key.kind (s.callsOf run.key.kind) (run.context r) := by
  cases steps with
  | invoke =>
    cases here
    rfl
  | @excuse q s' => cases skipped : q.skip alreadyRunning s'.clock.now <;> simp [skipped, orReturn, Run.at] at here
  | @begin q s' => cases begun : q.start s'.clock.now <;> simp [begun, orLeave, Run.at] at here
  | @work r body =>
    cases ended : r.conclude (s.perform body.work).1 (s.perform body.work).2.clock.now <;>
      simp [ended, orLeave, Run.at] at here
  | write due | refused due =>
    generalize run.phase = phase at due
    cases due <;> cases here
  | rest there =>
    rw [there] at here
    cases here
  | _ => cases here

theorem Steps.endsIn (steps : s.Steps run run' s') (own : s.bodies.EndIn run.key E) : run'.EndsIn E := by
  intro r body here
  rw [steps.working here]
  exact own _ _ rfl

theorem perform_ends (s : Scheduler) (e : JobEnd) : s.perform (.ends e) = (e, s) :=
  rfl

def started? (s : Scheduler) (run : Run) : Option JobProcess :=
  match run.phase, (s.step run).1.phase with
  | .ready _, .working _ body => body.starts
  | _, _ => none

theorem toList_started? {process : JobContext → Option JobProcess}
    (own : ∀ n c, c.key = run.key → (s.bodies c.key.kind n c).starts = process c) :
    (s.started? run).toList = (invocations (s.event? run).toList).filterMap process := by
  rw [invocations_event?]
  cases here : run.phase with
  | ready r =>
    have invoked : s.started? run = process (run.context r) := by
      simp only [started?, here, step, invoke]
      exact own _ _ rfl
    cases given : process (run.context r) <;> simp [invoked, given]
  | _ => simp [started?, here]

theorem outcome?_endsIn (endsIn : run.EndsIn E) {e : JobEnd} (ended : s.outcome? run = some e) : E e := by
  cases here : run.phase with
  | working r body =>
    obtain ⟨e', own, work⟩ := endsIn r body here
    rw [outcome?, here] at ended
    simp only [work, perform_ends, Option.some.injEq] at ended
    exact ended ▸ own
  | _ => simp [outcome?, here] at ended

theorem Steps.fated (steps : s.Steps run run' s') (own : s.bodies.EndIn start.key E)
    (fated : run.Fated start E h ends) :
    run'.Fated start E (h ++ (s.event? run).toList) (ends ++ (s.outcome? run).toList) where
  new := steps.new.trans fated.new
  context := steps.sameContext.trans fated.context
  traced := by
    rw [← fated.context]
    exact (fated.context ▸ fated.traced : Traced run.context h run.phase).steps steps
  unfolds := by
    rw [invocations, List.filterMap_append]
    exact fated.unfolds.steps steps
  endsIn := by
    have key : run.key = start.key := congrArg NewExecution.key fated.new
    exact steps.endsIn (key ▸ own)
  all := fun e mem => by
    obtain old | ended := List.mem_append.mp mem
    · exact fated.all e old
    · exact outcome?_endsIn fated.endsIn (Option.mem_toList.mp ended)

end Scheduler

namespace Run.Fated

variable {run start : Run} {E : JobEnd → Prop} {h : List RunEvent} {ends : List JobEnd}

theorem enter {s s' : Scheduler} (steps : s.Steps start run s') (arrived : start.phase = .arrived)
    (free : s.guards.isHeld start.key = false) (own : s.bodies.EndIn start.key E) : run.Fated start E [] [] where
  new := steps.new
  context := steps.sameContext
  traced := by
    have begins : Traced start.context [] start.phase := arrived ▸ .arrived
    simpa [Scheduler.event?, arrived] using begins.steps steps
  unfolds := free ▸ Unfolds.arrive steps arrived
  endsIn := steps.endsIn own
  all := nofun

theorem answered {answer : RunAnswer} (fated : run.Fated start E h ends)
    (returned : run.phase = .returned answer) :
    Ends start.context h answer ∧ (∀ e ∈ ends, E e) ∧
      ∀ r, answer = .ok r → ∃ e, ends = [e] ∧ E e ∧ r.Reports e := by
  refine ⟨(returned ▸ fated.traced).ends, fated.all, ?_⟩
  rintro r rfl
  have unfolds := fated.unfolds
  rw [returned] at unfolds
  have all := fated.all
  -- Which contexts were called does not matter here, only how many ends there are.
  generalize invocations h = calls at unfolds
  cases unfolds.answered with
  | busy turned => cases turned
  | @ran _ e free context reports => exact ⟨e, rfl, all e (List.mem_singleton_self e), reports⟩

end Run.Fated

namespace Workload

section

variable {α : Type} (f : Scheduler → Run → Option α)

def shown (w : Workload) (i : Nat) (move : Move) : List α :=
  if move = .run i then (w.runs[i]?.bind (f w.scheduler)).toList else []

def along (w : Workload) (i : Nat) : List Move → List α
  | [] => []
  | move :: rest => w.shown f i move ++ (w.move move).along i rest

variable {w : Workload} {i : Nat} {start : Run} {moves : List Move}

theorem along_append (w : Workload) (i : Nat) (first rest : List Move) :
    w.along f i (first ++ rest) = w.along f i first ++ (w.moves first).along f i rest := by
  induction first generalizing w with
  | nil => rfl
  | cons move first ih => simp [along, ih, Workload.moves]

theorem along_unmoved (w : Workload) (unmoved : .run i ∉ moves) : w.along f i moves = [] := by
  induction moves generalizing w with
  | nil => rfl
  | cons move rest ih =>
    obtain ⟨other, later⟩ := not_or.mp (List.mem_cons.not.mp unmoved)
    rw [along, shown, if_neg (Ne.symm other), ih _ later, List.nil_append]

theorem along_entry {rest : List Move} (split : moves = moves.takeWhile (· ≠ .run i) ++ .run i :: rest)
    (there : w.runs[i]? = some start) (silent : ∀ s, f s start = none) :
    w.along f i moves = ((w.entry moves i).move (.run i)).along f i rest := by
  have first : (w.entry moves i).shown f i (.run i) = [] := by
    simp [shown, w.runs_entry moves i, there, silent]
  conv_lhs => rw [split]
  rw [along_append, w.along_unmoved f (unmoved_before_entry moves i), along]
  exact congrArg (· ++ _) first

end

abbrev history (w : Workload) (i : Nat) (moves : List Move) : List RunEvent :=
  w.along Scheduler.event? i moves

abbrev outcomes (w : Workload) (i : Nat) (moves : List Move) : List JobEnd :=
  w.along Scheduler.outcome? i moves

abbrev starts (w : Workload) (i : Nat) (moves : List Move) : List JobProcess :=
  w.along Scheduler.started? i moves

variable {w : Workload} {i : Nat} {start : Run} {E : JobEnd → Prop} {h : List RunEvent} {ends : List JobEnd}

theorem bodies_move (w : Workload) (move : Move) : (w.move move).scheduler.bodies = w.scheduler.bodies := by
  have goes := w.goes_move move
  generalize w.move move = w' at goes
  cases goes with
  | aside runs frame => exact frame.bodies
  | run there steps => exact steps.kept.1

theorem bodies_moves (w : Workload) (moves : List Move) :
    (w.moves moves).scheduler.bodies = w.scheduler.bodies := by
  induction moves generalizing w with
  | nil => rfl
  | cons move rest ih => exact (ih (w.move move)).trans (w.bodies_move move)

theorem starts_eq {process : JobContext → Option JobProcess} (there : w.runs[i]? = some start)
    (own : ∀ n c, c.key = start.key → (w.scheduler.bodies c.key.kind n c).starts = process c)
    (moves : List Move) : w.starts i moves = (invocations (w.history i moves)).filterMap process := by
  induction moves generalizing w start with
  | nil => rfl
  | cons move rest ih =>
    have bodies := w.bodies_move move
    rw [starts, history, along, along, invocations, List.filterMap_append, List.filterMap_append]
    by_cases mine : move = .run i
    · subst mine
      have next : (w.move (.run i)).runs[i]? = some (w.scheduler.step start).1 := by
        simp [Workload.move, there, getElem?_set_run there]
      have key : (w.scheduler.step start).1.key = start.key :=
        congrArg NewExecution.key (w.scheduler.steps_step start).new
      have later := ih next fun n c same => by
        rw [bodies]
        exact own n c (same.trans key)
      have now := Scheduler.toList_started? own
      simp only [shown, if_true, there, Option.bind_some]
      exact congrArg₂ (· ++ ·) now later
    · have unmoved : .run i ∉ [move] := by simpa using Ne.symm mine
      have next : (w.move move).runs[i]? = some start := (w.moves_unmoved unmoved).trans there
      have later := ih next fun n c same => by
        rw [bodies]
        exact own n c same
      simp only [shown, if_neg mine]
      exact later

def Fated (w : Workload) (i : Nat) (start : Run) (E : JobEnd → Prop) (h : List RunEvent)
    (ends : List JobEnd) : Prop :=
  ∃ run, w.runs[i]? = some run ∧ run.Fated start E h ends

theorem Fated.move (fated : w.Fated i start E h ends) (own : w.scheduler.bodies.EndIn start.key E)
    (move : Move) : (w.move move).Fated i start E (h ++ w.shown Scheduler.event? i move)
      (ends ++ w.shown Scheduler.outcome? i move) := by
  obtain ⟨run, there, fated⟩ := fated
  by_cases mine : move = .run i
  · subst mine
    refine ⟨_, ?_, by simpa [shown, there] using (w.scheduler.steps_step run).fated own fated⟩
    simp [Workload.move, there, getElem?_set_run there]
  · have unmoved : .run i ∉ [move] := by simpa using Ne.symm mine
    refine ⟨run, (w.moves_unmoved unmoved).trans there, ?_⟩
    rwa [shown, shown, if_neg mine, if_neg mine, List.append_nil, List.append_nil]

theorem Fated.moves (fated : w.Fated i start E h ends) (own : w.scheduler.bodies.EndIn start.key E)
    (moves : List Move) :
    (w.moves moves).Fated i start E (h ++ w.history i moves) (ends ++ w.outcomes i moves) := by
  induction moves generalizing w h ends with
  | nil => simpa [along, Workload.moves] using fated
  | cons move rest ih =>
    rw [history, outcomes, along, along, ← List.append_assoc, ← List.append_assoc]
    exact ih (fated.move own move) ((w.bodies_move move).symm ▸ own)

theorem entry_fated {moves : List Move} (there : w.runs[i]? = some start) (arrived : start.phase = .arrived)
    (free : (w.entry moves i).scheduler.isRunning start.key = false)
    (own : w.scheduler.bodies.EndIn start.key E) :
    ((w.entry moves i).move (.run i)).Fated i start E [] [] ∧
      ((w.entry moves i).move (.run i)).scheduler.bodies.EndIn start.key E := by
  have entered : (w.entry moves i).runs[i]? = some start := (w.runs_entry moves i).trans there
  have bodies : (w.entry moves i).scheduler.bodies.EndIn start.key E := (w.bodies_moves _).symm ▸ own
  refine ⟨⟨_, ?_, .enter ((w.entry moves i).scheduler.steps_step start) arrived free bodies⟩, ?_⟩
  · simp [Workload.move, entered, getElem?_set_run entered]
  · exact ((w.entry moves i).bodies_move _).symm ▸ bodies

end Workload

/-- The histories of the runs of a key that come to a free guard, with the processes that their bodies start,
the ends of their bodies and their answers: whichever other runs and toggles there are, in whatever order
they move, and whatever the store answers. -/
inductive JobBodies.Runs (bodies : JobBodies) (k : ScheduleKey) :
    List RunEvent → List JobProcess → List JobEnd → RunAnswer → Prop where
  | among {w : Workload} {moves : List Move} {i : Nat} {start run : Run} {answer : RunAnswer}
      (own : w.scheduler.bodies = bodies) (there : w.runs[i]? = some start)
      (arrived : start.phase = .arrived) (key : start.key = k)
      (free : (w.entry moves i).scheduler.isRunning k = false)
      (later : (w.moves moves).runs[i]? = some run) (returned : run.phase = .returned answer) :
      Runs bodies k (w.history i moves) (w.starts i moves) (w.outcomes i moves) answer

theorem JobBodies.Runs.starts_eq {bodies : JobBodies} {k : ScheduleKey} {process : JobContext → Option JobProcess}
    {h : List RunEvent} {starts : List JobProcess} {ends : List JobEnd} {answer : RunAnswer}
    (runs : bodies.Runs k h starts ends answer)
    (own : ∀ n c, c.key = k → (bodies c.key.kind n c).starts = process c) :
    starts = (invocations h).filterMap process := by
  obtain @⟨w, moves, i, start, run, answer, rfl, there, arrived, rfl, free, later, returned⟩ := runs
  exact Workload.starts_eq there own moves

theorem JobBodies.Runs.answered {bodies : JobBodies} {k : ScheduleKey} {E : JobEnd → Prop} {h : List RunEvent}
    {starts : List JobProcess} {ends : List JobEnd} {answer : RunAnswer}
    (runs : bodies.Runs k h starts ends answer) (endIn : bodies.EndIn k E) :
    ∃ start : Run, start.key = k ∧ Ends start.context h answer ∧ (∀ e ∈ ends, E e) ∧
      ∀ r, answer = .ok r → ∃ e, ends = [e] ∧ E e ∧ r.Reports e := by
  obtain @⟨w, moves, i, start, run, answer, rfl, there, arrived, rfl, free, later, returned⟩ := runs
  have moved : .run i ∈ moves := by
    by_contra unmoved
    obtain rfl : start = run := by simpa [there, later] using (w.moves_unmoved unmoved).symm
    rw [arrived] at returned
    cases returned
  obtain ⟨rest, split⟩ := Workload.split_at_entry moved
  obtain ⟨enters, own⟩ := Workload.entry_fated there arrived free endIn
  obtain ⟨run', there', fated⟩ := enters.moves own rest
  rw [← Workload.moves_entry split, later] at there'
  cases there'
  have asked : w.history i moves = _ :=
    Workload.along_entry _ split there fun s => by simp [Scheduler.event?, arrived]
  have ended : w.outcomes i moves = _ :=
    Workload.along_entry _ split there fun s => by simp [Scheduler.outcome?, arrived]
  rw [asked, ended]
  exact ⟨start, rfl, fated.answered returned⟩

namespace Workload

theorem moves_alone (w : Workload) {i : Nat} {run : Run} (there : w.runs[i]? = some run) (n : Nat) :
    (w.moves (List.replicate n (.run i))).runs[i]? = some (Scheduler.advance n w.scheduler run).1 ∧
      w.history i (List.replicate n (.run i)) = w.scheduler.trace n run ∧
      w.outcomes i (List.replicate n (.run i)) = w.scheduler.outcomes n run := by
  induction n generalizing w run with
  | zero => exact ⟨there, rfl, rfl⟩
  | succ n ih =>
    have move : w.move (.run i) =
        { w with scheduler := (w.scheduler.step run).2, runs := w.runs.set i (w.scheduler.step run).1 } := by
      simp [Workload.move, there]
    have next : (w.move (.run i)).runs[i]? = some (w.scheduler.step run).1 := by
      simp [move, getElem?_set_run there]
    obtain ⟨later, asked, ended⟩ := ih (w.move (.run i)) next
    rw [history] at asked
    rw [outcomes] at ended
    rw [List.replicate_succ, history, outcomes, along, along, asked, ended]
    refine ⟨?_, ?_, ?_⟩
    · simpa [Workload.moves, move, Scheduler.advance] using later
    · simp [shown, there, move, Scheduler.trace]
    · simp [shown, there, move, Scheduler.outcomes]

end Workload

theorem JobBodies.Runs.alone (s : Scheduler) {run : Run} (arrived : run.phase = .arrived)
    (free : s.isRunning run.key = false) :
    ∃ starts answer,
      s.bodies.Runs run.key (s.trace run.phase.rank run) starts (s.outcomes run.phase.rank run) answer := by
  let w : Workload := { scheduler := s, runs := [run] }
  obtain ⟨answer, returned⟩ := s.complete_returned run
  obtain ⟨later, asked, ended⟩ := w.moves_alone (i := 0) (rfl : w.runs[0]? = some run) run.phase.rank
  refine ⟨w.starts 0 (List.replicate run.phase.rank (.run 0)), answer, ?_⟩
  refine asked ▸ ended ▸ .among rfl rfl arrived rfl ?_ later returned
  rw [arrived]
  exact free

end FleetOps
