import FleetOps.Proofs.Scheduler.Environments
import FleetOps.Proofs.Scheduler.Search
import FleetOps.Proofs.Settings.Duplicates

set_option autoImplicit false

namespace FleetOps

namespace ScheduleId

variable {text : String} {n : Nat}

theorem parse_numeral (read : Text.numeral? Text.idBound text = some n) :
    parse text = .ok (.numeric n) ↔ text.toList.head? ≠ some '+' := by
  obtain ⟨decimal, -⟩ := Text.numeral?_eq_some.mp read
  have visible : ∀ c ∈ text.toList, Text.isBlank c = false := fun c mem => by
    rcases decimal.mem mem with rfl | digit
    · decide
    · exact Text.isBlank_digit digit
  have number : isNumber text = true ↔ text.toList.head? ≠ some '+' := by
    rw [isNumber_iff]
    constructor
    · exact fun number signed => absurd (number.2 '+' (List.mem_of_mem_head? signed)) (by decide)
    · intro unsigned
      obtain ⟨nonempty, digits, -⟩ := (Text.decimal_unsigned unsigned).mp decimal
      exact ⟨by simpa using nonempty, digits⟩
  rw [parse_eq_ok, parse?_eq_some, Text.trim_eq_self visible]
  simp [spellsNumber_iff, read, number]

theorem parse_systemJob {job : SystemJob} (read : SystemJob.parse text = .ok job) :
    parse text = .ok (.named job.name) := by
  have named : job.name = Text.trim text := by
    unfold SystemJob.parse at read
    split at read
    · next j found =>
      obtain rfl := Except.ok.inj read
      simpa using List.find?_some found
    · cases read
  have own : (if isNumber job.name then (Text.numeral? Text.idBound job.name).map .numeric else ofName? job.name) =
      some (.named job.name) := by
    cases job <;> decide +kernel
  rw [parse_eq_ok, parse?, ← named]
  exact own

end ScheduleId

def namedCall? (kind : ScheduleKind) (id : String) (webhook : Bool) : Option ServiceCall :=
  match kind with
  | .systemCleanup => some (.systemJob id)
  | .containerUpdate => (Text.numeral? Text.idBound id).map .containerUpdate
  | .envUpdateCheck => (Text.numeral? Text.idBound id).map .updateCheck
  | .gitStackSync =>
    (Text.numeral? Text.idBound id).map fun n => if webhook then .stackWebhook n else .stackSync n true

namespace Scheduler

variable {s s₁ : Scheduler} {kind : ScheduleKind} {name id : String} {webhook : Bool} {call : ServiceCall}
  {run : Run} {r : ExecutionRecord}

def runNamed? (s : Scheduler) (kind : ScheduleKind) (id : String) (webhook : Bool) : Option (Run × Scheduler) :=
  (namedCall? kind id webhook).bind s.runOf?

theorem triggerNamed_unread (unread : namedCall? kind id webhook = none) :
    (s.triggerNamed kind id webhook).2 = s := by
  unfold namedCall? Text.numeral? at unread
  unfold triggerNamed
  cases kind with
  | systemCleanup => cases unread
  | containerUpdate | envUpdateCheck | gitStackSync =>
    cases read : Text.readNumeral Text.idBound id with
    | error e => rfl
    | ok n => simp [read, Except.toOption] at unread

theorem triggerNamed_call (stands : namedCall? kind id webhook = some call) :
    ∃ t, s.serve call = (.triggered t, (s.triggerNamed kind id webhook).2) := by
  unfold namedCall? Text.numeral? at stands
  unfold triggerNamed
  cases kind with
  | systemCleanup =>
    obtain rfl := Option.some.inj stands
    exact ⟨_, rfl⟩
  | containerUpdate | envUpdateCheck | gitStackSync =>
    cases read : Text.readNumeral Text.idBound id with
    | error e => simp [read, Except.toOption] at stands
    | ok n =>
      obtain rfl : _ = call := by simpa [read, Except.toOption] using stands
      cases webhook <;> exact ⟨_, rfl⟩

theorem triggerNamed_run (s : Scheduler) (kind : ScheduleKind) (id : String) (webhook : Bool) :
    match s.runNamed? kind id webhook with
    | some (run, s₁) => run.phase = .arrived ∧ (s.triggerNamed kind id webhook).2 = (s₁.complete run).2
    | none => s.Spared (s.triggerNamed kind id webhook).2 := by
  cases stands : namedCall? kind id webhook with
  | none =>
    simp only [runNamed?, stands, Option.bind_none, triggerNamed_unread stands]
    exact ⟨rfl, rfl, rfl⟩
  | some call =>
    obtain ⟨t, served⟩ := triggerNamed_call (s := s) stands
    simp only [runNamed?, stands, Option.bind_some]
    cases found : s.runOf? call with
    | none =>
      have spared := spared_of_no_run found (congrArg Prod.fst served)
      rwa [served] at spared
    | some made =>
      obtain ⟨run, s₁⟩ := made
      obtain ⟨_, _, -, -, -, left, arrived⟩ := serve_of_run found
      rw [served] at left
      exact ⟨arrived, left⟩

theorem target_of_run (found : s.runOf? call = some (run, s₁)) : call.target? = some run.new.key := by
  cases call with
  | containerUpdate | stackSync | stackWebhook =>
    simp only [runOf?, describedRun?] at found
    split at found
    · obtain ⟨rfl, rfl⟩ := Prod.mk.inj (Option.some.inj found)
      rfl
    · cases found
  | systemJob name =>
    simp only [runOf?] at found
    split at found
    · next job parsed =>
      obtain ⟨rfl, rfl⟩ := Prod.mk.inj (Option.some.inj found)
      simp [ServiceCall.target?, parsed, Except.toOption]
    · cases found
  | updateCheck =>
    obtain ⟨rfl, rfl⟩ := Prod.mk.inj (Option.some.inj found)
    rfl
  | toggle | register => cases found

theorem parse_of_named {k : ScheduleKey} (stands : namedCall? kind id webhook = some call)
    (target : call.target? = some k) :
    k.kind = kind ∧ (ScheduleId.parse id = .ok k.id ↔ kind = .systemCleanup ∨ id.toList.head? ≠ some '+') := by
  cases kind with
  | systemCleanup =>
    obtain rfl := Option.some.inj stands
    obtain ⟨job, parsed, rfl⟩ := Option.map_eq_some_iff.mp target
    have read : SystemJob.parse id = .ok job := by
      cases h : SystemJob.parse id <;> simp_all [Except.toOption]
    exact ⟨rfl, iff_of_true (ScheduleId.parse_systemJob read) (.inl rfl)⟩
  | containerUpdate | envUpdateCheck =>
    obtain ⟨n, read, rfl⟩ := Option.map_eq_some_iff.mp stands
    obtain rfl := Option.some.inj target
    exact ⟨rfl, by simpa using ScheduleId.parse_numeral read⟩
  | gitStackSync =>
    obtain ⟨n, read, rfl⟩ := Option.map_eq_some_iff.mp stands
    have own : (⟨.gitStackSync, .numeric n⟩ : ScheduleKey) = k := by
      cases webhook <;> exact Option.some.inj target
    obtain rfl := own
    exact ⟨rfl, by simpa using ScheduleId.parse_numeral read⟩

theorem found_iff : (∃ q, ({ kind := some name, id := some id } : ExecutionFilters).query = .ok q ∧
      q.selects r = true) ↔
    ScheduleKind.parse name = .ok r.kind ∧ ScheduleId.parse id = .ok r.scheduleId := by
  constructor
  · rintro ⟨q, read, selected⟩
    have admits := (ExecutionFilters.reads_of_query read).selects_iff.mp selected
    exact ⟨admits.kind name rfl, admits.id id rfl⟩
  · rintro ⟨known, named⟩
    have read : ({ kind := some name, id := some id } : ExecutionFilters).query =
        .ok { kind := some r.kind, scheduleId := some r.scheduleId, offset := some 0 } := by
      simp [ExecutionFilters.query, ExecutionFilters.readKind, ExecutionFilters.readId, known, named]
      rfl
    exact ⟨_, read, by simp [ExecutionQuery.selects, ExecutionQuery.admits, EnvironmentFilter.admits]⟩

/-- The records of a trigger by name, the created one first of all, are found under the words of the trigger,
unless the id is a number with a sign. -/
theorem retrieved_iff (known : ScheduleKind.parse name = .ok kind)
    (made : s.runNamed? kind id webhook = some (run, s₁)) :
    (s.triggerNamed kind id webhook).2 = (s₁.complete run).2 ∧
    (∀ q, (s₁.create run.new).1 = .ok q → q ∈ s₁.recordsOf run) ∧
    ∀ r ∈ s₁.recordsOf run,
      (∃ q, ({ kind := some name, id := some id } : ExecutionFilters).query = .ok q ∧ q.selects r = true) ↔
        kind = .systemCleanup ∨ id.toList.head? ≠ some '+' := by
  have runs := s.triggerNamed_run kind id webhook
  rw [made] at runs
  obtain ⟨arrived, left⟩ := runs
  obtain ⟨created, own⟩ := recordsOf_own (s := s₁) arrived
  obtain ⟨call, stands, found⟩ := Option.bind_eq_some_iff.mp made
  obtain ⟨sameKind, read⟩ := parse_of_named stands (target_of_run found)
  refine ⟨left, created, fun r mem => ?_⟩
  have key : r.key = run.new.key := congrArg NewExecution.key (own r mem)
  rw [← key] at sameKind read
  rw [found_iff, show r.kind = kind from sameKind, and_iff_right known]
  exact read

theorem padded_retrieved : ∃ run, (checker none).runNamed? .envUpdateCheck "007" false = some (run, checker none) ∧
    ∃ r ∈ (checker none).recordsOf run, r.scheduleId = .numeric 7 ∧
      ∃ q, ({ kind := some "env-update-check", id := some "007" } : ExecutionFilters).query = .ok q ∧
        q.selects r = true := by
  have known : ScheduleKind.parse "env-update-check" = .ok .envUpdateCheck := by decide +kernel
  have made : (checker none).runNamed? .envUpdateCheck "007" false =
      some ({ new := ⟨⟨.envUpdateCheck, .numeric 7⟩, some 7, .manual⟩ }, checker none) := rfl
  obtain ⟨-, created, found⟩ := retrieved_iff known made
  have mem := created _ rfl
  exact ⟨_, made, _, mem, rfl, (found _ mem).mpr (by decide +kernel)⟩

theorem signed_unretrieved :
    ((checker none).runNamed? .envUpdateCheck "+5" false).map
        (fun run => (run.2.recordsOf run.1).map (·.scheduleId)) =
        some [.numeric 5, .numeric 5, .numeric 5] ∧
      ({ kind := some "env_update_check", id := some "+5" } : ExecutionFilters).query =
        .error (.schedule (.invalidScheduleId "+5")) := by
  decide +kernel

end Scheduler

end FleetOps
