import FleetOps.Proofs.Schedule.Table
import FleetOps.Proofs.Scheduler.History
import FleetOps.Proofs.Scheduler.Toggle
import FleetOps.Scheduler.Trigger

set_option autoImplicit false

namespace FleetOps

-- Callers are shown messages alone; the first words of a message show whether validation failed.
def tellsValidation (message : String) : Bool :=
  ["Invalid s", "Unknown s", "Schedule ", "Invalid c", "System jo"].any
    fun heading => message.toList.take 9 = heading.toList

theorem tellsValidation_message (e : SchedulerError) : tellsValidation e.message = e.isValidation := by
  unfold tellsValidation SchedulerError.message
  cases e <;> simp [SchedulerError.isValidation, IoError.report]

theorem isValidation_of_message {e e' : SchedulerError} (same : e.message = e'.message) :
    e.isValidation = e'.isValidation := by
  rw [← tellsValidation_message, same, tellsValidation_message]

def PassesValidation {α : Type} (answer : Except SchedulerError α) : Prop :=
  ∀ e, answer = .error e → e.isValidation = false

namespace PassesValidation

variable {α β : Type}

theorem ok (a : α) : PassesValidation (.ok a) :=
  nofun

theorem error {e : SchedulerError} (late : e.isValidation = false) :
    PassesValidation (.error e : Except SchedulerError α) := by
  rintro _ ⟨⟩
  exact late

theorem bind {answer : Except SchedulerError α} {next : α → Except SchedulerError β}
    (first : PassesValidation answer) (rest : ∀ a, PassesValidation (next a)) :
    PassesValidation (answer >>= next) := by
  cases answer with
  | ok a => exact rest a
  | error e => exact error (first e rfl)

end PassesValidation

theorem FolderEntry.record_passes (entry : FolderEntry) : PassesValidation entry.record := by
  unfold record
  split
  · exact .error rfl
  · split
    · exact .ok _
    · exact .error rfl

theorem ExecutionRecord.checkReplacement_passes (stored r : ExecutionRecord) :
    PassesValidation (stored.checkReplacement r) := by
  unfold checkReplacement
  split
  · exact .error rfl
  · exact .ok ()

theorem MemoryStore.update_passes (m : MemoryStore) (r : ExecutionRecord) :
    PassesValidation (m.update r) := by
  unfold update
  cases m.find? r.id with
  | none => exact .error rfl
  | some stored => exact (stored.checkReplacement_passes r).bind fun _ => .ok (m.insert r)

namespace FileStore

variable (f : FileStore)

theorem write_passes (r : ExecutionRecord) : PassesValidation (f.write r).1 := by
  unfold write
  split
  · exact .error rfl
  · split
    · exact .error rfl
    · exact .ok ()

theorem create_passes (new : NewExecution) (now : Instant) : PassesValidation (f.create new now).1 := by
  have written := f.write_passes (.queued (f.lastId + 1) new now)
  unfold create
  dsimp only
  split
  · next call =>
    rw [call] at written
    exact .error (written _ rfl)
  · exact .ok _

theorem find?_passes (id : ExecutionId) : PassesValidation (f.find? id) := by
  have entry : PassesValidation <| f.entry? id := by
    unfold entry?
    split
    · exact .ok _
    · exact .ok none
    · exact .error rfl
  refine entry.bind fun found => ?_
  cases found with
  | none => exact .ok none
  | some entry => exact entry.record_passes.bind fun r => .ok (some r)

theorem update_passes (r : ExecutionRecord) : PassesValidation (f.update r).1 := by
  have found := f.find?_passes r.id
  unfold update
  split
  · next failed => exact .error (found _ failed)
  · exact .error rfl
  · next stored _ =>
    have checked := stored.checkReplacement_passes r
    split
    · next failed => exact .error (checked _ failed)
    · exact f.write_passes r

end FileStore

namespace Store

variable (store : Store)

theorem create_passes (new : NewExecution) (now : Instant) :
    PassesValidation (store.create new now).1 := by
  cases store with
  | memory m => exact .ok _
  | files f => exact f.create_passes new now

theorem update_passes (r : ExecutionRecord) : PassesValidation (store.update r).1 := by
  cases store with
  | files f => exact f.update_passes r
  | memory m =>
    have updated := m.update_passes r
    unfold update
    cases call : m.update r with
    | ok m' => simpa [call] using PassesValidation.ok ()
    | error e => simpa [call] using PassesValidation.error (updated e call)

end Store

namespace Scheduler

theorem attempt_passes {α : Type} {s : Scheduler} {p : FaultPoint}
    {call : Store → Except SchedulerError α × Store} (made : ∀ store, PassesValidation (call store).1) :
    PassesValidation (s.attempt p (onStore call)).1 := by
  unfold attempt
  split
  · exact .error rfl
  · exact made s.store

theorem create_passes (s : Scheduler) (new : NewExecution) : PassesValidation (s.create new).1 :=
  attempt_passes fun store => store.create_passes new s.clock.now

theorem update_passes (s : Scheduler) (r : ExecutionRecord) : PassesValidation (s.update r).1 :=
  attempt_passes fun store => store.update_passes r

end Scheduler

def RunEvent.Passes : RunEvent → Prop
  | .created answer => PassesValidation answer
  | .updated _ answer => PassesValidation answer
  | .invoked _ => True

namespace Scheduler

variable {s s' : Scheduler} {run : Run}

theorem event?_passes {event : RunEvent} (asked : s.event? run = some event) : event.Passes := by
  have leaves := (s.steps_step run).leaves asked
  cases event with
  | created answer =>
    have passes := s.create_passes run.new
    rwa [leaves] at passes
  | updated r answer =>
    have passes := s.update_passes r
    rwa [leaves] at passes
  | invoked context => trivial

theorem trace_passes (n : Nat) (s : Scheduler) (run : Run) : ∀ event ∈ s.trace n run, event.Passes := by
  induction n generalizing s run with
  | zero => simp [trace]
  | succ n ih =>
    intro event mem
    obtain asked | later := List.mem_append.mp mem
    · exact event?_passes (by simpa using asked)
    · exact ih _ _ event later

theorem complete_passes {answer : RunAnswer} (start : run.phase = .arrived)
    (returned : (s.complete run).1.phase = .returned answer) : PassesValidation answer := by
  have passes := trace_passes run.phase.rank s run
  have ends := s.complete_ends start returned
  generalize s.trace run.phase.rank run = h at ends passes
  cases ends with
  | uncreated e => exact passes _ (List.mem_singleton.mpr rfl)
  | unrecorded q r r' cause answer =>
    exact .error (passes (.updated r (.error cause)) (by simp) cause rfl)
  | skipped | ended => exact .ok _
  | unended => exact .error rfl

theorem run_passes (s : Scheduler) (new : NewExecution) (listened : Bool) :
    PassesValidation (s.run new listened).1.1 := by
  let start : Run := { new, listened }
  obtain ⟨answer, returned⟩ := s.complete_returned start
  have same : (s.run new listened).1.1 = answer := by
    simp [run_eq, Run.answer, returned, start]
  rw [same]
  exact complete_passes rfl returned

structure Spared (s s' : Scheduler) : Prop where
  registry : s'.registry = s.registry
  store : s'.store = s.store
  invoked : s'.invoked = s.invoked

variable {k : ScheduleKey}

theorem Spared.trans {s'' : Scheduler} (first : s.Spared s') (rest : s'.Spared s'') : s.Spared s'' :=
  ⟨rest.registry.trans first.registry, rest.store.trans first.store, rest.invoked.trans first.invoked⟩

theorem describe_spared (s : Scheduler) (k : ScheduleKey) :
    s.Spared (s.describe k).2 ∧ (s.describe k).2.descriptors = s.descriptors := by
  have same := s.describe_same k
  have frame := s.describe_frame k
  exact ⟨⟨same.registry, frame.2, frame.1.invoked⟩, same.descriptors⟩

theorem describe_passes (s : Scheduler) (k : ScheduleKey) : PassesValidation (s.describe k).1 := by
  unfold describe attempt
  split
  · exact .error rfl
  · exact .ok _

theorem describe_ok {found : Option Descriptor} (call : s.describe k = (.ok found, s')) :
    found = s.descriptors.get? k := by
  unfold describe attempt at call
  split at call
  · cases call
  · obtain ⟨same, -⟩ := Prod.mk.inj call
    exact (Except.ok.inj same).symm

theorem setEnabled_spared (s : Scheduler) (k : ScheduleKey) (enabled : Bool) :
    s.Spared (s.setEnabled k enabled).2 := by
  have frame := s.setEnabled_frame k enabled
  exact ⟨(s.setEnabled_registry k enabled).1, frame.2, frame.1.invoked⟩

theorem setEnabled_descriptors {d : Descriptor} (known : s.descriptors.get? k = some d)
    (enabled : Bool) :
    (s.setEnabled k enabled).2.descriptors =
      match (s.setEnabled k enabled).1 with
      | .ok (some _) => s.descriptors.setEnabled k enabled
      | _ => s.descriptors := by
  have found := s.descriptors.get?_setEnabled k enabled k
  unfold setEnabled attempt
  split
  · rfl
  · dsimp only
    split
    · rfl
    · simp [found, known]

def Unreadable (s : Scheduler) (k : ScheduleKey) : Prop :=
  ∃ d e, s.descriptors.get? k = some d ∧ Cron.parse d.cron = .error e

end Scheduler

namespace Toggle

variable {s s' s'' : Scheduler} {t t' : Toggle}

def Rejected (s : Scheduler) (t : Toggle) (s' : Scheduler) : Prop :=
  s.Spared s' ∧ (s'.descriptors = s.descriptors ∨
    t.enabled = true ∧ s.Unreadable t.key ∧ s'.descriptors = s.descriptors.setEnabled t.key true)

def Did (s : Scheduler) (t : Toggle) (s' : Scheduler) : Prop :=
  match t.phase with
  | .asked => s.Spared s' ∧ s'.descriptors = s.descriptors
  | .known _ =>
    s.Spared s' ∧ s'.descriptors = s.descriptors ∧ ∃ d, s.descriptors.get? t.key = some d
  | .written =>
    s.Spared s' ∧ s'.descriptors = s.descriptors.setEnabled t.key t.enabled ∧
      ∃ d, s.descriptors.get? t.key = some d
  | .reread d =>
    s.Spared s' ∧ s'.descriptors = s.descriptors.setEnabled t.key true ∧ t.enabled = true ∧
      ∃ d₀, s.descriptors.get? t.key = some d₀ ∧ d.cron = d₀.cron
  | .answered result =>
    ∀ flag e, result = .rejected flag e → e.isValidation = true → Rejected s t s'

theorem Did.rejectedAs {flag : Bool} {e : SchedulerError}
    (rejected : e.isValidation = true → Rejected s t s') : Did s (t.rejectedAs flag e) s' := by
  intro flag' e' same validation
  have message : e.message = e'.message := by
    simpa [ToggleResult.rejected] using congrArg ToggleResult.error same
  exact rejected ((isValidation_of_message message).trans validation)

theorem Did.done : Did s t.done s' := by
  intro flag e same
  cases congrArg ToggleResult.success same

theorem Did.steps (did : Did s t s') (steps : s'.ToggleSteps t t' s'') : Did s t' s'' := by
  have described := s'.describe_spared t.key
  have set := s'.setEnabled_spared t.key t.enabled
  cases steps with
  | unread here call | unknown here call | fixed here call =>
    simp only [Did, here] at did
    rw [call] at described
    exact .rejectedAs fun _ => ⟨did.1.trans described.1, .inl (described.2.trans did.2)⟩
  | @found d s'' here call =>
    simp only [Did, here] at did
    have known := Scheduler.describe_ok call
    rw [call] at described
    rw [did.2] at known
    exact ⟨did.1.trans described.1, described.2.trans did.2, d, known.symm⟩
  | unset here call | vanished here call =>
    simp only [Did, here] at did
    obtain ⟨spared, same, d, known⟩ := did
    have kept := Scheduler.setEnabled_descriptors (same ▸ known) t.enabled
    rw [call] at set kept
    exact .rejectedAs fun _ => ⟨spared.trans set, .inl (kept.trans same)⟩
  | set here call =>
    simp only [Did, here] at did
    obtain ⟨spared, same, d, known⟩ := did
    have written := Scheduler.setEnabled_descriptors (same ▸ known) t.enabled
    rw [call] at set written
    exact ⟨spared.trans set, by rw [written, same]; rfl, d, known⟩
  | lost here on call =>
    have passes := s'.describe_passes t.key
    rw [call] at passes
    refine .rejectedAs fun validation => ?_
    simp [passes _ rfl] at validation
  | gone here on call =>
    simp only [Did, here] at did
    obtain ⟨spared, written, d, known⟩ := did
    have found := Scheduler.describe_ok call
    simp [written, DescriptorTable.get?_setEnabled, known] at found
  | @reread d s'' here on call =>
    simp only [Did, here, on] at did
    obtain ⟨spared, written, d₀, known⟩ := did
    have found := Scheduler.describe_ok call
    rw [written, DescriptorTable.get?_setEnabled, known] at found
    rw [call] at described
    refine ⟨spared.trans described.1, described.2.trans written, on, d₀, known, ?_⟩
    simp [Option.some.inj found]
  | forget | followed => exact .done
  | @refused d e r here call =>
    simp only [Did, here] at did
    obtain ⟨spared, written, on, d₀, known, cron⟩ := did
    have follows := s'.registry.follows_follow t.key d none s'.clock
    rw [call] at follows
    cases follows with
    | unreadable _ bad =>
      exact .rejectedAs fun _ => ⟨spared, .inr ⟨on, ⟨d₀, e, known, cron ▸ bad⟩, written⟩⟩
  | rest => exact did

theorem Did.advance (did : Did s t s') (n : Nat) :
    Did s (Scheduler.advanceToggle n s' t).1 (Scheduler.advanceToggle n s' t).2 := by
  induction n generalizing s' t with
  | zero => exact did
  | succ n ih => exact ih (did.steps (s'.steps_stepToggle t))

end Toggle

inductive ServiceCall where
  | containerUpdate (id : Nat)
  | stackSync (id : Nat) (listened : Bool)
  | stackWebhook (id : Nat)
  | systemJob (name : String)
  | updateCheck (environment : EnvironmentId)
  | toggle (k : ScheduleKey) (enabled : Bool)
  | register (k : ScheduleKey) (override : Option EnvironmentId)

inductive ServiceAnswer where
  | triggered (t : Triggered)
  | toggled (result : ToggleResult)
  | registered (answer : Except SchedulerError Bool)

def ServiceAnswer.Rejects (e : SchedulerError) : ServiceAnswer → Prop
  | .triggered t => t.result = .rejected e
  | .toggled result => ∃ flag, result = .rejected flag e
  | .registered answer => answer = .error e

namespace Scheduler

def serve (s : Scheduler) : ServiceCall → ServiceAnswer × Scheduler
  | .containerUpdate n => (s.triggerContainerUpdate n).map .triggered id
  | .stackSync n listened => (s.triggerStackSync n listened).map .triggered id
  | .stackWebhook n => (s.triggerStackWebhook n).map .triggered id
  | .systemJob name => (s.triggerSystemJob name).map .triggered id
  | .updateCheck environment => (s.triggerUpdateCheck environment).map .triggered id
  | .toggle k enabled => (s.toggle k enabled).map .toggled id
  | .register k override => (s.register k override).map .registered id

variable {s : Scheduler} {k : ScheduleKey} {e : SchedulerError}

theorem runFor_not_rejected (s : Scheduler) (new : NewExecution) (listened : Bool)
    (validation : e.isValidation = true) : (s.runFor new listened).1.result ≠ .rejected e := by
  have passes := s.run_passes new listened
  unfold runFor
  split
  · next r events s' call =>
    intro same
    cases congrArg TriggerResult.executionId same
  · next cause events s' call =>
    rw [call] at passes
    intro same
    have message : cause.message = e.message := by
      simpa [TriggerResult.rejected] using congrArg TriggerResult.error same
    simp [← isValidation_of_message message, passes cause rfl] at validation

theorem triggerDescribed_rejected {trigger : TriggerSource} {listened : Bool}
    (validation : e.isValidation = true)
    (rejected : (s.triggerDescribed k trigger listened).1.result = .rejected e) :
    s.Spared (s.triggerDescribed k trigger listened).2 ∧
      (s.triggerDescribed k trigger listened).2.descriptors = s.descriptors := by
  have described := s.describe_spared k
  unfold triggerDescribed at rejected ⊢
  split at rejected
  · next call => simpa [call] using described
  · next call => simpa [call] using described
  · exact absurd rejected (runFor_not_rejected _ _ _ validation)

theorem triggerSystemJob_rejected {name : String} (validation : e.isValidation = true)
    (rejected : (s.triggerSystemJob name).1.result = .rejected e) : (s.triggerSystemJob name).2 = s := by
  unfold triggerSystemJob at rejected ⊢
  split at rejected
  · rfl
  · exact absurd rejected (runFor_not_rejected _ _ _ validation)

theorem toggle_rejected {enabled flag : Bool} (validation : e.isValidation = true)
    (rejected : (s.toggle k enabled).1 = .rejected flag e) :
    Toggle.Rejected s { key := k, enabled } (s.toggle k enabled).2 := by
  let t : Toggle := { key := k, enabled }
  have did : Toggle.Did s (advanceToggle t.phase.rank s t).1 (s.toggle k enabled).2 :=
    Toggle.Did.advance (t := t) ⟨⟨rfl, rfl, rfl⟩, rfl⟩ t.phase.rank
  have same := advanceToggle_same t.phase.rank s t
  change (advanceToggle t.phase.rank s t).1.answer = _ at rejected
  generalize (advanceToggle t.phase.rank s t).1 = t' at did same rejected
  unfold Toggle.answer at rejected
  cases phase : t'.phase with
  | answered result =>
    simp only [Toggle.Did, phase] at did rejected
    have left := did flag e rejected validation
    rwa [Toggle.Rejected, same.1, same.2] at left
  | _ =>
    simp only [phase] at rejected
    cases congrArg ToggleResult.error rejected

theorem register_rejected {override : Option EnvironmentId}
    (rejected : (s.register k override).1 = .error e) :
    s.Spared (s.register k override).2 ∧ (s.register k override).2.descriptors = s.descriptors := by
  have described := s.describe_spared k
  unfold register at rejected ⊢
  split at rejected
  · next call => simpa [call] using described
  · next call => simpa [call] using described
  · next d s' call =>
    rw [call] at described
    have follows := s'.registry.follows_follow k d override s'.clock
    dsimp only at rejected ⊢
    rw [rejected] at follows
    generalize (s'.registry.follow k d override s'.clock).2 = r at follows
    cases follows with
    | unreadable => simpa [call] using described

/-- Where validation refuses a call, the timers, the records and the bodies are as they were. So are the
descriptors, unless the call switches a schedule on whose cron text cannot be read: then its flag is
written, and nothing else. -/
theorem serve_refused (s : Scheduler) (call : ServiceCall) (e : SchedulerError)
    (validation : e.isValidation = true) (rejected : (s.serve call).1.Rejects e) :
    s.Spared (s.serve call).2 ∧ ((s.serve call).2.descriptors = s.descriptors ∨
      ∃ k, call = .toggle k true ∧ s.Unreadable k ∧
        (s.serve call).2.descriptors = s.descriptors.setEnabled k true) := by
  cases call with
  | containerUpdate n | stackSync n listened | stackWebhook n =>
    have left := triggerDescribed_rejected validation rejected
    exact ⟨left.1, .inl left.2⟩
  | systemJob name =>
    simp only [serve, Prod.map_fst, Prod.map_snd, id_eq, ServiceAnswer.Rejects] at rejected ⊢
    rw [triggerSystemJob_rejected validation rejected]
    exact ⟨⟨rfl, rfl, rfl⟩, .inl rfl⟩
  | updateCheck environment =>
    simp only [serve, Prod.map_fst, ServiceAnswer.Rejects, triggerUpdateCheck] at rejected
    exact absurd rejected (runFor_not_rejected s _ _ validation)
  | toggle k enabled =>
    obtain ⟨flag, rejected⟩ := rejected
    obtain ⟨spared, same | ⟨on, unreadable, written⟩⟩ := toggle_rejected validation rejected
    · exact ⟨spared, .inl same⟩
    · exact ⟨spared, .inr ⟨k, by rw [show enabled = true from on], unreadable, written⟩⟩
  | register k override =>
    have left := register_rejected rejected
    exact ⟨left.1, .inl left.2⟩

def garbled : Scheduler where
  clock := { now := ⟨0, 0⟩ }
  store := .memory .empty
  descriptors := .ofList
    [{ kind := .containerUpdate, id := .numeric 1, cron := "never", enabled := false }]
  bodies := fun _ _ _ => { work := .ends (.completed .null) }

def garbledOn : ServiceCall :=
  .toggle ⟨.containerUpdate, .numeric 1⟩ true

theorem garbledOn_rejected :
    (garbled.serve garbledOn).1.Rejects (.invalidCron "never" (.fieldCount 1)) :=
  ⟨true, by decide +kernel⟩

theorem garbledOn_spared :
    garbled.Spared (garbled.serve garbledOn).2 ∧
      ((garbled.serve garbledOn).2.descriptors = garbled.descriptors ∨
        ∃ k, garbledOn = .toggle k true ∧ garbled.Unreadable k ∧
          (garbled.serve garbledOn).2.descriptors = garbled.descriptors.setEnabled k true) :=
  serve_refused garbled garbledOn (.invalidCron "never" (.fieldCount 1)) rfl garbledOn_rejected

theorem garbledOn_enables :
    ∃ e : SchedulerError, e.isValidation = true ∧ (garbled.serve garbledOn).1.Rejects e ∧
      garbled.descriptors.enabled = [] ∧
      ((garbled.serve garbledOn).2.descriptors.enabled.map (·.id)) = [.numeric 1] := by
  refine ⟨.invalidCron "never" (.fieldCount 1), rfl, garbledOn_rejected, ?_⟩
  decide +kernel

end Scheduler

end FleetOps
