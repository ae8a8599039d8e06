import FleetOps.Proofs.Schedule.Table
import FleetOps.Proofs.Scheduler.Toggle
import FleetOps.Scheduler.Concurrent

set_option autoImplicit false

namespace FleetOps

structure ToggleLog where
  wrote : Option Bool := none
  changed : Option Bool := none
deriving DecidableEq, Repr

def ToggleLog.note (log : ToggleLog) (t : Toggle) : ToggleLog :=
  match t.phase with
  | .known _ => { log with wrote := some t.enabled }
  | .written => if t.enabled then log else { log with changed := some false }
  | .reread d => { log with changed := some d.enabled }
  | .asked | .answered _ => log

namespace TogglePhase

def isAnswered : TogglePhase → Bool
  | .answered _ => true
  | .asked | .known _ | .written | .reread _ => false

def isPending : TogglePhase → Bool
  | .written | .reread _ => true
  | .asked | .known _ | .answered _ => false

end TogglePhase

namespace Workload

def logged (w : Workload) (log : ToggleLog) : Move → ToggleLog
  | .toggle i =>
    match w.toggles[i]? with
    | none => log
    | some t => log.note t
  | .run _ | .clock _ => log

def log (w : Workload) (log : ToggleLog) : List Move → ToggleLog
  | [] => log
  | m :: rest => (w.move m).log (w.logged log m) rest

def Settled (w : Workload) : Prop :=
  ∀ t ∈ w.toggles, t.phase.isAnswered = true

def Agrees (w : Workload) (k : ScheduleKey) : Prop :=
  w.scheduler.registry.isArmed k = true ↔
    ∃ d, w.scheduler.descriptors.get? k = some d ∧ d.enabled = true

/-- No toggle writes its flag while one of the other flag is pending. -/
def Apart (w : Workload) : List Move → Prop
  | [] => True
  | m :: rest =>
    (∀ i t current, m = .toggle i → w.toggles[i]? = some t → t.phase = .known current →
      ∀ u ∈ w.toggles, u.phase.isPending = true → u.enabled = t.enabled) ∧
    (w.move m).Apart rest

end Workload

inductive Toggle.Goes (d : Descriptor) (t : Toggle) : Toggle → Prop where
  | find (here : t.phase = .asked) : Goes d t (t.at (.known d.enabled))
  | write {current : Bool} (here : t.phase = .known current) : Goes d t (t.at .written)
  | reread (here : t.phase = .written) (on : t.enabled = true) : Goes d t (t.at (.reread d))
  | forget (here : t.phase = .written) (off : t.enabled = false) : Goes d t t.done
  | follow {e : Descriptor} (here : t.phase = .reread e) : Goes d t t.done
  | rest {result : ToggleResult} (here : t.phase = .answered result) : Goes d t t

/-- The schedule as a log has left it: its descriptor has the flag written last, and the key is armed as
the timer was last changed. Before any toggle the key was armed or not as `armed` says. -/
structure Scheduler.Carries (s : Scheduler) (k : ScheduleKey) (d : Descriptor) (armed : Bool)
    (log : ToggleLog) : Prop where
  spared : s.faults.SparesDescriptors
  up : s.registry.isShutDown = false
  described : s.descriptors.get? k = some { d with enabled := log.wrote.getD d.enabled }
  armed : s.registry.isArmed k = log.changed.getD armed

namespace Scheduler.Carries

variable {s s' : Scheduler} {k : ScheduleKey} {d : Descriptor} {armed : Bool} {log : ToggleLog}
  {t t' : Toggle}

theorem same (carries : s.Carries k d armed log) (same : s.SameSchedules s') :
    s'.Carries k d armed log where
  spared := same.spares carries.spared
  up := by rw [same.registry, carries.up]
  described := by rw [same.descriptors, carries.described]
  armed := by rw [same.registry, carries.armed]

theorem write (carries : s.Carries k d armed log) (enabled : Bool) :
    (s.setEnabled k enabled).2.Carries k d armed { log with wrote := some enabled } := by
  obtain ⟨-, descriptors, spared⟩ := setEnabled_answer carries.spared k enabled
  have registry := (s.setEnabled_registry k enabled).1
  constructor
  · exact spared
  · rw [registry, carries.up]
  · rw [descriptors, DescriptorTable.get?_setEnabled, carries.described]
    simp
  · rw [registry, carries.armed]

theorem change {r : Registry} {changed : Bool} {clock : Clock} (carries : s.Carries k d armed log)
    (tended : s.registry.Tended clock r) (armed' : r.isArmed k = changed) :
    { s with registry := r }.Carries k d armed { log with changed := some changed } where
  spared := carries.spared
  up := tended.isShutDown.trans carries.up
  described := carries.described
  armed := armed'

theorem steps (carries : s.Carries t.key d armed log)
    (fits : ∀ e, t.phase = .reread e → e.cron = d.cron) (may : t.key.kind.canDisable = true)
    {schedule : Cron.Schedule} (reads : Cron.parse d.cron = .ok schedule)
    (steps : s.ToggleSteps t t' s') :
    s'.Carries t.key d armed (log.note t) ∧
      t.Goes { d with enabled := log.wrote.getD d.enabled } t' := by
  have described := describe_answer carries.spared t.key
  have set := (setEnabled_answer carries.spared t.key t.enabled).1
  rw [carries.described] at described
  rw [DescriptorTable.get?_setEnabled, carries.described] at set
  have read := carries.same (s.describe_same t.key)
  have wrote := carries.write t.enabled
  cases steps with
  | unread here call | unknown here call | lost here on call | gone here on call => simp [call] at described
  | unset here call | vanished here call => simp [call] at set
  | fixed here call off stays => simp [may] at stays
  | found here call =>
    rw [call] at read described
    cases described
    simp only [ToggleLog.note, here]
    exact ⟨read, .find here⟩
  | set here call =>
    rw [call] at wrote
    simp only [ToggleLog.note, here]
    exact ⟨wrote, .write here⟩
  | reread here on call =>
    rw [call] at read described
    cases described
    simp only [ToggleLog.note, here, on, if_true]
    exact ⟨read, .reread here on⟩
  | forget here off =>
    simp only [ToggleLog.note, here, off, Bool.false_eq_true, if_false]
    have tended : s.registry.Tended s.clock (s.registry.disarm t.key) := .disarm .same t.key
    exact ⟨carries.change tended (s.registry.isArmed_disarm t.key), .forget here off⟩
  | @refused e _ r here call =>
    have follows := s.registry.follows_follow t.key e none s.clock
    rw [call] at follows
    cases follows with
    | unreadable on bad => simp [fits e here, reads] at bad
  | @followed e done r here call =>
    simp only [ToggleLog.note, here]
    have follows := s.registry.follows_follow t.key e none s.clock
    have tended := Registry.Tended.follow s.registry t.key e none s.clock
    rw [call] at follows tended
    refine ⟨carries.change tended ?_, .follow here⟩
    cases follows with
    | disabled off => exact (s.registry.isArmed_disarm t.key).trans off.symm
    | late on reads down => simp [carries.up] at down
    | armed on reads up => exact s.registry.isArmed_arm.trans (on.resolve_right (by simp [may])).symm
  | rest here =>
    simp only [ToggleLog.note, here]
    exact ⟨carries, .rest here⟩

end Scheduler.Carries

theorem Toggle.Goes.same {d : Descriptor} {t t' : Toggle} (goes : t.Goes d t') :
    t'.key = t.key ∧ t'.enabled = t.enabled := by
  cases goes <;> exact ⟨rfl, rfl⟩

def TogglePhase.Fits (d : Descriptor) (log : ToggleLog) : TogglePhase → Prop
  | .asked | .known _ => True
  | .written => log.wrote.isSome = true
  | .reread e => e.cron = d.cron ∧ log.wrote.isSome = true
  | .answered _ => log.wrote.isSome = true ∧ log.changed.isSome = true

theorem ToggleLog.note_isSome (log : ToggleLog) (t : Toggle) :
    (log.wrote.isSome = true → (log.note t).wrote.isSome = true) ∧
      (log.changed.isSome = true → (log.note t).changed.isSome = true) := by
  unfold note
  split
  · exact ⟨fun _ => rfl, id⟩
  · split
    · exact ⟨id, id⟩
    · exact ⟨id, fun _ => rfl⟩
  · exact ⟨id, fun _ => rfl⟩
  · exact ⟨id, id⟩
  · exact ⟨id, id⟩

theorem TogglePhase.Fits.note {d : Descriptor} {log : ToggleLog} {p : TogglePhase} (fits : p.Fits d log)
    (t : Toggle) : p.Fits d (log.note t) := by
  obtain ⟨wrote, changed⟩ := log.note_isSome t
  cases p with
  | asked | known => trivial
  | written => exact wrote fits
  | reread => exact fits.imp_right wrote
  | answered => exact fits.imp wrote changed

theorem Toggle.Goes.fits {d e : Descriptor} {log : ToggleLog} {t t' : Toggle} (goes : t.Goes e t')
    (cron : e.cron = d.cron) (fits : t.phase.Fits d log) : t'.phase.Fits d (log.note t) := by
  cases goes with
  | find here => trivial
  | write here =>
    simp only [ToggleLog.note, here]
    exact rfl
  | reread here on =>
    simp only [here, TogglePhase.Fits] at fits
    simp only [ToggleLog.note, here, on, if_true]
    exact ⟨cron, fits⟩
  | forget here off =>
    simp only [here, TogglePhase.Fits] at fits
    simp only [ToggleLog.note, here, off, Bool.false_eq_true, if_false]
    exact ⟨fits, rfl⟩
  | follow here =>
    simp only [here, TogglePhase.Fits] at fits
    simp only [ToggleLog.note, here]
    exact ⟨fits.2, rfl⟩
  | rest here =>
    simp only [ToggleLog.note, here]
    exact here ▸ fits

structure Toggle.Calm (t : Toggle) (log : ToggleLog) : Prop where
  same : t.phase.isPending = true → log.wrote = some t.enabled
  read : ∀ e, t.phase = .reread e → e.enabled = t.enabled

namespace Toggle.Calm

variable {d : Descriptor} {log : ToggleLog} {t t' u : Toggle}

theorem note (calm : u.Calm log)
    (apart : ∀ current, t.phase = .known current → u.phase.isPending = true → u.enabled = t.enabled) :
    u.Calm (log.note t) := by
  refine ⟨fun pending => ?_, calm.read⟩
  have same := calm.same pending
  unfold ToggleLog.note
  split
  · next current here => rw [apart current here pending]
  · split <;> exact same
  · exact same
  · exact same
  · exact same

theorem goes (calm : t.Calm log) (goes : t.Goes { d with enabled := log.wrote.getD d.enabled } t') :
    t'.Calm (log.note t) := by
  cases goes with
  | find here | forget here | follow here =>
    constructor <;> simp [Toggle.at, Toggle.done, TogglePhase.isPending]
  | write here =>
    simp only [ToggleLog.note, here]
    constructor <;> simp [Toggle.at]
  | reread here on =>
    have wrote := calm.same (by rw [here]; rfl)
    simp only [ToggleLog.note, here, on, if_true]
    constructor <;> simp [Toggle.at, wrote]
  | rest here =>
    simp only [ToggleLog.note, here]
    exact calm

theorem quiet (calm : t.Calm log) (goes : t.Goes { d with enabled := log.wrote.getD d.enabled } t')
    (idle : t'.phase.isPending = false) (before : t.phase.isPending = false → log.changed = log.wrote) :
    (log.note t).changed = (log.note t).wrote := by
  cases goes with
  | find here | rest here =>
    simp only [ToggleLog.note, here]
    exact before (by rw [here]; rfl)
  | write here | reread here => cases idle
  | forget here off =>
    have wrote := calm.same (by rw [here]; rfl)
    simp [ToggleLog.note, here, off, wrote]
  | @follow e here =>
    have wrote := calm.same (by rw [here]; rfl)
    simp [ToggleLog.note, here, wrote, calm.read e here]

end Toggle.Calm

namespace Workload

structure Toggling (w : Workload) (k : ScheduleKey) (d : Descriptor) (armed : Bool)
    (log : ToggleLog) : Prop where
  carries : w.scheduler.Carries k d armed log
  toggles : ∀ t ∈ w.toggles, t.key = k ∧ t.phase.Fits d log

structure Calm (w : Workload) (log : ToggleLog) : Prop where
  toggles : ∀ t ∈ w.toggles, t.Calm log
  quiet : (∀ t ∈ w.toggles, t.phase.isPending = false) → log.changed = log.wrote

inductive Turns (w : Workload) (k : ScheduleKey) (d : Descriptor) (armed : Bool) (log : ToggleLog) :
    Move → Workload → ToggleLog → Prop where
  | step {i : Nat} {t t' : Toggle} {s : Scheduler} (there : w.toggles[i]? = some t)
      (carries : s.Carries k d armed (log.note t))
      (goes : t.Goes { d with enabled := log.wrote.getD d.enabled } t') :
      Turns w k d armed log (.toggle i) { w with scheduler := s, toggles := w.toggles.set i t' } (log.note t)
  | aside {m : Move} {w' : Workload} (toggles : w'.toggles = w.toggles)
      (carries : w'.scheduler.Carries k d armed log) : Turns w k d armed log m w' log

variable {w w' : Workload} {k : ScheduleKey} {d : Descriptor} {armed : Bool} {log log' : ToggleLog}
  {m : Move}

theorem Toggling.turns (toggling : w.Toggling k d armed log) (may : k.kind.canDisable = true)
    {schedule : Cron.Schedule} (reads : Cron.parse d.cron = .ok schedule) (m : Move) :
    w.Turns k d armed log m (w.move m) (w.logged log m) := by
  cases m with
  | clock now => exact .aside rfl { toggling.carries with }
  | run i =>
    refine .aside ?_ ?_
    · simp only [Workload.move]
      split <;> rfl
    · simp only [Workload.move]
      split
      · exact toggling.carries
      · next run _ => exact toggling.carries.same (.steps (w.scheduler.steps_step run))
  | toggle i =>
    cases there : w.toggles[i]? with
    | none =>
      simp only [Workload.move, logged, there]
      exact .aside rfl toggling.carries
    | some t =>
      obtain ⟨rfl, fits⟩ := toggling.toggles t (List.mem_of_getElem? there)
      have cron : ∀ e, t.phase = .reread e → e.cron = d.cron := by
        intro e here
        simp only [here, TogglePhase.Fits] at fits
        exact fits.1
      have next := toggling.carries.steps cron may reads (w.scheduler.steps_stepToggle t)
      simp only [Workload.move, logged, there]
      exact .step there next.1 next.2

theorem Toggling.kept (toggling : w.Toggling k d armed log) (turns : w.Turns k d armed log m w' log') :
    w'.Toggling k d armed log' := by
  cases turns with
  | aside toggles carries => exact ⟨carries, toggles ▸ toggling.toggles⟩
  | @step i t t' s there carries goes =>
    refine ⟨carries, fun u mem => ?_⟩
    rcases List.mem_or_eq_of_mem_set mem with mem | rfl
    · exact (toggling.toggles u mem).imp_right (·.note t)
    · obtain ⟨key, fits⟩ := toggling.toggles t (List.mem_of_getElem? there)
      exact ⟨goes.same.1.trans key, goes.fits rfl fits⟩

theorem Calm.kept (calm : w.Calm log) (turns : w.Turns k d armed log m w' log')
    (apart : ∀ i t current, m = .toggle i → w.toggles[i]? = some t → t.phase = .known current →
      ∀ u ∈ w.toggles, u.phase.isPending = true → u.enabled = t.enabled) : w'.Calm log' := by
  cases turns with
  | aside toggles => exact ⟨toggles ▸ calm.toggles, toggles ▸ calm.quiet⟩
  | @step i t t' s there carries goes =>
    have own := calm.toggles t (List.mem_of_getElem? there)
    have bound : i < w.toggles.length := (List.getElem?_eq_some_iff.mp there).1
    refine ⟨fun u mem => ?_, fun after => ?_⟩
    · rcases List.mem_or_eq_of_mem_set mem with mem | rfl
      · exact (calm.toggles u mem).note fun current here => apart i t current rfl there here u mem
      · exact own.goes goes
    · refine own.quiet goes (after t' (List.mem_set bound t')) fun idle => calm.quiet fun u mem => ?_
      -- The other toggles stand where they stood.
      obtain ⟨j, placed⟩ := List.mem_iff_getElem?.mp mem
      by_cases same : i = j
      · subst same
        obtain rfl : t = u := Option.some.inj (there.symm.trans placed)
        exact idle
      · exact after u (List.mem_iff_getElem?.mpr ⟨j, (List.getElem?_set_ne same).trans placed⟩)

section

variable (may : k.kind.canDisable = true) {schedule : Cron.Schedule}
  (reads : Cron.parse d.cron = .ok schedule)

include may reads

theorem Toggling.moves (toggling : w.Toggling k d armed log) (ms : List Move) :
    (w.moves ms).Toggling k d armed (w.log log ms) := by
  induction ms generalizing w log with
  | nil => exact toggling
  | cons m rest ih => exact ih (toggling.kept (toggling.turns may reads m))

theorem Calm.moves (calm : w.Calm log) (toggling : w.Toggling k d armed log) {ms : List Move}
    (apart : w.Apart ms) : (w.moves ms).Calm (w.log log ms) := by
  induction ms generalizing w log with
  | nil => exact calm
  | cons m rest ih =>
    have turns := toggling.turns may reads m
    exact ih (calm.kept turns apart.1) (toggling.kept turns) apart.2

end

theorem length_toggles_moves (w : Workload) (ms : List Move) :
    (w.moves ms).toggles.length = w.toggles.length := by
  induction ms generalizing w with
  | nil => rfl
  | cons m rest ih =>
    refine (ih (w.move m)).trans ?_
    cases m with
    | clock now => rfl
    | run i | toggle i =>
      simp only [Workload.move]
      split <;> simp

theorem Toggling.agrees_iff (toggling : w.Toggling k d armed log) {t : Toggle} (mem : t ∈ w.toggles)
    (returned : t.phase.isAnswered = true) : w.Agrees k ↔ log.changed = log.wrote := by
  have fits := (toggling.toggles t mem).2
  have carries := toggling.carries
  cases phase : t.phase with
  | answered result =>
    -- A toggle that has returned has written and changed, so the log knows both flags.
    simp only [phase, TogglePhase.Fits, Option.isSome_iff_exists] at fits
    obtain ⟨⟨wrote, written⟩, changed, change⟩ := fits
    rw [Agrees, carries.described, carries.armed, written, change]
    cases wrote <;> cases changed <;> simp
  | asked | known | written | reread => simp [phase, TogglePhase.isAnswered] at returned

structure Begins (w : Workload) (k : ScheduleKey) : Prop where
  spared : w.scheduler.faults.SparesDescriptors
  up : w.scheduler.registry.isShutDown = false
  may : k.kind.canDisable = true
  described : ∃ d schedule, w.scheduler.descriptors.get? k = some d ∧ Cron.parse d.cron = .ok schedule
  asked : ∀ t ∈ w.toggles, t.key = k ∧ t.phase = .asked

/-- Once all toggles have returned, the key is armed just if it is enabled when the last change of the
timer followed the flag written last; so it is where opposite toggles keep apart. -/
theorem toggles_agree_iff (begins : w.Begins k) (toggled : w.toggles ≠ []) (ms : List Move)
    (settled : (w.moves ms).Settled) :
    ((w.moves ms).Agrees k ↔ (w.log {} ms).changed = (w.log {} ms).wrote) ∧
      (w.Apart ms → (w.moves ms).Agrees k) := by
  obtain ⟨d, schedule, described, reads⟩ := begins.described
  have toggling : w.Toggling k d (w.scheduler.registry.isArmed k) {} := by
    refine ⟨⟨begins.spared, begins.up, described, rfl⟩, fun t mem => ?_⟩
    obtain ⟨key, asked⟩ := begins.asked t mem
    exact ⟨key, asked ▸ trivial⟩
  have calm : w.Calm {} := by
    refine ⟨fun t mem => ?_, fun _ => rfl⟩
    constructor <;> simp [(begins.asked t mem).2, TogglePhase.isPending]
  have still : 0 < (w.moves ms).toggles.length := by
    rw [length_toggles_moves]
    exact List.length_pos_of_ne_nil toggled
  obtain ⟨t, mem⟩ := List.exists_mem_of_length_pos still
  have agrees := (toggling.moves begins.may reads ms).agrees_iff mem (settled t mem)
  refine ⟨agrees, fun apart => agrees.mpr ?_⟩
  refine (calm.moves begins.may reads toggling apart).quiet fun u mem => ?_
  have returned := settled u mem
  cases phase : u.phase <;> simp_all [TogglePhase.isAnswered, TogglePhase.isPending]

def crossing : Workload where
  scheduler :=
    { clock := { now := ⟨0, 0⟩ }, store := .memory .empty,
      descriptors := .ofList [{ kind := .containerUpdate, id := .numeric 1, cron := "0 4 * * *" }],
      bodies := fun _ _ _ => { work := .ends (.completed .null) } }
  toggles :=
    [{ key := ⟨.containerUpdate, .numeric 1⟩, enabled := true },
     { key := ⟨.containerUpdate, .numeric 1⟩, enabled := false }]

theorem crossing_begins : crossing.Begins ⟨.containerUpdate, .numeric 1⟩ where
  spared := fun _ => ⟨rfl, rfl, rfl, rfl⟩
  up := rfl
  may := rfl
  described := ⟨_, _, rfl, rfl⟩
  asked := by simp [crossing]

def inTurn : List Move :=
  [.toggle 0, .toggle 1, .toggle 1, .toggle 1, .toggle 0, .toggle 0, .toggle 0]

theorem crossing_in_turn :
    (crossing.moves inTurn).Settled ∧ (crossing.moves inTurn).Agrees ⟨.containerUpdate, .numeric 1⟩ := by
  have settled : (crossing.moves inTurn).Settled := by
    unfold Settled
    decide +kernel
  have followed : (crossing.log {} inTurn).changed = (crossing.log {} inTurn).wrote := by
    decide +kernel
  exact ⟨settled, (toggles_agree_iff crossing_begins (by simp [crossing]) inTurn settled).1.mpr followed⟩

-- The toggle that switches off forgets the timer that the other has armed after the last write.
def silencing : List Move :=
  [.toggle 1, .toggle 1, .toggle 0, .toggle 0, .toggle 0, .toggle 0, .toggle 1]

def reviving : List Move :=
  [.toggle 0, .toggle 0, .toggle 0, .toggle 1, .toggle 1, .toggle 1, .toggle 0]

theorem crossing_parts :
    crossing.Begins ⟨.containerUpdate, .numeric 1⟩ ∧
      (crossing.moves silencing).Settled ∧ (crossing.moves reviving).Settled ∧
      ¬ (crossing.moves silencing).Agrees ⟨.containerUpdate, .numeric 1⟩ ∧
      ¬ (crossing.moves reviving).Agrees ⟨.containerUpdate, .numeric 1⟩ := by
  refine ⟨crossing_begins, ?_⟩
  unfold Settled Agrees
  decide +kernel

end Workload

end FleetOps
