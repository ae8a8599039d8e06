import FleetOps.Proofs.Lists
import FleetOps.Scheduler.Registry

set_option autoImplicit false

namespace FleetOps

structure Arming where
  token : Nat
  key : ScheduleKey
  environment : Option EnvironmentId
  schedule : Cron.Schedule

def ArmedSchedule.arming (a : ArmedSchedule) : Arming :=
  ⟨a.token, a.key, a.environment, a.schedule⟩

def LiveTimer.arming (t : LiveTimer) : Arming :=
  ⟨t.token, t.key, t.environment, t.timer.schedule⟩

namespace Registry

variable {r r' : Registry} {k l : ScheduleKey} {a : ArmedSchedule} {d : Descriptor}
  {override environment : Option EnvironmentId} {cron : String} {schedule : Cron.Schedule} {clock : Clock}

theorem insertByKey_perm (a : ArmedSchedule) (armed : List ArmedSchedule) :
    (insertByKey a armed).Perm (a :: armed) := by
  induction armed with
  | nil => exact .refl _
  | cons b rest ih =>
    simp only [insertByKey]
    split
    · exact .refl _
    · exact (ih.cons b).trans (.swap a b rest)

theorem find?_insertByKey (a : ArmedSchedule) {armed : List ArmedSchedule}
    (absent : ∀ b ∈ armed, b.key ≠ a.key) (k : ScheduleKey) :
    (insertByKey a armed).find? (·.key = k) =
      if k = a.key then some a else armed.find? (·.key = k) := by
  induction armed with
  | nil => by_cases same : k = a.key <;> simp [insertByKey, same, eq_comm]
  | cons b rest ih =>
    obtain ⟨other, absent⟩ := List.forall_mem_cons.mp absent
    simp only [insertByKey]
    split
    · by_cases same : k = a.key <;> simp [same, eq_comm]
    · rw [List.find?_cons, ih absent, List.find?_cons]
      by_cases same : k = a.key
      · simp [same, other]
      · simp [same]

theorem armed_disarm (r : Registry) (k : ScheduleKey) :
    (r.disarm k).armed = r.armed.filter (·.key ≠ k) := by
  unfold disarm
  cases found : r.armed? k with
  | some a => rfl
  | none =>
    refine (List.filter_eq_self.mpr fun b mem => ?_).symm
    simpa using List.find?_eq_none.mp found b mem

theorem armed?_disarm (r : Registry) (k l : ScheduleKey) :
    (r.disarm k).armed? l = if l = k then none else r.armed? l := by
  unfold armed?
  rw [armed_disarm, List.find?_filter]
  split_ifs with same
  · simp [same]
  · congr 1
    funext b
    by_cases here : b.key = l <;> simp [here, same]

theorem armed?_arm (r : Registry) (k : ScheduleKey) (cron : String) (schedule : Cron.Schedule)
    (environment : Option EnvironmentId) (clock : Clock) (l : ScheduleKey) :
    (r.arm k cron schedule environment clock).armed? l =
      if l = k then some ⟨k, cron, schedule, environment, (r.disarm k).nextToken⟩ else r.armed? l := by
  have absent : ∀ b ∈ (r.disarm k).armed, b.key ≠ k := by simp [armed_disarm]
  refine (find?_insertByKey _ absent l).trans ?_
  have disarmed := r.armed?_disarm k l
  unfold armed? at disarmed
  split_ifs with same
  · rfl
  · rw [disarmed, if_neg same]
    rfl

theorem isArmed_disarm (r : Registry) (k : ScheduleKey) : (r.disarm k).isArmed k = false := by
  simp [isArmed, armed?_disarm]

theorem isArmed_arm (r : Registry) : (r.arm k cron schedule environment clock).isArmed k = true := by
  simp [isArmed, armed?_arm]

theorem isShutDown_disarm (r : Registry) (k : ScheduleKey) : (r.disarm k).isShutDown = r.isShutDown := by
  unfold disarm
  split <;> rfl

inductive Follows (r : Registry) (k : ScheduleKey) (d : Descriptor) (override : Option EnvironmentId)
    (clock : Clock) : Except SchedulerError Bool → Registry → Prop where
  | disabled (off : d.enabled = false) (may : k.kind.canDisable = true) :
      Follows r k d override clock (.ok false) (r.disarm k)
  | unreadable {e : SchedulerError} (on : d.enabled = true ∨ k.kind.canDisable = false)
      (bad : Cron.parse d.cron = .error e) : Follows r k d override clock (.error e) r
  | late {schedule : Cron.Schedule} (on : d.enabled = true ∨ k.kind.canDisable = false)
      (reads : Cron.parse d.cron = .ok schedule) (down : r.isShutDown = true) :
      Follows r k d override clock (.ok false) r
  | armed {schedule : Cron.Schedule} (on : d.enabled = true ∨ k.kind.canDisable = false)
      (reads : Cron.parse d.cron = .ok schedule) (up : r.isShutDown = false) :
      Follows r k d override clock (.ok true)
        (r.arm k d.cron schedule (override.or d.environment) clock)

theorem follows_follow (r : Registry) (k : ScheduleKey) (d : Descriptor)
    (override : Option EnvironmentId) (clock : Clock) :
    r.Follows k d override clock (r.follow k d override clock).1 (r.follow k d override clock).2 := by
  unfold follow
  split
  · next off =>
    have off : d.enabled = false ∧ k.kind.canDisable = true := by simpa using off
    exact .disabled off.1 off.2
  · next on =>
    have on : d.enabled = true ∨ k.kind.canDisable = false := by
      cases enabled : d.enabled <;> simp_all
    cases reads : Cron.parse d.cron with
    | error e => exact .unreadable on reads
    | ok schedule =>
      cases down : r.isShutDown with
      | true => simpa [down] using .late on reads down
      | false => simpa [down] using .armed on reads down

inductive Tended (clock : Clock) (r : Registry) : Registry → Prop where
  | same : Tended clock r r
  | disarm {r' : Registry} (tended : Tended clock r r') (k : ScheduleKey) : Tended clock r (r'.disarm k)
  | arm {r' : Registry} (tended : Tended clock r r') {k : ScheduleKey} {cron : String}
      {schedule : Cron.Schedule} {environment : Option EnvironmentId}
      (reads : Cron.parse cron = .ok schedule) (up : r'.isShutDown = false) :
      Tended clock r (r'.arm k cron schedule environment clock)
  | refire {r' : Registry} (tended : Tended clock r r') {t : LiveTimer} {f : Firing}
      (alive : t ∈ r'.timers) (due : t.timer.pending = some f) : Tended clock r (r'.refire t f clock)

namespace Tended

theorem trans {r'' : Registry} (first : r.Tended clock r') (rest : r'.Tended clock r'') :
    r.Tended clock r'' := by
  induction rest with
  | same => exact first
  | disarm _ k ih => exact ih.disarm k
  | arm _ reads up ih => exact ih.arm reads up
  | refire _ alive due ih => exact ih.refire alive due

theorem follow (r : Registry) (k : ScheduleKey) (d : Descriptor) (override : Option EnvironmentId)
    (clock : Clock) : r.Tended clock (r.follow k d override clock).2 := by
  have follows := r.follows_follow k d override clock
  generalize (r.follow k d override clock).1 = answer, (r.follow k d override clock).2 = r' at follows
  cases follows with
  | disabled => exact .disarm .same k
  | unreadable => exact .same
  | late => exact .same
  | armed on reads up => exact .arm .same reads up

theorem isShutDown (tended : r.Tended clock r') : r'.isShutDown = r.isShutDown := by
  induction tended with
  | same => rfl
  | disarm _ k ih => rw [isShutDown_disarm, ih]
  | @arm r' _ k _ _ _ _ _ ih => exact (r'.isShutDown_disarm k).trans ih
  | refire _ _ _ ih => exact ih

end Tended

structure Closed (r : Registry) : Prop where
  down : r.isShutDown = true
  armed : r.armed = []
  timers : r.timers = []

theorem closed_shutdown (r : Registry) : r.shutdown.Closed :=
  ⟨rfl, rfl, rfl⟩

theorem Closed.tended (closed : r.Closed) (tended : r.Tended clock r') : r'.Closed := by
  induction tended with
  | same => exact closed
  | @disarm r' _ k ih =>
    have unarmed : r'.disarm k = r' := by simp [Registry.disarm, armed?, ih.armed]
    exact unarmed.symm ▸ ih
  | arm _ _ up ih => exact absurd ih.down (by simp [up])
  | refire _ alive _ ih => simp [ih.timers] at alive

/-- Each entry of the table has a timer of its own, and there are no other timers. -/
structure Paired (r : Registry) : Prop where
  keys : (r.armed.map (·.key)).Nodup
  tokens : (r.armed.map (·.token)).Nodup
  fresh : ∀ a ∈ r.armed, a.token < r.nextToken
  timers : (r.timers.map (·.arming)).Perm (r.armed.map (·.arming))
  readable : ∀ a ∈ r.armed, Cron.parse a.cron = .ok a.schedule

namespace Paired

theorem of_bare (unarmed : r.armed = []) (idle : r.timers = []) : r.Paired := by
  constructor <;> simp [unarmed, idle]

theorem empty : Registry.empty.Paired :=
  of_bare rfl rfl

theorem disarm (paired : r.Paired) (k : ScheduleKey) : (r.disarm k).Paired := by
  unfold Registry.disarm
  cases found : r.armed? k with
  | none => exact paired
  | some a =>
    obtain ⟨mem, rfl⟩ := (find?_eq_some_of_nodup paired.keys).mp found
    -- The entry of the key is the one entry that has its token.
    have named : ∀ b ∈ r.armed, b.key ≠ a.key ↔ b.token ≠ a.token := by
      intro b here
      rw [not_iff_not]
      constructor <;> intro same
      · rw [List.inj_on_of_nodup_map paired.keys here mem same]
      · rw [List.inj_on_of_nodup_map paired.tokens here mem same]
    have cut : r.armed.filter (·.key ≠ a.key) = r.armed.filter (·.token ≠ a.token) :=
      List.filter_congr fun b here => decide_eq_decide.mpr (named b here)
    have left : (r.armed.filter (·.key ≠ a.key)).Sublist r.armed := List.filter_sublist
    constructor
    · exact paired.keys.sublist (left.map _)
    · exact paired.tokens.sublist (left.map _)
    · exact fun b here => paired.fresh b (left.subset here)
    · have kept := paired.timers.filter fun x => x.token ≠ a.token
      rw [List.filter_map, List.filter_map] at kept
      dsimp only [cancel]
      rw [cut]
      exact kept
    · exact fun b here => paired.readable b (left.subset here)

theorem arm (paired : r.Paired) (reads : Cron.parse cron = .ok schedule) :
    (r.arm k cron schedule environment clock).Paired := by
  have absent : ∀ b ∈ (r.disarm k).armed, b.key ≠ k := by simp [armed_disarm]
  have paired := paired.disarm k
  unfold Registry.arm
  generalize r.disarm k = r at paired absent
  have perm := insertByKey_perm ⟨k, cron, schedule, environment, r.nextToken⟩ r.armed
  constructor
  · refine (perm.map _).nodup_iff.mpr (List.nodup_cons.mpr ⟨fun there => ?_, paired.keys⟩)
    obtain ⟨b, mem, same⟩ := List.mem_map.mp there
    exact absent b mem same
  · refine (perm.map _).nodup_iff.mpr (List.nodup_cons.mpr ⟨fun there => ?_, paired.tokens⟩)
    obtain ⟨b, mem, same⟩ := List.mem_map.mp there
    exact absurd same (paired.fresh b mem).ne
  · intro b mem
    rcases List.mem_cons.mp (perm.mem_iff.mp mem) with rfl | mem
    · exact Nat.lt_succ_self _
    · exact Nat.lt_succ_of_lt (paired.fresh b mem)
  · refine .trans ?_ (perm.map _).symm
    rw [List.map_append, List.map_cons]
    exact (List.perm_append_singleton _ _).trans (paired.timers.cons _)
  · intro b mem
    rcases List.mem_cons.mp (perm.mem_iff.mp mem) with rfl | mem
    · exact reads
    · exact paired.readable b mem

theorem refire (paired : r.Paired) (t : LiveTimer) (f : Firing) (clock : Clock) :
    (r.refire t f clock).Paired := by
  have same : (r.refire t f clock).timers.map (·.arming) = r.timers.map (·.arming) := by
    simp only [Registry.refire, List.map_map]
    refine List.map_congr_left fun u _ => ?_
    dsimp only [Function.comp]
    split <;> rfl
  exact ⟨paired.keys, paired.tokens, paired.fresh, same ▸ paired.timers, paired.readable⟩

theorem tended (paired : r.Paired) (tended : r.Tended clock r') : r'.Paired := by
  induction tended with
  | same => exact paired
  | disarm _ k ih => exact ih.disarm k
  | arm _ reads _ ih => exact ih.arm reads
  | refire _ _ _ ih => exact ih.refire _ _ _

theorem timers_disarm (paired : r.Paired) (other : l ≠ k) :
    (r.disarm k).timers.filter (·.key = l) = r.timers.filter (·.key = l) := by
  unfold Registry.disarm
  cases found : r.armed? k with
  | none => rfl
  | some a =>
    obtain ⟨mem, rfl⟩ := (find?_eq_some_of_nodup paired.keys).mp found
    dsimp only [cancel]
    rw [List.filter_filter]
    refine List.filter_congr fun t here => ?_
    -- The token that is cancelled is that of one entry, and of the timer of its key alone.
    have named : t.key = l → t.token ≠ a.token := by
      rintro rfl same
      obtain ⟨b, there, arming⟩ := List.mem_map.mp (paired.timers.mem_iff.mp (List.mem_map_of_mem here))
      have token : b.token = a.token := (congrArg Arming.token arming).trans same
      obtain rfl := List.inj_on_of_nodup_map paired.tokens there mem token
      exact other (congrArg Arming.key arming).symm
    by_cases own : t.key = l <;> simp [own, named]

theorem timers_arm (paired : r.Paired) (other : l ≠ k) :
    (r.arm k cron schedule environment clock).timers.filter (·.key = l) =
      r.timers.filter (·.key = l) := by
  simp [Registry.arm, List.filter_append, paired.timers_disarm other, other.symm]

theorem nodup_timers (paired : r.Paired) : (r.timers.map (·.token)).Nodup := by
  have tokens : (r.timers.map (·.token)).Perm (r.armed.map (·.token)) := by
    simpa [LiveTimer.arming, ArmedSchedule.arming, Function.comp_def] using paired.timers.map Arming.token
  exact tokens.nodup_iff.mpr paired.tokens

theorem nodup_keys (paired : r.Paired) : (r.timers.map (·.key)).Nodup := by
  have keys : (r.timers.map (·.key)).Perm (r.armed.map (·.key)) := by
    simpa [LiveTimer.arming, ArmedSchedule.arming, Function.comp_def] using paired.timers.map Arming.key
  exact keys.nodup_iff.mpr paired.keys

theorem find?_timer (paired : r.Paired) {t : LiveTimer} (alive : t ∈ r.timers) :
    r.timers.find? (·.token = t.token) = some t :=
  (find?_eq_some_of_nodup paired.nodup_timers).mpr ⟨alive, rfl⟩

theorem exists_timer (paired : r.Paired) {a : ArmedSchedule} (mem : a ∈ r.armed) :
    ∃ t ∈ r.timers, t.arming = a.arming :=
  List.mem_map.mp (paired.timers.mem_iff.mpr (List.mem_map_of_mem mem))

end Paired

end Registry

/-- A timer that was started, and that woke up from each of its firings, at some of these readings of the
clock; it now looks for an instant past `after`. -/
inductive Timer.Looks (readings : List Clock) : Timer → Instant → Prop where
  | start {schedule : Cron.Schedule} {clock : Clock} (read : clock ∈ readings) :
      Looks readings (Timer.start Cron.Schedule.nextAfter schedule clock) clock.now
  | refire {t : Timer} {after : Instant} {f : Firing} {clock : Clock} (looks : Looks readings t after)
      (due : t.pending = some f) (read : clock ∈ readings) :
      Looks readings (t.refire Cron.Schedule.nextAfter f clock.now clock) (f.instant.max clock.now)

theorem Timer.Looks.pending {readings : List Clock} {t : Timer} {after : Instant}
    (looks : t.Looks readings after) : t.pending.map (·.instant) = t.schedule.nextAfter after := by
  cases looks <;> simp [Timer.start, Timer.refire, Timer.plan, Function.comp_def]

namespace Registry

variable {r r' : Registry} {clock : Clock} {readings : List Clock}

def Looks (readings : List Clock) (r : Registry) : Prop :=
  ∀ t ∈ r.timers, ∃ after, t.timer.Looks readings after

theorem Looks.disarm (looks : r.Looks readings) (k : ScheduleKey) : (r.disarm k).Looks readings := by
  unfold Registry.disarm
  split
  · exact looks
  · exact fun t mem => looks t (List.mem_filter.mp mem).1

theorem Looks.tended (looks : r.Looks readings) (paired : r.Paired) (read : clock ∈ readings)
    (tended : r.Tended clock r') : r'.Looks readings := by
  induction tended with
  | same => exact looks
  | disarm _ k ih => exact ih.disarm k
  | @arm r' _ k _ _ _ _ _ ih =>
    intro t mem
    rcases List.mem_append.mp mem with mem | new
    · exact ih.disarm k t mem
    · obtain rfl := List.mem_singleton.mp new
      exact ⟨_, .start read⟩
  | @refire r' tended t f alive due ih =>
    intro u' mem
    obtain ⟨u, here, rfl⟩ := List.mem_map.mp mem
    split
    · next same =>
      -- Tokens tell the timers apart, so the one that fires is the one that is replaced.
      obtain rfl := List.inj_on_of_nodup_map (paired.tended tended).nodup_timers here alive same
      obtain ⟨after, looks⟩ := ih u here
      exact ⟨_, .refire looks due read⟩
    · exact ih u here

end Registry

end FleetOps
