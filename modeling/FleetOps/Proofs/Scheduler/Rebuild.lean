import FleetOps.Proofs.Schedule.Table
import FleetOps.Proofs.Scheduler.Registry
import FleetOps.Proofs.Scheduler.Schedules

set_option autoImplicit false

namespace FleetOps

def Descriptor.reads (d : Descriptor) : Bool :=
  match Cron.parse d.cron with
  | .ok _ => true
  | .error _ => false

theorem Descriptor.reads_iff {d : Descriptor} :
    d.reads = true ↔ ∃ schedule, Cron.parse d.cron = .ok schedule := by
  unfold reads
  cases Cron.parse d.cron <;> simp

namespace Registry

variable {r r' r'' : Registry} {d : Descriptor} {ds : List Descriptor} {k : ScheduleKey}

/-- Of the descriptors each that reads is armed as it says; every other key is as before. -/
structure Arms (r : Registry) (ds : List Descriptor) (r' : Registry) : Prop where
  usable : ∀ d ∈ ds, ∀ schedule, Cron.parse d.cron = .ok schedule →
    ∃ token, r'.armed? d.key = some ⟨d.key, d.cron, schedule, d.environment, token⟩
  others : ∀ k, (∀ d ∈ ds, d.key = k → d.reads = false) → r'.armed? k = r.armed? k

def armedWith? (r : Registry) (k : ScheduleKey) : Option (String × Option EnvironmentId) :=
  (r.armed? k).map fun a => (a.cron, a.environment)

namespace Arms

theorem nil (r : Registry) : r.Arms [] r where
  usable := by simp
  others _ _ := rfl

theorem cons (first : r.Arms [d] r') (rest : r'.Arms ds r'') (other : d.key ∉ ds.map (·.key)) :
    r.Arms (d :: ds) r'' := by
  have apart : ∀ e ∈ ds, e.key ≠ d.key := fun e mem same => other (List.mem_map.mpr ⟨e, mem, same⟩)
  constructor
  · intro e mem schedule reads
    rcases List.mem_cons.mp mem with rfl | mem
    · rw [rest.others e.key fun f there same => absurd same (apart f there)]
      exact first.usable e (List.mem_singleton_self e) schedule reads
    · exact rest.usable e mem schedule reads
  · intro k unread
    obtain ⟨here, later⟩ := List.forall_mem_cons.mp unread
    rw [rest.others k later, first.others k (by simpa using here)]

theorem again (first : r.Arms ds r') (second : r'.Arms ds r'') (k : ScheduleKey) :
    r''.armedWith? k = r'.armedWith? k := by
  by_cases unread : ∀ d ∈ ds, d.key = k → d.reads = false
  · rw [armedWith?, armedWith?, second.others k unread]
  · simp only [not_forall, Bool.not_eq_false] at unread
    obtain ⟨d, mem, rfl, reads⟩ := unread
    obtain ⟨schedule, parsed⟩ := Descriptor.reads_iff.mp reads
    obtain ⟨token, before⟩ := first.usable d mem schedule parsed
    obtain ⟨token', after⟩ := second.usable d mem schedule parsed
    simp [armedWith?, before, after]

theorem armed_iff (arms : r.Arms ds r') (bare : r.armed = []) {cron : String} :
    (∃ a, r'.armed? k = some a ∧ a.cron = cron) ↔
      ∃ d ∈ ds, d.reads = true ∧ d.key = k ∧ d.cron = cron := by
  constructor
  · rintro ⟨a, found, rfl⟩
    by_contra unarmed
    have unread : ∀ d ∈ ds, d.key = k → d.reads = false := by
      intro d mem own
      by_contra reads
      rw [Bool.not_eq_false] at reads
      obtain ⟨schedule, parsed⟩ := Descriptor.reads_iff.mp reads
      obtain ⟨token, armed⟩ := arms.usable d mem schedule parsed
      rw [own, found, Option.some.injEq] at armed
      exact unarmed ⟨d, mem, reads, own, by rw [armed]⟩
    have unarmed : r.armed? k = none := by simp [armed?, bare]
    simp [arms.others k unread, unarmed] at found
  · rintro ⟨d, mem, reads, rfl, rfl⟩
    obtain ⟨schedule, parsed⟩ := Descriptor.reads_iff.mp reads
    obtain ⟨token, armed⟩ := arms.usable d mem schedule parsed
    exact ⟨_, armed, rfl⟩

section

variable (arms : r.Arms ds r') (bare : r.armed = []) (once : (r'.armed.map (·.key)).Nodup)

include arms bare once

theorem mem_armed {cron : String} : (∃ a ∈ r'.armed, a.key = k ∧ a.cron = cron) ↔
    ∃ d ∈ ds, d.reads = true ∧ d.key = k ∧ d.cron = cron := by
  rw [← arms.armed_iff bare]
  simp only [armed?, find?_eq_some_of_nodup once, and_assoc]

theorem armed_perm (apart : (ds.map (·.key)).Nodup) :
    (r'.armed.map (·.key)).Perm ((ds.filter (·.reads)).map (·.key)) := by
  refine (List.perm_ext_iff_of_nodup once ?_).mpr fun k => ?_
  · exact apart.sublist (List.filter_sublist.map _)
  · simp only [List.mem_map, List.mem_filter]
    constructor
    · rintro ⟨a, mem, key⟩
      obtain ⟨d, there, reads, own, -⟩ := (arms.mem_armed bare once).mp ⟨a, mem, key, rfl⟩
      exact ⟨d, ⟨there, reads⟩, own⟩
    · rintro ⟨d, ⟨mem, reads⟩, key⟩
      obtain ⟨a, there, own, -⟩ := (arms.mem_armed bare once).mpr ⟨d, mem, reads, key, rfl⟩
      exact ⟨a, there, own⟩

end

end Arms

theorem Paired.timers_follow (paired : r.Paired) (on : d.enabled = true)
    (unread : d.key = k → d.reads = false) (override : Option EnvironmentId) (clock : Clock) :
    (r.follow d.key d override clock).2.timers.filter (·.key = k) = r.timers.filter (·.key = k) := by
  have follows := r.follows_follow d.key d override clock
  generalize (r.follow d.key d override clock).1 = answer,
    (r.follow d.key d override clock).2 = r' at follows
  cases follows with
  | disabled off => simp [on] at off
  | unreadable => rfl
  | late => rfl
  | armed _ parsed =>
    have reads : d.reads = true := Descriptor.reads_iff.mpr ⟨_, parsed⟩
    refine paired.timers_arm ?_
    rintro rfl
    simp [unread rfl] at reads

end Registry

namespace Scheduler

variable {s : Scheduler} {k : ScheduleKey} {d : Descriptor} {ds : List Descriptor}

theorem register_descriptors (s : Scheduler) (k : ScheduleKey) (override : Option EnvironmentId) :
    (s.register k override).2.descriptors = s.descriptors := by
  have same := s.describe_same k
  unfold register
  split <;> next call => simpa [call] using same.descriptors

theorem registerEach_keeps {P : Scheduler → Prop}
    (registered : ∀ d ∈ ds, ∀ s, P s → P (s.register d.key d.environment).2) (holds : P s) :
    P (s.registerEach ds).2 := by
  induction ds generalizing s with
  | nil => exact holds
  | cons d rest ih =>
    obtain ⟨first, registered⟩ := List.forall_mem_cons.mp registered
    have others := ih registered (first s holds)
    unfold registerEach
    dsimp only
    split <;> exact others

theorem start_keeps {P : Scheduler → Prop}
    (registered : ∀ (s : Scheduler) (k : ScheduleKey) (override : Option EnvironmentId),
      P s → P (s.register k override).2)
    (listed : P s.listEnabled.2) : P s.start.2 := by
  unfold start
  split
  · next call => rwa [call] at listed
  · next ds s' call =>
    rw [call] at listed
    exact registerEach_keeps (fun d _ s => registered s d.key d.environment) listed

theorem start_descriptors (s : Scheduler) : s.start.2.descriptors = s.descriptors :=
  start_keeps (P := fun s' => s'.descriptors = s.descriptors)
    (fun s' k override same => (s'.register_descriptors k override).trans same) s.listEnabled_same.descriptors

theorem register_answer (spared : s.faults.SparesDescriptors)
    (described : s.descriptors.get? k = some d) (override : Option EnvironmentId) :
    (s.register k override).1 = (s.registry.follow k d override s.clock).1 ∧
      (s.register k override).2.registry = (s.registry.follow k d override s.clock).2 ∧
      (s.register k override).2.descriptors = s.descriptors ∧
      (s.register k override).2.faults.SparesDescriptors := by
  have answer := (describe_answer spared k).trans (congrArg _ described)
  have same := s.describe_same k
  unfold register
  generalize s.describe k = call at answer same
  obtain ⟨_, s'⟩ := call
  subst answer
  dsimp only at same ⊢
  rw [same.registry, same.clock]
  exact ⟨rfl, rfl, same.descriptors, same.spares spared⟩

theorem register_arms (spared : s.faults.SparesDescriptors) (up : s.registry.isShutDown = false)
    (described : s.descriptors.get? d.key = some d) (on : d.enabled = true) :
    s.registry.Arms [d] (s.register d.key d.environment).2.registry ∧
      (s.register d.key d.environment).2.registry.isShutDown = false ∧
      ((s.register d.key d.environment).1 = .ok true ↔ d.reads = true) := by
  obtain ⟨answer, registry, -⟩ := register_answer spared described d.environment
  have follows := s.registry.follows_follow d.key d d.environment s.clock
  rw [← answer, ← registry] at follows
  generalize (s.register d.key d.environment).1 = result at follows
  generalize (s.register d.key d.environment).2.registry = r at follows
  cases follows with
  | disabled off => simp [on] at off
  | late _ _ down => simp [up] at down
  | unreadable _ bad =>
    have unread : d.reads = false := by simp [Descriptor.reads, bad]
    exact ⟨⟨by simp [bad], fun _ _ => rfl⟩, up, by simp [unread]⟩
  | @armed schedule _ reads =>
    have read : d.reads = true := Descriptor.reads_iff.mpr ⟨schedule, reads⟩
    refine ⟨⟨?_, ?_⟩, (s.registry.isShutDown_disarm d.key).trans up, by simp [read]⟩
    · intro e mem schedule' reads'
      obtain rfl := List.mem_singleton.mp mem
      obtain rfl := Except.ok.inj (reads.symm.trans reads')
      exact ⟨_, by rw [Registry.armed?_arm, if_pos rfl, Option.or_self]⟩
    · intro k unread
      have other : k ≠ d.key := by
        rintro rfl
        simp [read] at unread
      rw [Registry.armed?_arm, if_neg other]

theorem registerEach_arms (spared : s.faults.SparesDescriptors) (up : s.registry.isShutDown = false)
    (apart : (ds.map (·.key)).Nodup)
    (listed : ∀ d ∈ ds, s.descriptors.get? d.key = some d ∧ d.enabled = true) :
    (s.registerEach ds).1 = (ds.filter (·.reads)).length ∧
      s.registry.Arms ds (s.registerEach ds).2.registry := by
  induction ds generalizing s with
  | nil => exact ⟨rfl, .nil _⟩
  | cons d rest ih =>
    obtain ⟨other, apart⟩ := List.nodup_cons.mp apart
    obtain ⟨⟨described, on⟩, listed⟩ := List.forall_mem_cons.mp listed
    obtain ⟨arms, up', counted⟩ := register_arms spared up described on
    obtain ⟨-, -, descriptors, spared'⟩ := register_answer spared described d.environment
    obtain ⟨count, armed⟩ := ih spared' up' apart (by rwa [descriptors])
    simp only [registerEach]
    split
    · next answer => exact ⟨by simp [counted.mp answer, count], arms.cons armed other⟩
    · next answer =>
      have unread : d.reads = false := by
        rw [← Bool.not_eq_true, ← counted]
        exact answer
      exact ⟨by simp [unread, count], arms.cons armed other⟩

theorem register_late (spared : s.faults.SparesDescriptors) (down : s.registry.isShutDown = true)
    (described : s.descriptors.get? d.key = some d) (on : d.enabled = true) :
    (s.register d.key d.environment).1 ≠ .ok true ∧
      (s.register d.key d.environment).2.registry = s.registry := by
  obtain ⟨answer, registry, -⟩ := register_answer spared described d.environment
  have follows := s.registry.follows_follow d.key d d.environment s.clock
  rw [← answer, ← registry] at follows
  generalize (s.register d.key d.environment).1 = result at follows ⊢
  generalize (s.register d.key d.environment).2.registry = r at follows ⊢
  cases follows with
  | disabled off => simp [on] at off
  | unreadable => exact ⟨by simp, rfl⟩
  | late => exact ⟨by simp, rfl⟩
  | armed _ _ up => simp [down] at up

theorem registerEach_late (spared : s.faults.SparesDescriptors) (down : s.registry.isShutDown = true)
    (listed : ∀ d ∈ ds, s.descriptors.get? d.key = some d ∧ d.enabled = true) :
    (s.registerEach ds).1 = 0 ∧ (s.registerEach ds).2.registry = s.registry := by
  induction ds generalizing s with
  | nil => exact ⟨rfl, rfl⟩
  | cons d rest ih =>
    obtain ⟨⟨described, on⟩, listed⟩ := List.forall_mem_cons.mp listed
    obtain ⟨unarmed, kept⟩ := register_late spared down described on
    obtain ⟨-, -, descriptors, spared'⟩ := register_answer spared described d.environment
    obtain ⟨count, left⟩ := ih spared' (by rw [kept, down]) (by rwa [descriptors])
    simp only [registerEach]
    exact ⟨count, left.trans kept⟩

theorem registerEach_timers (spared : s.faults.SparesDescriptors) (paired : s.registry.Paired)
    (listed : ∀ d ∈ ds, s.descriptors.get? d.key = some d ∧ d.enabled = true)
    (unread : ∀ d ∈ ds, d.key = k → d.reads = false) :
    (s.registerEach ds).2.registry.timers.filter (·.key = k) = s.registry.timers.filter (·.key = k) := by
  let Same (s' : Scheduler) : Prop := s'.descriptors = s.descriptors ∧ s'.faults.SparesDescriptors ∧
    s'.registry.Paired ∧ s'.registry.timers.filter (·.key = k) = s.registry.timers.filter (·.key = k)
  have kept : Same (s.registerEach ds).2 := by
    refine registerEach_keeps (fun d mem s' same => ?_) ⟨rfl, spared, paired, rfl⟩
    obtain ⟨descriptors, spared, paired, timers⟩ := same
    obtain ⟨described, on⟩ := listed d mem
    obtain ⟨-, registry, descriptors', spared'⟩ :=
      register_answer spared (by rwa [descriptors]) d.environment
    refine ⟨descriptors'.trans descriptors, spared', ?_, ?_⟩
    · rw [registry]
      exact paired.tended (.follow s'.registry d.key d d.environment s'.clock)
    · rw [registry, paired.timers_follow on (unread d mem), timers]
  exact kept.2.2.2

theorem start_open (spared : s.faults.SparesDescriptors) :
    s.start.2.descriptors = s.descriptors ∧ s.start.2.faults.SparesDescriptors ∧
      s.start.2.registry.isShutDown = s.registry.isShutDown := by
  refine ⟨s.start_descriptors, ?_⟩
  have listed := s.listEnabled_same
  refine start_keeps (P := fun s' => s'.faults.SparesDescriptors ∧
    s'.registry.isShutDown = s.registry.isShutDown) (fun s' k override kept => ?_)
    ⟨listed.spares spared, by rw [listed.registry]⟩
  have described := s'.describe_same k
  unfold register
  split
  · next call =>
    rw [call] at described
    exact ⟨described.spares kept.1, by rw [described.registry, kept.2]⟩
  · next call =>
    rw [call] at described
    exact ⟨described.spares kept.1, by rw [described.registry, kept.2]⟩
  · next d s'' call =>
    rw [call] at described
    have tended := Registry.Tended.follow s''.registry k d override s''.clock
    exact ⟨described.spares kept.1, by rw [tended.isShutDown, described.registry, kept.2]⟩

theorem start_lists (spared : s.faults.SparesDescriptors) (sorted : s.descriptors.Sorted) :
    ∃ s', s.SameSchedules s' ∧ s.start.1 = .ok (s'.registerEach s.descriptors.enabled).1 ∧
      s.start.2 = (s'.registerEach s.descriptors.enabled).2 ∧
      ∀ d ∈ s.descriptors.enabled, s'.descriptors.get? d.key = some d ∧ d.enabled = true := by
  have answer := listEnabled_answer spared
  have same := s.listEnabled_same
  unfold start
  generalize s.listEnabled = call at answer same
  obtain ⟨_, s'⟩ := call
  subst answer
  refine ⟨s', same, rfl, rfl, fun d mem => ?_⟩
  obtain ⟨there, on⟩ := List.mem_filter.mp mem
  rw [same.descriptors]
  exact ⟨(DescriptorTable.get?_eq_some sorted).mpr ⟨there, rfl⟩, on⟩

theorem start_arms (spared : s.faults.SparesDescriptors) (up : s.registry.isShutDown = false)
    (sorted : s.descriptors.Sorted) :
    s.start.1 = .ok (s.descriptors.enabled.filter (·.reads)).length ∧
      s.registry.Arms s.descriptors.enabled s.start.2.registry := by
  obtain ⟨s', same, answer, started, listed⟩ := start_lists spared sorted
  have apart : (s.descriptors.enabled.map (·.key)).Nodup :=
    sorted.nodup_keys.sublist (List.filter_sublist.map _)
  obtain ⟨count, arms⟩ :=
    registerEach_arms (same.spares spared) (by rw [same.registry, up]) apart listed
  rw [same.registry, ← started] at arms
  exact ⟨answer.trans (congrArg _ count), arms⟩

theorem start_late (spared : s.faults.SparesDescriptors) (down : s.registry.isShutDown = true)
    (sorted : s.descriptors.Sorted) : s.start.1 = .ok 0 ∧ s.start.2.registry = s.registry := by
  obtain ⟨s', same, answer, started, listed⟩ := start_lists spared sorted
  obtain ⟨count, left⟩ := registerEach_late (same.spares spared) (by rw [same.registry, down]) listed
  rw [answer, started, count, left]
  exact ⟨rfl, same.registry⟩

theorem start_timers (spared : s.faults.SparesDescriptors) (sorted : s.descriptors.Sorted)
    (paired : s.registry.Paired) (unread : ∀ d ∈ s.descriptors.enabled, d.key = k → d.reads = false) :
    s.start.2.registry.timers.filter (·.key = k) = s.registry.timers.filter (·.key = k) := by
  obtain ⟨s', same, -, started, listed⟩ := start_lists spared sorted
  have left := registerEach_timers (same.spares spared) (by rwa [same.registry]) listed unread
  rw [started, left, same.registry]

/-- A start arms just the enabled descriptors that read, each by its own cron text and environment, and no
other entry is touched. A second one, at whatever time, answers the same and changes no entry. Once the
registry is shut down, a start arms nothing. -/
theorem start_again (spared : s.faults.SparesDescriptors) (sorted : s.descriptors.Sorted) :
    let usable := s.descriptors.enabled.filter (·.reads)
    (s.registry.isShutDown = false →
      s.start.1 = .ok usable.length ∧
      (∀ d ∈ usable, s.start.2.registry.armedWith? d.key = some (d.cron, d.environment)) ∧
      (∀ k ∉ usable.map (·.key), s.start.2.registry.armed? k = s.registry.armed? k ∧
        (s.registry.Paired →
          s.start.2.registry.timers.filter (·.key = k) = s.registry.timers.filter (·.key = k))) ∧
      ∀ clock, let later : Scheduler := { s.start.2 with clock }
        later.start.1 = .ok usable.length ∧
        ∀ k, later.start.2.registry.armedWith? k = s.start.2.registry.armedWith? k) ∧
    (s.registry.isShutDown = true → s.start.1 = .ok 0 ∧ s.start.2.registry = s.registry) := by
  intro usable
  refine ⟨fun up => ?_, fun down => start_late spared down sorted⟩
  obtain ⟨count, arms⟩ := start_arms spared up sorted
  obtain ⟨descriptors, spared', up'⟩ := start_open spared
  refine ⟨count, fun d mem => ?_, fun k other => ?_, fun clock => ?_⟩
  · obtain ⟨enabled, reads⟩ := List.mem_filter.mp mem
    obtain ⟨schedule, parsed⟩ := Descriptor.reads_iff.mp reads
    obtain ⟨token, armed⟩ := arms.usable d enabled schedule parsed
    simp [Registry.armedWith?, armed]
  · have unread : ∀ d ∈ s.descriptors.enabled, d.key = k → d.reads = false := by
      intro d mem own
      by_contra reads
      exact other (List.mem_map.mpr ⟨d, List.mem_filter.mpr ⟨mem, by simpa using reads⟩, own⟩)
    exact ⟨arms.others k unread, fun paired => start_timers spared sorted paired unread⟩
  · intro later
    have table : later.descriptors = s.descriptors := descriptors
    obtain ⟨count', arms'⟩ := start_arms (s := later) spared' (up'.trans up) (table ▸ sorted)
    rw [table] at count' arms'
    exact ⟨count', arms.again arms'⟩

def crowded : Scheduler where
  clock := { now := ⟨0, 0⟩ }
  store := .memory .empty
  descriptors := .ofList
    [{ kind := .containerUpdate, id := .numeric 1, cron := "0 4 * * *", environment := some 3 },
     { kind := .containerUpdate, id := .numeric 2, cron := "never" },
     { kind := .gitStackSync, id := .numeric 3, cron := "0 5 * * *", enabled := false }]
  registry :=
    let schedule : Cron.Schedule := ⟨"", [0], [0], [0], [1], [1], [1], []⟩
    (Registry.empty.arm ⟨.containerUpdate, .numeric 1⟩ "0 1 * * *" schedule none { now := ⟨0, 0⟩ }).arm
      ⟨.containerUpdate, .numeric 2⟩ "0 2 * * *" schedule (some 7) { now := ⟨0, 0⟩ }
  bodies := fun _ _ _ => { work := .ends (.completed .null) }

theorem crowded_again :
    crowded.registry.isShutDown = false ∧ crowded.start.1 = .ok 1 ∧
      crowded.start.2.start.1 = .ok 1 ∧
      crowded.start.2.start.2.registry.armedWith? ⟨.containerUpdate, .numeric 1⟩ = some ("0 4 * * *", some 3) ∧
      crowded.start.2.start.2.registry.armedWith? ⟨.containerUpdate, .numeric 2⟩ = some ("0 2 * * *", some 7) ∧
      crowded.shutdown.start.1 = .ok 0 ∧ crowded.shutdown.start.2.registry = crowded.registry.shutdown := by
  have spared : crowded.faults.SparesDescriptors := fun _ => ⟨rfl, rfl, rfl, rfl⟩
  have sorted : crowded.descriptors.Sorted := DescriptorTable.sorted_empty.upserts _
  have usable : crowded.descriptors.enabled.filter (·.reads) =
      [{ kind := .containerUpdate, id := .numeric 1, cron := "0 4 * * *", environment := some 3 }] := by
    decide +kernel
  obtain ⟨count, armed, others, later⟩ := (start_again spared sorted).1 rfl
  obtain ⟨count', kept⟩ := later crowded.start.2.clock
  rw [usable] at count armed others count'
  have first := armed _ (List.mem_singleton_self _)
  obtain ⟨second, -⟩ := others ⟨.containerUpdate, .numeric 2⟩ (by decide)
  refine ⟨rfl, count, count', (kept _).trans first, ?_, (start_again (s := crowded.shutdown) spared sorted).2 rfl⟩
  rw [kept, Registry.armedWith?, second]
  rfl

end Scheduler

end FleetOps
