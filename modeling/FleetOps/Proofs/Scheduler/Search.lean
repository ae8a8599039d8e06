import FleetOps.Execution.Filters
import FleetOps.Proofs.Execution.Query
import FleetOps.Proofs.Lists
import FleetOps.Scheduler.Trigger

set_option autoImplicit false

namespace FleetOps

def Fails {ε α : Type} (x : Except ε α) : Prop :=
  ∃ e, x = .error e

theorem fails_bind {ε α β : Type} {x : Except ε α} {f : α → Except ε β} {later : Prop}
    (next : ∀ a, Fails (f a) ↔ later) : Fails (x >>= f) ↔ Fails x ∨ later := by
  cases x with
  | error e => simp [Fails, bind, Except.bind]
  | ok a =>
    have first : ¬ Fails (.ok a : Except ε α) := by simp [Fails]
    rw [or_iff_right first]
    exact next a

theorem fails_mapError {ε ε' α : Type} {x : Except ε α} (lift : ε → ε') : Fails (x.mapError lift) ↔ Fails x := by
  cases x <;> simp [Fails, Except.mapError]

theorem mapError_eq_ok {ε ε' α : Type} {x : Except ε α} {lift : ε → ε'} {a : α} :
    x.mapError lift = .ok a ↔ x = .ok a := by
  cases x <;> simp [Except.mapError]

section Options

variable {ε α : Type} {parse : String → Except ε α} {lift : ε → FilterError} {given : Option String}

def readOption (parse : String → Except ε α) (lift : ε → FilterError) (given : Option String) :
    Except FilterError (Option α) :=
  match given with
  | none => .ok none
  | some text => ((parse text).map some).mapError lift

theorem fails_readOption : Fails (readOption parse lift given) ↔ ∃ text ∈ given, Fails (parse text) := by
  cases given with
  | none => simp [Fails, readOption]
  | some text => cases read : parse text <;> simp [Fails, readOption, read, Except.map, Except.mapError]

theorem readOption_meaning {found : Option α} (read : readOption parse lift given = .ok found) (a : α) :
    (∀ b ∈ found, a = b) ↔ ∀ text ∈ given, parse text = .ok a := by
  cases given with
  | none =>
    obtain rfl := Except.ok.inj read
    simp
  | some text =>
    cases own : parse text with
    | error e => simp [readOption, own, Except.map, Except.mapError] at read
    | ok b =>
      have same : some b = found := by simpa [readOption, own, Except.map, Except.mapError] using read
      subst same
      simp [own, eq_comm]

end Options

namespace ExecutionFilters

variable {f : ExecutionFilters} {q : ExecutionQuery} {r : ExecutionRecord} {texts : List String}
  {statuses : List ExecutionStatus}

theorem readKind_eq (f : ExecutionFilters) : f.readKind = readOption ScheduleKind.parse .schedule f.kind := rfl

theorem readId_eq (f : ExecutionFilters) : f.readId = readOption ScheduleId.parse .schedule f.id := rfl

theorem readTrigger_eq (f : ExecutionFilters) : f.readTrigger = readOption TriggerSource.parse .name f.trigger :=
  rfl

theorem fails_readStatuses : Fails (readStatuses texts) ↔ ∃ text ∈ texts, Fails (ExecutionStatus.parse text) := by
  induction texts with
  | nil => simp [Fails, readStatuses]
  | cons text rest ih =>
    have tail (status : ExecutionStatus) :
        Fails (readStatuses rest >>= fun others => .ok (status :: others)) ↔ Fails (readStatuses rest) := by
      rw [fails_bind fun others => (by simp [Fails] : Fails (.ok (status :: others)) ↔ False), or_false]
    rw [List.exists_mem_cons_iff, ← ih, ← fails_mapError FilterError.name]
    exact fails_bind tail

theorem readStatuses_meaning (read : readStatuses texts = .ok statuses) (s : ExecutionStatus) :
    s ∈ statuses ↔ ∃ text ∈ texts, ExecutionStatus.parse text = .ok s := by
  induction texts generalizing statuses with
  | nil =>
    obtain rfl := Except.ok.inj read
    simp
  | cons text rest ih =>
    obtain ⟨status, head, read⟩ := bind_eq_ok.mp read
    obtain ⟨others, tail, read⟩ := bind_eq_ok.mp read
    obtain rfl := Except.ok.inj read
    rw [List.mem_cons, List.exists_mem_cons_iff, ih tail, mapError_eq_ok.mp head, Except.ok.injEq, eq_comm]

theorem readStatuses_none (read : readStatuses texts = .ok statuses) : statuses = [] ↔ texts = [] := by
  cases texts with
  | nil =>
    obtain rfl := Except.ok.inj read
    simp
  | cons text rest =>
    obtain ⟨status, -, read⟩ := bind_eq_ok.mp read
    obtain ⟨others, -, read⟩ := bind_eq_ok.mp read
    obtain rfl := Except.ok.inj read
    simp

theorem fails_readEnvironment : Fails f.readEnvironment ↔ f.environment ≠ none ∧ f.unscoped = true := by
  unfold readEnvironment
  cases f.environment <;> cases f.unscoped <;> simp [Fails]

theorem readEnvironment_meaning {filter : EnvironmentFilter} (read : f.readEnvironment = .ok filter)
    (e : Option EnvironmentId) :
    filter.admits e = true ↔ (∀ id ∈ f.environment, e = some id) ∧ (f.unscoped = true → e = none) := by
  unfold readEnvironment at read
  cases given : f.environment <;> cases apart : f.unscoped <;> rw [given, apart] at read <;> cases read <;>
    simp [EnvironmentFilter.admits]

theorem fails_checkTimes :
    Fails f.checkTimes ↔ ∃ start ∈ f.start, ∃ stop ∈ f.stop, stop.before start = true := by
  unfold checkTimes
  cases f.start with
  | none => simp [Fails]
  | some start =>
    cases f.stop with
    | none => simp [Fails]
    | some stop => cases reversed : stop.before start <;> simp [Fails, reversed]

def Faulty (f : ExecutionFilters) : Prop :=
  (∃ text ∈ f.kind, Fails (ScheduleKind.parse text)) ∨
  (∃ text ∈ f.id, Fails (ScheduleId.parse text)) ∨
  (f.environment ≠ none ∧ f.unscoped = true) ∨
  (∃ start ∈ f.start, ∃ stop ∈ f.stop, stop.before start = true) ∨
  (∃ text ∈ f.statuses, Fails (ExecutionStatus.parse text)) ∨
  (∃ text ∈ f.trigger, Fails (TriggerSource.parse text))

theorem fails_query : Fails f.query ↔ f.Faulty := by
  rw [Faulty, ← fails_readOption, ← readKind_eq, ← fails_readOption, ← readId_eq, ← fails_readEnvironment,
    ← fails_checkTimes, ← fails_readStatuses, ← fails_readOption, ← readTrigger_eq]
  unfold query
  refine fails_bind fun kind => fails_bind fun id => fails_bind fun environment => fails_bind fun _ =>
    fails_bind fun statuses => ?_
  rw [fails_bind fun trigger => (by simp [Fails, pure, Except.pure] : _ ↔ False), or_false]

/-- The record meets each filter that is given; both ends of the time span belong to it. -/
structure Admits (f : ExecutionFilters) (r : ExecutionRecord) : Prop where
  kind : ∀ text ∈ f.kind, ScheduleKind.parse text = .ok r.kind
  id : ∀ text ∈ f.id, ScheduleId.parse text = .ok r.scheduleId
  environment : ∀ e ∈ f.environment, r.environment = some e
  unscoped : f.unscoped = true → r.environment = none
  status : f.statuses ≠ [] → ∃ text ∈ f.statuses, ExecutionStatus.parse text = .ok r.status
  trigger : ∀ text ∈ f.trigger, TriggerSource.parse text = .ok r.trigger
  start : ∀ t ∈ f.start, t = r.createdAt ∨ t.before r.createdAt = true
  stop : ∀ t ∈ f.stop, r.createdAt = t ∨ r.createdAt.before t = true

structure Reads (f : ExecutionFilters) (q : ExecutionQuery) : Prop where
  kind : f.readKind = .ok q.kind
  id : f.readId = .ok q.scheduleId
  environment : f.readEnvironment = .ok q.environment
  statuses : readStatuses f.statuses = .ok q.statuses
  trigger : f.readTrigger = .ok q.trigger
  start : q.start = f.start
  stop : q.stop = f.stop
  limit : q.limit = f.limit
  offset : q.offset = some f.offset

theorem reads_of_query (read : f.query = .ok q) : f.Reads q := by
  obtain ⟨kind, readKind, read⟩ := bind_eq_ok.mp read
  obtain ⟨id, readId, read⟩ := bind_eq_ok.mp read
  obtain ⟨environment, readEnvironment, read⟩ := bind_eq_ok.mp read
  obtain ⟨_, -, read⟩ := bind_eq_ok.mp read
  obtain ⟨statuses, readStatuses, read⟩ := bind_eq_ok.mp read
  obtain ⟨trigger, readTrigger, read⟩ := bind_eq_ok.mp read
  obtain rfl := Except.ok.inj read
  exact ⟨readKind, readId, readEnvironment, readStatuses, readTrigger, rfl, rfl, rfl, rfl⟩

theorem Reads.selects_iff (reads : f.Reads q) : q.selects r = true ↔ f.Admits r := by
  have kind := readOption_meaning reads.kind r.kind
  have id := readOption_meaning reads.id r.scheduleId
  have environment := readEnvironment_meaning reads.environment r.environment
  have status := readStatuses_meaning reads.statuses r.status
  have anyStatus := readStatuses_none reads.statuses
  have trigger := readOption_meaning reads.trigger r.trigger
  rw [ExecutionQuery.environment_admits_iff] at environment
  rw [ExecutionQuery.selects_iff]
  constructor
  · intro m
    obtain ⟨within, apart⟩ := environment.mp ⟨m.unscoped, m.environment⟩
    exact ⟨kind.mp m.kind, id.mp m.scheduleId, within, apart,
      fun given => status.mp (m.statuses (anyStatus.not.mpr given)), trigger.mp m.trigger,
      reads.start ▸ m.start, reads.stop ▸ m.stop⟩
  · intro a
    obtain ⟨apart, within⟩ := environment.mpr ⟨a.environment, a.unscoped⟩
    exact ⟨kind.mpr a.kind, id.mpr a.id, apart, within,
      fun given => status.mpr (a.status (anyStatus.not.mp given)), trigger.mpr a.trigger,
      reads.start.symm ▸ a.start, reads.stop.symm ▸ a.stop⟩

end ExecutionFilters

namespace Store

def listed : Store → Except SchedulerError (List ExecutionRecord)
  | .memory m => .ok m.records
  | .files f => f.records Folder.entries

theorem query_eq (s : Store) (q : ExecutionQuery) : s.query Folder.entries q = s.listed.map q.apply := by
  cases s <;> rfl

end Store

namespace Scheduler

variable {s : Scheduler} {q : ExecutionQuery} {records : List ExecutionRecord}

theorem history_answers (stored : s.store.listed = .ok records) (spared : s.faults.due .query = false) :
    (s.history q).1 = .ok ((q.withLimit s.pageLimit).apply records) := by
  have answer : s.store.query Folder.entries (q.withLimit s.pageLimit) =
      .ok ((q.withLimit s.pageLimit).apply records) := by
    rw [Store.query_eq, stored]
    rfl
  simp [history, query, attempt, spared, onStore, answer]

/-- Filters are refused just where they are at fault. Else their query selects what meets all of them, and the
history shows, the newest first, as much of that as the limit allows, from the offset on. -/
theorem history_filtered (f : ExecutionFilters) :
    (Fails f.query ↔ f.Faulty) ∧
    ∀ q, f.query = .ok q →
      (∀ r, q.selects r = true ↔ f.Admits r) ∧
      ∀ (s : Scheduler) (records : List ExecutionRecord), s.store.listed = .ok records →
        s.faults.due .query = false →
        ∃ found : List ExecutionRecord, found.Perm (records.filter q.selects) ∧
          (found.Pairwise fun a b => ExecutionQuery.newerFirst a b = true) ∧
          (s.history q).1 = .ok
            { records := (found.drop f.offset).take (f.limit.getD s.pageLimit), total := found.length,
              limit := f.limit.getD s.pageLimit, offset := f.offset } := by
  refine ⟨ExecutionFilters.fails_query, fun q read => ?_⟩
  have reads := ExecutionFilters.reads_of_query read
  refine ⟨fun r => reads.selects_iff, fun s records stored spared => ?_⟩
  refine ⟨q.ordered records, q.ordered_drawn records, q.newerFirst_ordered records, ?_⟩
  rw [history_answers stored spared, ExecutionQuery.apply, ExecutionQuery.withLimit, reads.limit, reads.offset]
  rfl

def typed : ExecutionFilters :=
  { kind := some " git-stack-sync ", id := some "05", environment := some 3, statuses := ["success", " failed"],
    trigger := some "cron", start := some ⟨1700000000, 0⟩, stop := some ⟨1700000600, 0⟩, offset := 1 }

def stackQuery : ExecutionQuery :=
  { kind := some .gitStackSync, scheduleId := some (.numeric 5), environment := .is 3,
    statuses := [.success, .failed], trigger := some .cron, start := some ⟨1700000000, 0⟩,
    stop := some ⟨1700000600, 0⟩, offset := some 1 }

def stackSync (id : ExecutionId) (trigger : TriggerSource) (seconds : Nat) (status : ExecutionStatus) :
    ExecutionRecord :=
  { ExecutionRecord.queued id ⟨⟨.gitStackSync, .numeric 5⟩, some 3, trigger⟩ ⟨seconds, 0⟩ with status }

def stackSyncs : List ExecutionRecord :=
  [stackSync 1 .cron 1700000000 .success, stackSync 2 .cron 1700000300 .running,
   stackSync 3 .manual 1700000400 .failed, stackSync 4 .cron 1700000600 .failed,
   stackSync 5 .cron 1700000601 .success]

def syncing : Scheduler where
  clock := { now := ⟨1700000900, 0⟩ }
  store := .memory { records := stackSyncs, lastId := 5 }
  descriptors := .systemJobs
  bodies := fun _ _ _ => { work := .ends (.completed .null) }

theorem typed_shown : typed.query = .ok stackQuery ∧ ∃ page, (syncing.history stackQuery).1 = .ok page ∧
    page.total = 2 ∧ page.limit = 50 ∧ page.records = [stackSync 1 .cron 1700000000 .success] := by
  have read : typed.query = .ok stackQuery := by decide +kernel
  obtain ⟨-, meaning⟩ := history_filtered typed
  obtain ⟨-, shows⟩ := meaning stackQuery read
  obtain ⟨found, drawn, sorted, shown⟩ := shows syncing stackSyncs rfl rfl
  have both : [stackSync 4 .cron 1700000600 .failed, stackSync 1 .cron 1700000000 .success].Perm
      (stackSyncs.filter stackQuery.selects) := .swap _ _ _
  obtain rfl : found = [stackSync 4 .cron 1700000600 .failed, stackSync 1 .cron 1700000000 .success] := by
    have once : ((stackSyncs.filter stackQuery.selects).map (·.id)).Nodup := by decide
    refine List.Perm.eq_of_pairwise ?_ sorted (by decide) (drawn.trans both.symm)
    intro a b ha hb ab ba
    exact List.inj_on_of_nodup_map once (drawn.mem_iff.mp ha) (both.mem_iff.mp hb)
      (ExecutionQuery.id_eq_of_newerFirst ab ba)
  exact ⟨read, _, shown, rfl, rfl, rfl⟩

end Scheduler

end FleetOps
