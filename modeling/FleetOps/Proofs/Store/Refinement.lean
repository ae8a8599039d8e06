import FleetOps.Proofs.Execution.Query
import FleetOps.Proofs.Store.Holding

set_option autoImplicit false

namespace FleetOps

structure FileStore.Mirrors (f : FileStore) (m : MemoryStore) : Prop where
  folder : ∃ d, f.place = .folder d ∧ d.Mirrors m.records
  lastId : f.lastId = m.lastId
  ordered : m.Ordered
  storable : ∀ r ∈ m.records, r.Storable
  fits : m.lastId < Text.idBound

namespace FileStore.Mirrors

variable {f : FileStore} {m : MemoryStore} {listing : Listing}

theorem holds (mirrors : f.Mirrors m) : f.Holds m.records :=
  ⟨mirrors.folder, fun r mem => mirrors.lastId ▸ mirrors.ordered.given r mem⟩

theorem room (mirrors : f.Mirrors m) : f.lastId < Text.idBound :=
  mirrors.lastId ▸ mirrors.fits

theorem reread? (mirrors : f.Mirrors m) {r : ExecutionRecord} (mem : r ∈ m.records) : r.reread? = some r :=
  ExecutionRecord.reread?_storable (mirrors.storable r mem) (mirrors.holds.fits mirrors.room r mem)

theorem records_reread (mirrors : f.Mirrors m) : m.records.filterMap ExecutionRecord.reread? = m.records :=
  (List.filterMap_congr fun _ mem => mirrors.reread? mem).trans List.filterMap_some

theorem find? (mirrors : f.Mirrors m) (id : ExecutionId) : f.find? id = .ok (m.find? id) := by
  cases found : m.find? id with
  | none => exact mirrors.holds.find?_eq_none.mpr found
  | some r =>
    obtain ⟨mem, -⟩ := (MemoryStore.find?_eq_some mirrors.ordered).mp found
    exact mirrors.holds.find?_eq_some.mpr ⟨r, found, mirrors.reread? mem⟩

theorem create (mirrors : f.Mirrors m) (new : NewExecution) (now : Instant)
    (storable : ∀ id, (ExecutionRecord.queued id new now).Storable) (room : m.lastId + 1 < Text.idBound) :
    ∃ f', f.create new now = (.ok (m.create new now).1, f') ∧ f'.Mirrors (m.create new now).2 := by
  obtain ⟨f', created, held, last⟩ := mirrors.holds.create new now
  rw [mirrors.lastId] at created held last
  refine ⟨f', created, held.folder, last, mirrors.ordered.create new now, fun s mem => ?_, room⟩
  rcases MemoryStore.mem_insertById mem with rfl | mem
  · exact storable _
  · exact mirrors.storable s mem

theorem query (mirrors : f.Mirrors m) (complete : listing.Complete) (q : ExecutionQuery) :
    f.query listing q = .ok (m.query q) := by
  rw [mirrors.holds.query complete, ExecutionRecord.rereads_of_fits (mirrors.holds.fits mirrors.room),
    mirrors.records_reread]
  rfl

theorem prune (mirrors : f.Mirrors m) (complete : listing.Complete) (cutoff : Instant) :
    ∃ f', f.prune listing cutoff = (.ok (m.prune cutoff).1, f') ∧ f'.Mirrors (m.prune cutoff).2 := by
  obtain ⟨f', pruned, held, last⟩ := mirrors.holds.prune mirrors.room complete cutoff
  have kept : m.records.filter (fun r => !r.reread?.any (·.finishedBefore cutoff)) =
      (m.prune cutoff).2.records :=
    List.filter_congr fun r mem => by rw [mirrors.reread? mem, Option.any_some]
  have count : (m.records.filter (·.finishedBefore cutoff)).length = (m.prune cutoff).1 := by
    have parts := List.length_eq_length_filter_add (l := m.records) (·.finishedBefore cutoff)
    rw [MemoryStore.prune]
    omega
  rw [mirrors.records_reread, count] at pruned
  rw [kept] at held
  refine ⟨f', pruned, held.folder, last.trans mirrors.lastId, mirrors.ordered.prune cutoff, ?_, mirrors.fits⟩
  exact fun r mem => mirrors.storable r (List.mem_filter.mp mem).1

theorem update (mirrors : f.Mirrors m) {r : ExecutionRecord} (storable : r.Storable) :
    ∃ answer f' m', (Store.files f).update r = (answer, .files f') ∧
      (Store.memory m).update r = (answer, .memory m') ∧ f'.Mirrors m' ∧ m'.lastId = m.lastId := by
  cases found : m.find? r.id with
  | none =>
    refine ⟨.error (.executionNotFound r.id), f, m, ?_, ?_, mirrors, rfl⟩
    · simp only [Store.update, FileStore.update, mirrors.find?, found]
    · simp only [Store.update, MemoryStore.update, found]
  | some stored =>
    cases check : stored.checkReplacement r with
    | error e =>
      refine ⟨.error e, f, m, ?_, ?_, mirrors, rfl⟩
      · simp only [Store.update, FileStore.update, mirrors.find?, found, check]
      · simp only [Store.update, MemoryStore.update, found, check]
        rfl
    | ok =>
      obtain ⟨d, written, same⟩ := mirrors.holds.write r
      refine ⟨.ok (), { f with place := .folder d }, m.insert r, ?_, ?_, ?_, rfl⟩
      · simp only [Store.update, FileStore.update, mirrors.find?, found, check, written]
      · simp only [Store.update, MemoryStore.update, found, check]
        rfl
      · refine ⟨⟨d, rfl, same⟩, mirrors.lastId, ?_, fun s mem => ?_, mirrors.fits⟩
        · exact mirrors.ordered.insert (mirrors.ordered.find?_given found)
        · rcases MemoryStore.mem_insertById mem with rfl | mem
          · exact storable
          · exact mirrors.storable s mem

theorem serve (mirrors : f.Mirrors m) (complete : listing.Complete) {c : StoreCall} (storable : c.Storable)
    (room : m.lastId + (if c.creates then 1 else 0) < Text.idBound) :
    ∃ answer f' m', (Store.files f).serve listing c = (answer, .files f') ∧
      (Store.memory m).serve listing c = (answer, .memory m') ∧ f'.Mirrors m' ∧
      m'.lastId = m.lastId + if c.creates then 1 else 0 := by
  cases c with
  | create new now =>
    obtain ⟨f', created, same⟩ := mirrors.create new now storable room
    refine ⟨.created (.ok (m.create new now).1), f', (m.create new now).2, ?_, rfl, same, rfl⟩
    simp only [Store.serve, Store.create, created]
    rfl
  | update r =>
    obtain ⟨answer, f', m', ofFiles, ofMemory, same, last⟩ := mirrors.update storable
    refine ⟨.updated answer, f', m', ?_, ?_, same, last⟩
    · rw [Store.serve, ofFiles]
      rfl
    · rw [Store.serve, ofMemory]
      rfl
  | get id =>
    refine ⟨.got (.ok (m.find? id)), f, m, ?_, rfl, mirrors, rfl⟩
    rw [Store.serve, Store.find?, mirrors.find?]
  | query q =>
    refine ⟨.page (.ok (m.query q)), f, m, ?_, rfl, mirrors, rfl⟩
    simp only [Store.serve, Store.query, mirrors.query complete]
  | prune cutoff =>
    obtain ⟨f', pruned, same⟩ := mirrors.prune complete cutoff
    refine ⟨.pruned (.ok (m.prune cutoff).1), f', (m.prune cutoff).2, ?_, rfl, same, rfl⟩
    simp only [Store.serve, Store.prune, pruned]
    rfl

end FileStore.Mirrors

theorem FileStore.Mirrors.answers {f : FileStore} {m : MemoryStore} (mirrors : f.Mirrors m)
    {listings : Nat → Listing} (complete : ∀ n, (listings n).Complete) {calls : List StoreCall}
    (storable : ∀ c ∈ calls, c.Storable)
    (room : m.lastId + calls.countP StoreCall.creates < Text.idBound) :
    (Store.files f).answers listings calls = (Store.memory m).answers listings calls := by
  induction calls generalizing f m with
  | nil => rfl
  | cons c rest ih =>
    obtain ⟨here, later⟩ := List.forall_mem_cons.mp storable
    rw [List.countP_cons, Nat.add_comm (rest.countP _), ← Nat.add_assoc] at room
    obtain ⟨answer, f', m', ofFiles, ofMemory, same, last⟩ :=
      mirrors.serve (complete rest.length) here (Nat.lt_of_le_of_lt (Nat.le_add_right _ _) room)
    have others := ih same later (by rwa [last])
    simp only [Store.answers, ofFiles, ofMemory, others]

theorem FileStore.openAt_bare (path : String) {place : Place}
    (bare : place = .missing ∨ place = .folder .empty) :
    ∃ f, FileStore.openAt path place = .ok f ∧ f.Mirrors .empty := by
  obtain ⟨f, opened, held, last⟩ := Holds.of_bare path bare
  exact ⟨f, opened, held.folder, last, MemoryStore.Made.empty.ordered, by simp [MemoryStore.empty], by decide⟩

/-- A store opened in a folder that is empty or not there yet answers every call as a new store in memory
does, however the folder is listed. Only the ids that are given away are bounded: they have 64 bits. -/
theorem files_answer_as_memory (path : String) {place : Place}
    (bare : place = .missing ∨ place = .folder .empty) {listings : Nat → Listing}
    (complete : ∀ n, (listings n).Complete) {calls : List StoreCall} (storable : ∀ c ∈ calls, c.Storable)
    (room : calls.countP StoreCall.creates < Text.idBound) :
    ∃ f, FileStore.openAt path place = .ok f ∧
      (Store.files f).answers listings calls = (Store.memory .empty).answers listings calls := by
  obtain ⟨f, opened, fresh⟩ := FileStore.openAt_bare path bare
  have bounded : MemoryStore.empty.lastId + calls.countP StoreCall.creates < Text.idBound := by
    rwa [MemoryStore.empty, Nat.zero_add]
  exact ⟨f, opened, fresh.answers complete storable bounded⟩

def eitherWay (n : Nat) : Listing := fun d =>
  if n % 2 = 0 then d.entries else d.entries.reverse

theorem eitherWay_complete (n : Nat) : (eitherWay n).Complete := by
  intro d
  by_cases even : n % 2 = 0
  · simp [eitherWay, even]
  · simp [eitherWay, even]

def dailyUpdate : NewExecution :=
  { key := ⟨.containerUpdate, .numeric 1⟩, environment := some 3, trigger := .cron }

def shortRun (id : ExecutionId) : ExecutionRecord :=
  .queued id dailyUpdate ⟨1700000000, 0⟩

def shortRunSkipped : ExecutionRecord :=
  { shortRun 1 with
    status := .skipped
    finishedAt := some ⟨1700000060, 500000000⟩
    result := some (ExecutionRecord.reasonJson alreadyRunning) }

theorem shortRun_storable (id : ExecutionId) : (shortRun id).Storable := by
  have created : Instant.Survives ⟨1700000000, 0⟩ := rfl
  refine ⟨?_, ?_, created, ?_, ?_, ?_⟩ <;> simp [shortRun, dailyUpdate, ExecutionRecord.queued, Text.idBound]

theorem shortRunSkipped_storable : shortRunSkipped.Storable := by
  have finished : Instant.Survives ⟨1700000060, 500000000⟩ := rfl
  have reason : (ExecutionRecord.reasonJson alreadyRunning).SurvivesAs "result" := by
    refine Json.survivesAs_iff.mpr ⟨?_, by decide⟩
    simp [ExecutionRecord.reasonJson, Json.reprinted, Json.canonical, Json.canonicalMembers, Json.insertMember,
      Json.reread, Json.rereadMembers]
  have fresh := shortRun_storable 1
  refine ⟨fresh.schedule, fresh.environment, fresh.createdAt, fresh.startedAt, ?_, ?_⟩
  · simpa [shortRunSkipped] using finished
  · simpa [shortRunSkipped, ExecutionRecord.reasonJson] using reason

def shortLife : List StoreCall :=
  [.create dailyUpdate ⟨1700000000, 0⟩, .update shortRunSkipped, .update (shortRun 1),
    .update (shortRun 7), .get 1, .query {}, .prune ⟨1700000061, 0⟩, .get 1]

theorem shortLife_answers : (∀ c ∈ shortLife, c.Storable) ∧
    shortLife.countP StoreCall.creates < Text.idBound ∧
    ∃ f, FileStore.openAt "/data/executions" .missing = .ok f ∧
      (Store.files f).answers eitherWay shortLife = (Store.memory .empty).answers eitherWay shortLife := by
  have storable : ∀ c ∈ shortLife, c.Storable := by
    have opening : StoreCall.Storable (.create dailyUpdate ⟨1700000000, 0⟩) := shortRun_storable
    simp only [shortLife, List.forall_mem_cons]
    exact ⟨opening, shortRunSkipped_storable, shortRun_storable 1, shortRun_storable 7, trivial, trivial,
      trivial, trivial, by simp⟩
  have room : shortLife.countP StoreCall.creates < Text.idBound := by decide
  exact ⟨storable, room, files_answer_as_memory "/data/executions" (.inl rfl) eitherWay_complete storable room⟩

end FleetOps
