import FleetOps.Access.Grant
import FleetOps.Execution.Query
import FleetOps.Proofs.Execution.Content
import FleetOps.Schedule.Descriptor

set_option autoImplicit false

namespace FleetOps

open Json.Fields

structure ExecutionPage.Portable (p : ExecutionPage) : Prop where
  records : ∀ r ∈ p.records, r.Portable
  total : p.total < Text.idBound
  limit : p.limit < Text.idBound
  offset : p.offset < Text.idBound

theorem ExecutionPage.ofJson?_toJson {p : ExecutionPage} (portable : p.Portable) :
    ofJson? p.toJson = some p := by
  rw [ofJson?, toJson, Json.of?_obj _ (by simp)]
  simp only [Option.bind_eq_bind, Option.bind_some, Option.bind_eq_some_iff]
  refine ⟨p.records, ?records, p.total, ?total, p.limit, ?limit, p.offset, ?offset, rfl⟩
  case records =>
    rw [required_of rfl]
    exact Json.list?_map fun r mem => ExecutionRecord.ofJson?_toJson (portable.records r mem)
  case total => rw [required_of rfl, idOfJson?_nat portable.total]
  case limit => rw [required_of rfl, idOfJson?_nat portable.limit]
  case offset => rw [required_of rfl, idOfJson?_nat portable.offset]

theorem EnvironmentFilter.ofJson?_toJson {e : EnvironmentFilter}
    (fits : ∀ id, e = .is id → id < Text.idBound) : ofJson? e.toJson = some e := by
  cases e with
  | any => rfl
  | unscoped => rfl
  | is id => exact congrArg (Option.map EnvironmentFilter.is) (idOfJson?_nat (fits id rfl))

structure ExecutionQuery.Portable (q : ExecutionQuery) : Prop where
  schedule : ∀ n, q.scheduleId = some (.numeric n) → n < Text.idBound
  environment : ∀ id, q.environment = .is id → id < Text.idBound
  start : ∀ t ∈ q.start, t.Survives
  stop : ∀ t ∈ q.stop, t.Survives
  limit : ∀ n ∈ q.limit, n < Text.idBound
  offset : ∀ n ∈ q.offset, n < Text.idBound

theorem ScheduleId.toJson_ne_null (i : ScheduleId) : i.toJson ≠ .null := by
  cases i <;> simp [toJson, Json.nat]

theorem ExecutionQuery.ofJson?_toJson {q : ExecutionQuery} (portable : q.Portable) :
    ofJson? q.toJson = some q := by
  rw [ofJson?, toJson, Json.of?_obj _ (by simp)]
  simp only [Option.bind_eq_bind, Option.bind_some, Option.bind_eq_some_iff]
  refine ⟨q.kind, ?kind, q.scheduleId, ?scheduleId, q.environment, ?environment, q.statuses, ?statuses,
    q.trigger, ?trigger, q.start, ?start, q.stop, ?stop, q.limit, ?limit, q.offset, ?offset, rfl⟩
  case kind =>
    exact optional_ofOption rfl (by simp [ScheduleKind.toJson]) fun k _ => k.ofJson?_toJson
  case scheduleId =>
    exact optional_ofOption rfl (fun i _ => i.toJson_ne_null) fun i mem =>
      ScheduleId.ofJson?_toJson fun n named => portable.schedule n (named ▸ mem)
  case environment => rw [withDefault_of rfl, EnvironmentFilter.ofJson?_toJson portable.environment]
  case statuses =>
    rw [withDefault_of rfl]
    exact Json.list?_map fun s _ => s.ofJson?_toJson
  case trigger =>
    exact optional_ofOption rfl (by simp [TriggerSource.toJson]) fun t _ => t.ofJson?_toJson
  case start =>
    exact optional_ofOption rfl (by simp [instantJson]) fun t mem =>
      ExecutionRecord.instantOfJson?_text (portable.start t mem)
  case stop =>
    exact optional_ofOption rfl (by simp [instantJson]) fun t mem =>
      ExecutionRecord.instantOfJson?_text (portable.stop t mem)
  case limit =>
    exact optional_ofOption rfl (by simp [Json.nat]) fun n mem => idOfJson?_nat (portable.limit n mem)
  case offset =>
    exact optional_ofOption rfl (by simp [Json.nat]) fun n mem => idOfJson?_nat (portable.offset n mem)

structure Descriptor.Portable (d : Descriptor) : Prop where
  schedule : ∀ n, d.id = .numeric n → n < Text.idBound
  environment : ∀ e ∈ d.environment, e < Text.idBound

theorem Descriptor.ofJson?_toJson {d : Descriptor} (portable : d.Portable) :
    ofJson? d.toJson = some d := by
  rw [ofJson?, toJson, Json.of?_obj _ (by simp)]
  simp only [Option.bind_eq_bind, Option.bind_some, Option.bind_eq_some_iff]
  refine ⟨d.kind, ?kind, d.id, ?id, d.environment, ?environment, d.cron, ?cron, d.enabled, ?enabled,
    d.name, ?name, rfl⟩
  case kind => rw [required_of rfl, ScheduleKind.ofJson?_toJson]
  case id => rw [required_of rfl, ScheduleId.ofJson?_toJson portable.schedule]
  case environment =>
    exact optional_ofOption rfl (by simp [Json.nat]) fun e mem =>
      idOfJson?_nat (portable.environment e mem)
  case cron => rw [required_of rfl, Json.str?]
  case enabled => rw [required_of rfl, Json.bool?]
  case name => exact optional_ofOption rfl (by simp) fun _ _ => rfl

namespace Access

theorem Resource.ofJson?_toJson (r : Resource) : ofJson? r.toJson = some r := by
  cases r <;> rfl

theorem Action.ofJson?_toJson (a : Action) : ofJson? a.toJson = some a := by
  cases a <;> rfl

theorem GrantScope.ofJson?_toJson {s : GrantScope}
    (fits : ∀ e, s = .environment e → e < Text.idBound) : ofJson? s.toJson = some s := by
  cases s with
  | global => rfl
  | environment e => exact congrArg (Option.map GrantScope.environment) (idOfJson?_nat (fits e rfl))

def Grant.Portable (g : Grant) : Prop :=
  ∀ e, g.scope = .environment e → e < Text.idBound

theorem Grant.ofJson?_toJson {g : Grant} (portable : g.Portable) : ofJson? g.toJson = some g := by
  rw [ofJson?, toJson, Json.of?_obj _ (by simp)]
  simp only [Option.bind_eq_bind, Option.bind_some, Option.bind_eq_some_iff]
  refine ⟨g.resource, ?resource, g.action, ?action, g.scope, ?scope, rfl⟩
  case resource => rw [required_of rfl, Resource.ofJson?_toJson]
  case action => rw [required_of rfl, Action.ofJson?_toJson]
  case scope => rw [required_of rfl, GrantScope.ofJson?_toJson portable]

end Access

theorem forms_read_back :
    (∀ r : ExecutionRecord, r.Portable → ExecutionRecord.ofJson? r.toJson = some r) ∧
    (∀ p : ExecutionPage, p.Portable → ExecutionPage.ofJson? p.toJson = some p) ∧
    (∀ q : ExecutionQuery, q.Portable → ExecutionQuery.ofJson? q.toJson = some q) ∧
    (∀ d : Descriptor, d.Portable → Descriptor.ofJson? d.toJson = some d) ∧
    (∀ g : Access.Grant, g.Portable → Access.Grant.ofJson? g.toJson = some g) := by
  refine ⟨?_, ?_, ?_, ?_, ?_⟩
  · exact fun r portable => r.ofJson?_toJson portable
  · exact fun p portable => p.ofJson?_toJson portable
  · exact fun q portable => q.ofJson?_toJson portable
  · exact fun d portable => d.ofJson?_toJson portable
  · exact fun g portable => g.ofJson?_toJson portable

def syncedStack : ExecutionRecord where
  id := 18446744073709551615
  kind := .gitStackSync
  scheduleId := .named "42"
  environment := none
  trigger := .webhook
  status := .success
  createdAt := ⟨1700000000, 0⟩
  startedAt := some ⟨1700000001, 250000000⟩
  finishedAt := some ⟨1700000060, 500000000⟩
  result := some (.obj [("commit", .null), ("services", .arr [.str "web", .nat 2])])
  error := none

theorem syncedStack_portable : syncedStack.Portable where
  id := by decide
  schedule := by simp [syncedStack]
  environment := by simp [syncedStack]
  createdAt := rfl
  startedAt := by
    have started : Instant.Survives ⟨1700000001, 250000000⟩ := rfl
    simpa [syncedStack] using started
  finishedAt := by
    have finished : Instant.Survives ⟨1700000060, 500000000⟩ := rfl
    simpa [syncedStack] using finished
  result := by simp [syncedStack]

def syncedPage : ExecutionPage :=
  { records := [syncedStack], total := 7, limit := 1, offset := 6 }

def syncedQuery : ExecutionQuery :=
  { scheduleId := some (.named "42"), environment := .is 3, statuses := [.success, .failed],
    start := some ⟨1700000000, 0⟩, limit := some 1, offset := some 6 }

def syncedDescriptor : Descriptor :=
  { kind := .gitStackSync, id := .named "42", environment := some 3, cron := "0 4 * * *" }

def deployOn : Access.Grant :=
  { resource := .stacks, action := .deploy, scope := .environment 3 }

theorem syncedStack_reads_back :
    (syncedStack.Portable ∧ ExecutionRecord.ofJson? syncedStack.toJson = some syncedStack) ∧
    (syncedPage.Portable ∧ ExecutionPage.ofJson? syncedPage.toJson = some syncedPage) ∧
    (syncedQuery.Portable ∧ ExecutionQuery.ofJson? syncedQuery.toJson = some syncedQuery) ∧
    (syncedDescriptor.Portable ∧ Descriptor.ofJson? syncedDescriptor.toJson = some syncedDescriptor) ∧
    (deployOn.Portable ∧ Access.Grant.ofJson? deployOn.toJson = some deployOn) := by
  have record := syncedStack_portable
  have page : syncedPage.Portable := by
    refine ⟨?_, by decide, by decide, by decide⟩
    simpa [syncedPage] using record
  have query : syncedQuery.Portable := by
    have start : Instant.Survives ⟨1700000000, 0⟩ := rfl
    refine ⟨by simp [syncedQuery], by simp [syncedQuery, Text.idBound], ?_, by simp [syncedQuery],
      by simp [syncedQuery, Text.idBound], by simp [syncedQuery, Text.idBound]⟩
    simpa [syncedQuery] using start
  have descriptor : syncedDescriptor.Portable :=
    ⟨by simp [syncedDescriptor], by simp [syncedDescriptor, Text.idBound]⟩
  have grant : deployOn.Portable := by simp [deployOn, Access.Grant.Portable, Text.idBound]
  obtain ⟨records, pages, queries, descriptors, grants⟩ := forms_read_back
  exact ⟨⟨record, records _ record⟩, ⟨page, pages _ page⟩, ⟨query, queries _ query⟩,
    ⟨descriptor, descriptors _ descriptor⟩, ⟨grant, grants _ grant⟩⟩

end FleetOps
