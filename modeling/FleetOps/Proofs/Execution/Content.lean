import FleetOps.Execution.Record
import FleetOps.Proofs.Json.Members
import FleetOps.Store.Files

set_option autoImplicit false

namespace FleetOps

def Instant.Survives (t : Instant) : Prop :=
  Instant.read? t.text = some t

theorem idOfJson?_nat {n : Nat} (fits : n < Text.idBound) : idOfJson? (.nat n) = some n :=
  if_pos fits

@[simp] theorem ScheduleKind.ofJson?_toJson (k : ScheduleKind) : ofJson? k.toJson = some k := by
  cases k <;> rfl

@[simp] theorem TriggerSource.ofJson?_toJson (t : TriggerSource) : ofJson? t.toJson = some t := by
  cases t <;> rfl

@[simp] theorem ExecutionStatus.ofJson?_toJson (s : ExecutionStatus) : ofJson? s.toJson = some s := by
  cases s <;> rfl

theorem ScheduleId.ofJson?_toJson {i : ScheduleId} (fits : ∀ n, i = .numeric n → n < Text.idBound) :
    ofJson? i.toJson = some i := by
  cases i with
  | numeric n => exact congrArg (Option.map ScheduleId.numeric) (idOfJson?_nat (fits n rfl))
  | named name => rfl

namespace ExecutionRecord

variable {r : ExecutionRecord}

/-- What can be read back of a record: numbers of 64 bits, and times that come back from their texts. A
result that is `null` would come back as none. -/
structure Portable (r : ExecutionRecord) : Prop where
  id : r.id < Text.idBound
  schedule : ∀ n, r.scheduleId = .numeric n → n < Text.idBound
  environment : ∀ e ∈ r.environment, e < Text.idBound
  createdAt : r.createdAt.Survives
  startedAt : ∀ t ∈ r.startedAt, t.Survives
  finishedAt : ∀ t ∈ r.finishedAt, t.Survives
  result : r.result ≠ some .null

/-- What a file can hold of a record besides its id: a result has to come back from its own text too. -/
structure Storable (r : ExecutionRecord) : Prop where
  schedule : ∀ n, r.scheduleId = .numeric n → n < Text.idBound
  environment : ∀ e ∈ r.environment, e < Text.idBound
  createdAt : r.createdAt.Survives
  startedAt : ∀ t ∈ r.startedAt, t.Survives
  finishedAt : ∀ t ∈ r.finishedAt, t.Survives
  result : ∀ v ∈ r.result, v ≠ .null ∧ v.SurvivesAs "result"

theorem Storable.portable (storable : r.Storable) (fits : r.id < Text.idBound) : r.Portable where
  id := fits
  schedule := storable.schedule
  environment := storable.environment
  createdAt := storable.createdAt
  startedAt := storable.startedAt
  finishedAt := storable.finishedAt
  result null := (storable.result .null null).1 rfl

theorem toJson_eq (r : ExecutionRecord) : r.toJson = .obj (r.fields.filterMap fun m => m.2.map (m.1, ·)) :=
  rfl

theorem names_fields (r : ExecutionRecord) : (r.fields.map (·.1)).Nodup := by
  simp [fields]

theorem steady_ofOption {α : Type} {write : α → Json} {o : Option α}
    (steady : ∀ a ∈ o, (write a).Steady) : (Json.ofOption write o).Steady := by
  cases o with
  | none => exact Json.steady_null
  | some a => exact steady a rfl

theorem Storable.steady (storable : r.Storable) (fits : r.id < Text.idBound) :
    ∀ m ∈ r.fields, ∀ v ∈ m.2, v.Steady := by
  have schedule : r.scheduleId.toJson.Steady := by
    cases named : r.scheduleId with
    | numeric n => exact Json.steady_nat (storable.schedule n named)
    | named name => exact Json.steady_str name
  have environment := steady_ofOption fun e mem => Json.steady_nat (storable.environment e mem)
  have time (o : Option Instant) : (Json.ofOption (fun t : Instant => .str t.text) o).Steady :=
    steady_ofOption fun t _ => Json.steady_str t.text
  intro m mem v value
  simp only [fields, List.mem_cons, List.not_mem_nil, or_false] at mem
  rcases mem with rfl | rfl | rfl | rfl | rfl | rfl | rfl | rfl | rfl | rfl | rfl <;>
    simp only [Option.mem_def, Option.some.injEq, Option.map_eq_some_iff] at value
  · exact value ▸ Json.steady_nat fits
  · exact value ▸ Json.steady_str _
  · exact value ▸ schedule
  · exact value ▸ environment
  · exact value ▸ Json.steady_str _
  · exact value ▸ Json.steady_str _
  · exact value ▸ Json.steady_str _
  · exact value ▸ time _
  · exact value ▸ time _
  · exact Json.survivesAs_iff.mp (storable.result v value).2
  · obtain ⟨s, -, rfl⟩ := value
    exact Json.steady_str s

theorem instantOfJson?_text {t : Instant} (survives : t.Survives) : instantOfJson? (.str t.text) = some t := by
  rw [instantOfJson?, Json.str?, Option.bind_some, survives]

theorem ofJson?_fields {members : List (String × Json)} (once : (members.map (·.1)).Nodup)
    (same : ∀ name, Json.member? name members = (r.fields.find? (·.1 = name)).bind (·.2))
    (portable : r.Portable) : ofJson? (.obj members) = some r := by
  let f : Json.Fields := ⟨true, members⟩
  have stands (name : String) (v : Option Json) (field : (r.fields.find? (·.1 = name)).bind (·.2) = v) :
      f.find? name = v := (same name).trans field
  have id : f.required "id" idOfJson? = some r.id := by
    rw [Json.Fields.required_of (stands _ _ rfl), idOfJson?_nat portable.id]
  have kind : f.required "schedule_type" ScheduleKind.ofJson? = some r.kind := by
    rw [Json.Fields.required_of (stands _ _ rfl), ScheduleKind.ofJson?_toJson]
  have scheduleId : f.required "schedule_id" ScheduleId.ofJson? = some r.scheduleId := by
    rw [Json.Fields.required_of (stands _ _ rfl), ScheduleId.ofJson?_toJson portable.schedule]
  have environment : f.optional "environment_id" idOfJson? = some r.environment :=
    Json.Fields.optional_ofOption (stands _ _ rfl) (by simp [Json.nat]) fun e mem =>
      idOfJson?_nat (portable.environment e mem)
  have trigger : f.required "trigger" TriggerSource.ofJson? = some r.trigger := by
    rw [Json.Fields.required_of (stands _ _ rfl), TriggerSource.ofJson?_toJson]
  have status : f.required "status" ExecutionStatus.ofJson? = some r.status := by
    rw [Json.Fields.required_of (stands _ _ rfl), ExecutionStatus.ofJson?_toJson]
  have createdAt : f.required "created_at" instantOfJson? = some r.createdAt := by
    rw [Json.Fields.required_of (stands _ _ rfl), instantOfJson?_text portable.createdAt]
  have startedAt : f.optional "started_at" instantOfJson? = some r.startedAt :=
    Json.Fields.optional_ofOption (stands _ _ rfl) (by simp) fun t mem =>
      instantOfJson?_text (portable.startedAt t mem)
  have finishedAt : f.optional "finished_at" instantOfJson? = some r.finishedAt :=
    Json.Fields.optional_ofOption (stands _ _ rfl) (by simp) fun t mem =>
      instantOfJson?_text (portable.finishedAt t mem)
  -- These two are left out of the text when there is nothing to say.
  have result : f.optional "result" some = some r.result := by
    have field := stands "result" r.result rfl
    cases value : r.result with
    | none => rw [Json.Fields.optional_absent (field.trans value)]
    | some v =>
      rw [Json.Fields.optional_of (field.trans value)]
      have other := portable.result
      cases v <;> simp_all [Json.Fields.nullable]
  have error : f.optional "error" Json.str? = some r.error := by
    have field := stands "error" (r.error.map .str) rfl
    cases value : r.error with
    | none => rw [Json.Fields.optional_absent (by rw [field, value]; rfl)]
    | some s =>
      rw [Json.Fields.optional_of (v := .str s) (by rw [field, value]; rfl)]
      rfl
  rw [ofJson?, Json.of?_obj _ once]
  simp only [Option.bind_eq_bind, Option.bind_some, f, id, kind, scheduleId, environment, trigger, status,
    createdAt, startedAt, finishedAt, result, error]

theorem ofJson?_toJson (portable : r.Portable) : ofJson? r.toJson = some r := by
  rw [toJson_eq]
  exact ofJson?_fields (Json.names_ofMembers r.names_fields) (Json.member?_ofMembers r.names_fields) portable

theorem text_content (r : ExecutionRecord) : (FolderEntry.file r.content).text = .ok r.toJson.pretty := by
  simp [FolderEntry.text, content, String.fromUTF8?, String.toUTF8, String.fromUTF8,
    r.toJson.pretty.isValidUTF8]

theorem record_content (storable : r.Storable) (fits : r.id < Text.idBound) :
    (FolderEntry.file r.content).record = .ok r := by
  have steady : ∀ m ∈ r.fields.filterMap (fun m => m.2.map (m.1, ·)), Json.Steady m.2 := by
    intro m mem
    obtain ⟨f, given, value⟩ := List.mem_filterMap.mp mem
    obtain ⟨v, held, rfl⟩ := Option.map_eq_some_iff.mp value
    exact storable.steady fits f given v held
  obtain ⟨members, read, once, same⟩ := Json.read?_pretty_steady steady
  have back : ofJson? (.obj members) = some r := by
    refine ofJson?_fields once (fun name => ?_) (storable.portable fits)
    rw [same, Json.member?_ofMembers r.names_fields]
  rw [FolderEntry.record, r.text_content, toJson_eq]
  simp only [read, Option.bind_some, back]

theorem of_ofJson? {members : List (String × Json)} (once : (members.map (·.1)).Nodup)
    (read : ofJson? (.obj members) = some r) :
    (Json.member? "id" members).bind idOfJson? = some r.id ∧
      (Json.member? "created_at" members).bind instantOfJson? = some r.createdAt := by
  rw [ofJson?, Json.of?_obj _ once] at read
  simp only [Option.bind_eq_bind, Option.bind_some, Option.bind_eq_some_iff] at read
  obtain ⟨id, given, _, -, _, -, _, -, _, -, _, -, stamp, created, _, -, _, -, _, -, _, -, made⟩ := read
  obtain rfl := Option.some.inj made
  exact ⟨given, created⟩

theorem members_of_record_content {r' : ExecutionRecord} (read : (FolderEntry.file r.content).record = .ok r') :
    ∃ members, ofJson? (.obj members) = some r' ∧ (members.map (·.1)).Nodup ∧
      ∀ name, Json.member? name members = ((r.fields.find? (·.1 = name)).bind (·.2)).bind Json.reprinted := by
  rw [FolderEntry.record, r.text_content] at read
  dsimp only at read
  split at read
  · next back =>
    obtain ⟨v, text, back⟩ := Option.bind_eq_some_iff.mp back
    obtain rfl := Except.ok.inj read
    rw [toJson_eq] at text
    obtain ⟨members, rfl, once, values⟩ := Json.obj_of_read?_pretty text
    refine ⟨members, back, once, fun name => ?_⟩
    rw [values, Json.member?_ofMembers r.names_fields]
  · cases read

theorem id_of_record_content {r' : ExecutionRecord} (fits : r.id < Text.idBound)
    (read : (FolderEntry.file r.content).record = .ok r') : r'.id = r.id := by
  obtain ⟨members, back, once, values⟩ := members_of_record_content read
  have named : Json.member? "id" members = some (.nat r.id) := by
    rw [values]
    exact Json.reprinted_nat fits
  have given := (of_ofJson? once back).1
  rw [named, Option.bind_some, idOfJson?_nat fits] at given
  exact (Option.some.inj given).symm

theorem createdAt_of_record_content {r' : ExecutionRecord} (survives : r.createdAt.Survives)
    (read : (FolderEntry.file r.content).record = .ok r') : r'.createdAt = r.createdAt := by
  obtain ⟨members, back, once, values⟩ := members_of_record_content read
  have dated : Json.member? "created_at" members = some (.str r.createdAt.text) := by
    rw [values]
    exact Json.reprinted_str _
  have given := (of_ofJson? once back).2
  rw [dated, Option.bind_some, instantOfJson?_text survives] at given
  exact (Option.some.inj given).symm

end ExecutionRecord

end FleetOps
