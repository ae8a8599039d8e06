import FleetOps.Proofs.Execution.Query
import FleetOps.Proofs.Store.Calls
import FleetOps.Proofs.Store.Mirror

set_option autoImplicit false

namespace FleetOps.FileStore

/-- The folder holds the files of these records and nothing else, and no id is past the last one given. -/
structure Holds (f : FileStore) (rs : List ExecutionRecord) : Prop where
  folder : ∃ d, f.place = .folder d ∧ d.Mirrors rs
  given : ∀ r ∈ rs, r.id ≤ f.lastId

namespace Holds

variable {f : FileStore} {rs : List ExecutionRecord} {r r' : ExecutionRecord} {id : ExecutionId}
  {listing : Listing}

theorem nodup_ids (holds : f.Holds rs) : (rs.map (·.id)).Nodup := by
  obtain ⟨d, -, same⟩ := holds.folder
  exact same.nodup_ids

theorem fits (holds : f.Holds rs) (room : f.lastId < Text.idBound) : ∀ r ∈ rs, r.id < Text.idBound :=
  fun r mem => Nat.lt_of_le_of_lt (holds.given r mem) room

theorem find?_eq (holds : f.Holds rs) (id : ExecutionId) :
    f.find? id = match rs.find? (·.id = id) with
      | none => .ok none
      | some r => (FolderEntry.file r.content).record.map some := by
  obtain ⟨d, place, same⟩ := holds.folder
  have entry : f.entry? id = .ok ((rs.find? (·.id = id)).map fun r => .file r.content) := by
    unfold entry?
    simp only [place, same.find?_recordName]
  rw [FileStore.find?, entry]
  cases rs.find? (·.id = id) <;> rfl

theorem find?_eq_none (holds : f.Holds rs) : f.find? id = .ok none ↔ rs.find? (·.id = id) = none := by
  rw [holds.find?_eq]
  cases rs.find? (·.id = id) with
  | none => simp
  | some r => cases held : (FolderEntry.file r.content).record <;> simp [held, Except.map]

theorem find?_eq_some (holds : f.Holds rs) :
    f.find? id = .ok (some r') ↔ ∃ r, rs.find? (·.id = id) = some r ∧ r.reread? = some r' := by
  rw [holds.find?_eq]
  cases rs.find? (·.id = id) with
  | none => simp
  | some r =>
    cases held : (FolderEntry.file r.content).record <;>
      simp [ExecutionRecord.reread?, held, Except.map, Except.toOption]

theorem write (holds : f.Holds rs) (r : ExecutionRecord) :
    ∃ d, f.write r = (.ok (), { f with place := .folder d }) ∧ d.Mirrors (MemoryStore.insertById r rs) := by
  obtain ⟨d, place, same⟩ := holds.folder
  obtain ⟨written, moved, beside, renamed, same⟩ := same.write_rename r
  refine ⟨moved, ?_, same⟩
  simp only [FileStore.write, place, Place.folder?, Except.bind, beside, renamed]

theorem create (holds : f.Holds rs) (new : NewExecution) (now : Instant) :
    ∃ f', f.create new now = (.ok (.queued (f.lastId + 1) new now), f') ∧
      f'.Holds (MemoryStore.insertById (.queued (f.lastId + 1) new now) rs) ∧
      f'.lastId = f.lastId + 1 := by
  obtain ⟨d, written, same⟩ := holds.write (.queued (f.lastId + 1) new now)
  refine ⟨{ f with place := .folder d, lastId := f.lastId + 1 }, ?_, ⟨⟨d, rfl, same⟩, ?_⟩, rfl⟩
  · simp only [FileStore.create, written]
    rfl
  · intro s mem
    rcases MemoryStore.mem_insertById mem with rfl | mem
    · exact Nat.le_refl _
    · exact Nat.le_succ_of_le (holds.given s mem)

theorem update (holds : f.Holds rs) (r : ExecutionRecord) :
    (∃ e, f.update r = (.error e, f)) ∨
      ∃ stored f', f.find? r.id = .ok (some stored) ∧ stored.checkReplacement r = .ok () ∧
        f.update r = (.ok (), f') ∧ f'.Holds (MemoryStore.insertById r rs) ∧ f'.lastId = f.lastId := by
  cases found : f.find? r.id with
  | error e => exact .inl ⟨e, by rw [FileStore.update, found]⟩
  | ok o =>
    cases o with
    | none => exact .inl ⟨_, by rw [FileStore.update, found]⟩
    | some stored =>
      cases check : stored.checkReplacement r with
      | error e => exact .inl ⟨e, by simp only [FileStore.update, found, check]⟩
      | ok =>
        obtain ⟨d, written, same⟩ := holds.write r
        obtain ⟨t, there, -⟩ := holds.find?_eq_some.mp found
        have known : r.id ≤ f.lastId := by
          obtain ⟨mem, named⟩ := (find?_eq_some_of_nodup holds.nodup_ids).mp there
          exact named ▸ holds.given t mem
        refine .inr ⟨stored, { f with place := .folder d }, rfl, check, ?_, ⟨⟨d, rfl, same⟩, ?_⟩, rfl⟩
        · simp only [FileStore.update, found, check, written]
        · intro s mem
          rcases MemoryStore.mem_insertById mem with rfl | mem
          · exact known
          · exact holds.given s mem

theorem query (holds : f.Holds rs) (complete : listing.Complete) (q : ExecutionQuery) :
    f.query listing q = .ok (q.apply (ExecutionRecord.rereads rs)) := by
  obtain ⟨d, place, same⟩ := holds.folder
  have listed := same.recordsIn_perm (complete d)
  have once : ((ExecutionRecord.rereads rs).map (·.id)).Nodup :=
    holds.nodup_ids.sublist (ExecutionRecord.ids_rereads rs)
  have page := q.apply_perm listed.symm once
  simp only [FileStore.query, FileStore.records, place, Place.folder?, page]
  rfl

theorem removes (holds : f.Holds rs) (complete : listing.Complete) (cutoff : Instant) :
    ∃ (f' : FileStore) (old : List ExecutionRecord), f.prune listing cutoff = (.ok old.length, f') ∧
      old.Perm ((ExecutionRecord.rereads rs).filter (·.finishedBefore cutoff)) ∧
      f'.Holds (rs.filter (·.id ∉ old.map (·.id))) ∧ f'.lastId = f.lastId := by
  obtain ⟨d, place, same⟩ := holds.folder
  let old := (recordsIn (listing d)).filter (·.finishedBefore cutoff)
  have drawn : old.Perm ((ExecutionRecord.rereads rs).filter (·.finishedBefore cutoff)) :=
    (same.recordsIn_perm (complete d)).filter _
  have ids : ((ExecutionRecord.rereads rs).filter (·.finishedBefore cutoff)).map (·.id) |>.Sublist
      (rs.map (·.id)) := (List.filter_sublist.map _).trans (ExecutionRecord.ids_rereads rs)
  have once : (old.map (·.id)).Nodup := (drawn.map _).nodup_iff.mpr (holds.nodup_ids.sublist ids)
  have known : ∀ r ∈ old, r.id ∈ rs.map (·.id) := fun r mem =>
    ids.subset (List.mem_map_of_mem (drawn.mem_iff.mp mem))
  obtain ⟨d', emptied, left⟩ := same.removeEach once known
  refine ⟨{ f with place := .folder d' }, old, ?_, drawn, ⟨⟨d', rfl, left⟩, ?_⟩, rfl⟩
  · simp only [FileStore.prune, place, Place.folder?]
    rw [emptied]
  · exact fun r mem => holds.given r (List.mem_filter.mp mem).1

theorem prune (holds : f.Holds rs) (room : f.lastId < Text.idBound) (complete : listing.Complete)
    (cutoff : Instant) :
    ∃ f', f.prune listing cutoff =
        (.ok ((rs.filterMap ExecutionRecord.reread?).filter (·.finishedBefore cutoff)).length, f') ∧
      f'.Holds (rs.filter fun r => !r.reread?.any (·.finishedBefore cutoff)) ∧ f'.lastId = f.lastId := by
  have fits := holds.fits room
  obtain ⟨f', old, pruned, drawn, left, last⟩ := holds.removes complete cutoff
  rw [ExecutionRecord.rereads_of_fits fits] at drawn
  have mem_old : ∀ r, r ∈ old ↔ (∃ s ∈ rs, s.reread? = some r) ∧ r.finishedBefore cutoff = true := by
    intro r
    rw [drawn.mem_iff, List.mem_filter, List.mem_filterMap]
  -- What comes back has the id of its file, so the files that go are those of the records read.
  have kept : rs.filter (·.id ∉ old.map (·.id)) =
      rs.filter fun r => !r.reread?.any (·.finishedBefore cutoff) := by
    refine List.filter_congr fun r mem => ?_
    have gone : r.id ∈ old.map (·.id) ↔ r.reread?.any (·.finishedBefore cutoff) = true := by
      rw [List.mem_map, Option.any_eq_true]
      constructor
      · rintro ⟨t, gone, named⟩
        obtain ⟨⟨s, mem', read⟩, finished⟩ := (mem_old t).mp gone
        have own := ExecutionRecord.id_of_reread? (fits s mem') read
        obtain rfl := List.inj_on_of_nodup_map holds.nodup_ids mem' mem (own.symm.trans named)
        exact ⟨t, read, finished⟩
      · rintro ⟨t, read, finished⟩
        exact ⟨t, (mem_old t).mpr ⟨⟨r, mem, read⟩, finished⟩,
          ExecutionRecord.id_of_reread? (fits r mem) read⟩
    simp only [gone]
    cases r.reread?.any (·.finishedBefore cutoff) <;> rfl
  rw [kept] at left
  exact ⟨f', by rw [pruned, drawn.length_eq], left, last⟩

theorem of_bare (path : String) {place : Place} (bare : place = .missing ∨ place = .folder .empty) :
    ∃ f, openAt path place = .ok f ∧ f.Holds [] ∧ f.lastId = 0 := by
  have empty : Folder.empty.Mirrors [] := ⟨List.Pairwise.nil, List.Pairwise.nil, .refl _⟩
  have fresh : Holds { path, place := .folder .empty, lastId := 0 } [] := ⟨⟨_, rfl, empty⟩, by simp⟩
  rcases bare with rfl | rfl
  · exact ⟨_, rfl, fresh, rfl⟩
  · exact ⟨_, rfl, fresh, rfl⟩

end Holds

end FleetOps.FileStore
