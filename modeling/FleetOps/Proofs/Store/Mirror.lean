import FleetOps.Proofs.Execution.Content
import FleetOps.Proofs.Store.Folder
import FleetOps.Proofs.Store.Memory

set_option autoImplicit false

namespace FleetOps

variable {d : Folder} {r : ExecutionRecord} {rs : List ExecutionRecord}

namespace ExecutionRecord

def file (r : ExecutionRecord) : String × FolderEntry :=
  (recordName r.id, .file r.content)

def reread? (r : ExecutionRecord) : Option ExecutionRecord :=
  (FolderEntry.file r.content).record.toOption

theorem reread?_storable (storable : r.Storable) (fits : r.id < Text.idBound) : r.reread? = some r := by
  rw [reread?, record_content storable fits]
  rfl

theorem reread?_eq_some {r' : ExecutionRecord} :
    r.reread? = some r' ↔ (FolderEntry.file r.content).record = .ok r' := by
  unfold reread?
  cases (FolderEntry.file r.content).record <;> simp [Except.toOption]

theorem id_of_reread? {r' : ExecutionRecord} (fits : r.id < Text.idBound) (read : r.reread? = some r') :
    r'.id = r.id :=
  id_of_record_content fits (reread?_eq_some.mp read)

theorem createdAt_of_reread? {r' : ExecutionRecord} (survives : r.createdAt.Survives)
    (read : r.reread? = some r') : r'.createdAt = r.createdAt :=
  createdAt_of_record_content survives (reread?_eq_some.mp read)

/-- What is read from the files of some records. An id past the bound is no number in a name. -/
def rereads (rs : List ExecutionRecord) : List ExecutionRecord :=
  (rs.filter (·.id < Text.idBound)).filterMap reread?

theorem rereads_of_fits (fits : ∀ r ∈ rs, r.id < Text.idBound) : rereads rs = rs.filterMap reread? := by
  rw [rereads, List.filter_eq_self.mpr fun r mem => decide_eq_true (fits r mem)]

theorem mem_rereads : r ∈ rereads rs ↔ ∃ s ∈ rs, s.id < Text.idBound ∧ s.reread? = some r := by
  simp [rereads, List.mem_filterMap, and_assoc]

theorem ids_rereads (rs : List ExecutionRecord) : ((rereads rs).map (·.id)).Sublist (rs.map (·.id)) := by
  induction rs with
  | nil => exact .slnil
  | cons r rest ih =>
    unfold rereads at ih ⊢
    by_cases fits : r.id < Text.idBound
    · rw [List.filter_cons_of_pos (by simpa using fits)]
      cases read : r.reread? with
      | none =>
        rw [List.filterMap_cons_none read]
        exact ih.cons r.id
      | some r' =>
        rw [List.filterMap_cons_some read, List.map_cons, id_of_reread? fits read]
        exact ih.cons_cons r.id
    · rw [List.filter_cons_of_neg (by simpa using fits)]
      exact ih.cons r.id

end ExecutionRecord

namespace Folder

structure Mirrors (d : Folder) (rs : List ExecutionRecord) : Prop where
  sorted : d.Sorted
  rising : rs.Pairwise fun a b => a.id < b.id
  files : d.entries.Perm (rs.map ExecutionRecord.file)

theorem Mirrors.nodup_ids (mirrors : d.Mirrors rs) : (rs.map (·.id)).Nodup := by
  rw [List.Nodup, List.pairwise_map]
  exact mirrors.rising.imp Nat.ne_of_lt

theorem Mirrors.mem_iff (mirrors : d.Mirrors rs) {p : String × FolderEntry} :
    p ∈ d.entries ↔ ∃ r ∈ rs, r.file = p := by
  rw [mirrors.files.mem_iff, List.mem_map]

theorem nodup_files (rising : rs.Pairwise fun a b => a.id < b.id) :
    (rs.map ExecutionRecord.file).Nodup := by
  rw [List.Nodup, List.pairwise_map]
  refine rising.imp fun {a b} less same => ?_
  exact Nat.ne_of_lt less (recordName_inj (Prod.mk.inj same).1)

theorem Mirrors.of_mem_iff (sorted : d.Sorted) (rising : rs.Pairwise fun a b => a.id < b.id)
    (mem : ∀ p, p ∈ d.entries ↔ ∃ r ∈ rs, r.file = p) : d.Mirrors rs where
  sorted := sorted
  rising := rising
  files := by
    have once : d.entries.Nodup := sorted.nodup_keys.of_map
    refine (List.perm_ext_iff_of_nodup once (nodup_files rising)).mpr fun p => ?_
    rw [mem, List.mem_map]

theorem Mirrors.find?_recordName (mirrors : d.Mirrors rs) (id : ExecutionId) :
    d.find? (recordName id) = (rs.find? (·.id = id)).map fun r => .file r.content := by
  ext e
  rw [find?_eq_some mirrors.sorted, mirrors.mem_iff, Option.map_eq_some_iff]
  simp only [find?_eq_some_of_nodup mirrors.nodup_ids, ExecutionRecord.file, Prod.mk.injEq]
  constructor
  · rintro ⟨r, mem, named, held⟩
    exact ⟨r, ⟨mem, recordName_inj named⟩, held⟩
  · rintro ⟨r, ⟨mem, rfl⟩, held⟩
    exact ⟨r, mem, rfl, held⟩

theorem Mirrors.find?_sideName (mirrors : d.Mirrors rs) (id : ExecutionId) : d.find? (sideName id) = none := by
  rw [find?_eq_none mirrors.sorted]
  intro e mem
  obtain ⟨r, -, held⟩ := mirrors.mem_iff.mp mem
  exact sideName_ne_recordName id r.id (Prod.mk.inj held).1.symm

theorem Mirrors.write_rename (mirrors : d.Mirrors rs) (r : ExecutionRecord) :
    ∃ written moved, d.write (sideName r.id) r.content = .ok written ∧
      written.rename (sideName r.id) (recordName r.id) = .ok moved ∧
      moved.Mirrors (MemoryStore.insertById r rs) := by
  let written := d.insert (sideName r.id) (.file r.content)
  let moved := (written.erase (sideName r.id)).insert (recordName r.id) (.file r.content)
  have sorted : written.Sorted := mirrors.sorted.insert _ _
  have side : written.find? (sideName r.id) = some (.file r.content) :=
    (find?_eq_some sorted).mpr ((mem_insert mirrors.sorted).mpr (.inl rfl))
  -- Only files stand in the folder, so no folder is in the way of the move.
  have place : ∀ e, written.find? (recordName r.id) = some e → e ≠ .folder := by
    rintro e found rfl
    rcases (mem_insert mirrors.sorted).mp ((find?_eq_some sorted).mp found) with fresh | ⟨mem, -⟩
    · exact absurd (Prod.mk.inj fresh).2 (by simp)
    · obtain ⟨s, -, held⟩ := mirrors.mem_iff.mp mem
      exact absurd (Prod.mk.inj held).2 (by simp)
  refine ⟨written, moved, ?_, ?_, ?_⟩
  · rw [Folder.write, mirrors.find?_sideName]
  · rw [Folder.rename, side]
    cases found : written.find? (recordName r.id) with
    | none => rfl
    | some e =>
      cases e with
      | file => rfl
      | folder => exact absurd rfl (place _ found)
  · refine .of_mem_iff ((sorted.erase _).insert _ _) (MemoryStore.rising_insertById r mirrors.rising)
      fun p => ?_
    rw [mem_insert (sorted.erase _), mem_erase, mem_insert mirrors.sorted, mirrors.mem_iff]
    simp only [MemoryStore.mem_insertById_iff mirrors.rising]
    constructor
    · rintro (rfl | ⟨⟨rfl | ⟨⟨s, mem, rfl⟩, -⟩, aside⟩, other⟩)
      · exact ⟨r, .inl rfl, rfl⟩
      · exact absurd rfl aside
      · exact ⟨s, .inr ⟨mem, fun same => other (congrArg recordName same)⟩, rfl⟩
    · rintro ⟨s, rfl | ⟨mem, other⟩, rfl⟩
      · exact .inl rfl
      · have aside : s.file.1 ≠ sideName r.id := (sideName_ne_recordName r.id s.id).symm
        exact .inr ⟨⟨.inr ⟨⟨s, mem, rfl⟩, aside⟩, aside⟩, fun same => other (recordName_inj same)⟩

theorem recordsIn_files (rs : List ExecutionRecord) :
    recordsIn (rs.map ExecutionRecord.file) = ExecutionRecord.rereads rs := by
  rw [recordsIn, ExecutionRecord.rereads, List.filterMap_map, List.filterMap_filter]
  refine List.filterMap_congr fun r _ => ?_
  simp only [Function.comp_apply, ExecutionRecord.file, isSome_numberOfName_recordName, decide_eq_true_eq]
  rfl

theorem Mirrors.recordsIn_perm (mirrors : d.Mirrors rs) {listing : List (String × FolderEntry)}
    (complete : listing.Perm d.entries) : (recordsIn listing).Perm (ExecutionRecord.rereads rs) := by
  rw [← recordsIn_files]
  exact (complete.trans mirrors.files).filterMap _

theorem Mirrors.removeFile (mirrors : d.Mirrors rs) {id : ExecutionId} (known : id ∈ rs.map (·.id)) :
    d.removeFile (recordName id) = .ok (d.erase (recordName id)) ∧
      (d.erase (recordName id)).Mirrors (rs.filter (·.id ≠ id)) := by
  obtain ⟨r, mem, rfl⟩ := List.mem_map.mp known
  have present : d.find? (recordName r.id) = some (.file r.content) :=
    (find?_eq_some mirrors.sorted).mpr (mirrors.mem_iff.mpr ⟨r, mem, rfl⟩)
  refine ⟨by rw [Folder.removeFile, present], ?_⟩
  refine .of_mem_iff (mirrors.sorted.erase _) (mirrors.rising.filter _) fun p => ?_
  rw [mem_erase, mirrors.mem_iff]
  simp only [List.mem_filter, decide_eq_true_eq]
  constructor
  · rintro ⟨⟨s, mem, rfl⟩, other⟩
    exact ⟨s, ⟨mem, fun same => other (congrArg recordName same)⟩, rfl⟩
  · rintro ⟨s, ⟨mem, other⟩, rfl⟩
    exact ⟨⟨s, mem, rfl⟩, fun same => other (recordName_inj same)⟩

theorem Mirrors.removeEach {old : List ExecutionRecord} (mirrors : d.Mirrors rs) (once : (old.map (·.id)).Nodup)
    (known : ∀ r ∈ old, r.id ∈ rs.map (·.id)) :
    ∃ d', FileStore.removeEach d old = (.ok (), d') ∧ d'.Mirrors (rs.filter (·.id ∉ old.map (·.id))) := by
  induction old generalizing d rs with
  | nil => exact ⟨d, rfl, by simpa using mirrors⟩
  | cons r rest ih =>
    obtain ⟨here, known⟩ := List.forall_mem_cons.mp known
    obtain ⟨alone, once⟩ := List.nodup_cons.mp once
    obtain ⟨removed, mirrors⟩ := mirrors.removeFile here
    have left : ∀ s ∈ rest, s.id ∈ (rs.filter (·.id ≠ r.id)).map (·.id) := by
      intro s mem
      have other : s.id ≠ r.id := fun same => alone (List.mem_map.mpr ⟨s, mem, same⟩)
      obtain ⟨t, mem, same⟩ := List.mem_map.mp (known s mem)
      refine List.mem_map.mpr ⟨t, List.mem_filter.mpr ⟨mem, ?_⟩, same⟩
      simpa [same] using other
    obtain ⟨d', emptied, mirrors⟩ := ih mirrors once left
    refine ⟨d', by rw [FileStore.removeEach, removed]; exact emptied, ?_⟩
    have others : (rs.filter (·.id ≠ r.id)).filter (·.id ∉ rest.map (·.id)) =
        rs.filter (·.id ∉ (r :: rest).map (·.id)) := by
      rw [List.filter_filter]
      refine List.filter_congr fun s _ => ?_
      rw [← Bool.decide_and, decide_eq_decide, List.map_cons, List.mem_cons, not_or, and_comm]
    rwa [others] at mirrors

end Folder

end FleetOps
