import FleetOps.Proofs.Instant
import FleetOps.Proofs.Store.Refinement

set_option autoImplicit false

namespace FleetOps

variable {d : Folder} {f : FileStore} {m : MemoryStore} {s : Store} {r : ExecutionRecord}
  {p : String × FolderEntry} {cutoff c₁ c₂ : Instant} {listing : Listing}

def ExecutionRecord.EndedBefore (r : ExecutionRecord) (cutoff : Instant) : Prop :=
  r.status.isTerminal = true ∧ ∃ t, r.finishedAt = some t ∧ t.before cutoff = true

theorem ExecutionRecord.finishedBefore_iff : r.finishedBefore cutoff = true ↔ r.EndedBefore cutoff := by
  cases finished : r.finishedAt <;> simp [finishedBefore, EndedBefore, finished]

instance : DecidableRel ExecutionRecord.EndedBefore := fun _ _ =>
  decidable_of_iff _ ExecutionRecord.finishedBefore_iff

theorem ExecutionRecord.endedBefore_max :
    r.EndedBefore (c₁.max c₂) ↔ r.EndedBefore c₁ ∨ r.EndedBefore c₂ := by
  simp only [EndedBefore, Instant.before_max_iff]
  grind

def recordOf? (p : String × FolderEntry) : Option ExecutionRecord :=
  if (numberOfName p.1).isSome then p.2.record.toOption else none

def ReadsAs (p : String × FolderEntry) (r : ExecutionRecord) : Prop :=
  (∃ n, Numbered p.1 n) ∧ p.2.record = .ok r

theorem recordOf?_eq_some : recordOf? p = some r ↔ ReadsAs p r := by
  simp only [recordOf?, ReadsAs, Option.ite_none_right_eq_some, Option.isSome_iff_exists, numberOfName_eq_some]
  cases p.2.record <;> simp [Except.toOption]

theorem recordsIn_eq (entries : List (String × FolderEntry)) : recordsIn entries = entries.filterMap recordOf? :=
  rfl

theorem recordOf?_file (storable : r.Storable) (fits : r.id < Text.idBound) : recordOf? r.file = some r :=
  recordOf?_eq_some.mpr ⟨⟨r.id, numberOfName_eq_some.mp (numberOfName_recordName fits)⟩,
    ExecutionRecord.record_content storable fits⟩

def EndedFile (cutoff : Instant) (p : String × FolderEntry) : Prop :=
  ∃ r, ReadsAs p r ∧ r.EndedBefore cutoff

theorem endedFile_iff : (recordOf? p).any (·.finishedBefore cutoff) = true ↔ EndedFile cutoff p := by
  simp only [Option.any_eq_true, recordOf?_eq_some, ExecutionRecord.finishedBefore_iff, EndedFile]

instance (cutoff : Instant) : DecidablePred (EndedFile cutoff) := fun _ =>
  decidable_of_iff _ endedFile_iff

theorem endedFile_max : EndedFile (c₁.max c₂) p ↔ EndedFile c₁ p ∨ EndedFile c₂ p := by
  simp only [EndedFile, ExecutionRecord.endedBefore_max, and_or_left, exists_or]

theorem EndedFile.content (ended : EndedFile cutoff p) : ∃ content, p.2 = .file content := by
  obtain ⟨r, ⟨-, read⟩, -⟩ := ended
  cases held : p.2 with
  | file content => exact ⟨content, rfl⟩
  | folder =>
    rw [held] at read
    cases read

def targets (old : List ExecutionRecord) : List String :=
  old.map fun r => recordName r.id

namespace Folder

theorem files_erase {name : String} {names : List String} :
    (∀ n ∈ names, ∃ content, (d.erase name).find? n = some (.file content)) ↔
      name ∉ names ∧ ∀ n ∈ names, ∃ content, d.find? n = some (.file content) := by
  simp only [find?_erase]
  constructor
  · intro files
    refine ⟨fun mem => ?_, fun n mem => ?_⟩
    · obtain ⟨content, there⟩ := files name mem
      simp at there
    · obtain ⟨content, there⟩ := files n mem
      split_ifs at there
      exact ⟨content, there⟩
  · rintro ⟨alone, files⟩ n mem
    have other : n ≠ name := fun same => alone (same ▸ mem)
    rw [if_neg other]
    exact files n mem

/-- The records leave one by one as long as each of their names stands for a file; a name that comes again
stands for nothing any more. -/
theorem removeEach_eq_ok {old : List ExecutionRecord} {d' : Folder} :
    FileStore.removeEach d old = (.ok (), d') ↔
      (targets old).Nodup ∧ (∀ name ∈ targets old, ∃ content, d.find? name = some (.file content)) ∧
      d' = ⟨d.entries.filter (·.1 ∉ targets old)⟩ := by
  induction old generalizing d with
  | nil => simp [FileStore.removeEach, targets, eq_comm]
  | cons r rest ih =>
    have split : targets (r :: rest) = recordName r.id :: targets rest := rfl
    rw [FileStore.removeEach, Folder.removeFile, split, List.nodup_cons, List.forall_mem_cons]
    cases found : d.find? (recordName r.id) with
    | none => simp
    | some e =>
      cases e with
      | folder => simp
      | file content =>
        have entries : (d.erase (recordName r.id)).entries.filter (·.1 ∉ targets rest) =
            d.entries.filter (·.1 ∉ recordName r.id :: targets rest) := by
          rw [Folder.erase, List.filter_filter]
          refine List.filter_congr fun p _ => ?_
          simp [Bool.and_comm]
        have here : ∃ content', some (FolderEntry.file content) = some (.file content') := ⟨content, rfl⟩
        simp only [ih, files_erase, entries]
        tauto

end Folder

theorem ended_records (entries : List (String × FolderEntry)) :
    (recordsIn entries).filter (·.finishedBefore cutoff) =
      (entries.filter fun p => EndedFile cutoff p).filterMap recordOf? := by
  rw [recordsIn_eq, List.filter_filterMap, List.filterMap_filter]
  refine List.filterMap_congr fun p _ => ?_
  simp only [← endedFile_iff]
  cases recordOf? p <;> simp [Option.filter]

theorem map_ended {β : Type} {entries : List (String × FolderEntry)} (g : ExecutionRecord → β)
    (h : String × FolderEntry → β) (agree : ∀ p ∈ entries, ∀ r, ReadsAs p r → g r = h p) :
    ((recordsIn entries).filter (·.finishedBefore cutoff)).map g =
      (entries.filter fun p => EndedFile cutoff p).map h := by
  rw [ended_records, List.map_filterMap, ← List.filterMap_eq_map]
  refine List.filterMap_congr fun p mem => ?_
  obtain ⟨there, ended⟩ := List.mem_filter.mp mem
  obtain ⟨r, reads, -⟩ := of_decide_eq_true ended
  rw [recordOf?_eq_some.mpr reads, Option.map_some, agree p there r reads, Function.comp_apply]

namespace Folder

def without (d : Folder) (cutoff : Instant) : Folder :=
  ⟨d.entries.filter fun p => ¬ EndedFile cutoff p⟩

def ended (d : Folder) (cutoff : Instant) : Nat :=
  d.entries.countP fun p => EndedFile cutoff p

/-- The files of the records that have ended bear the names of these records, if not each its own. -/
def Aligned (d : Folder) (cutoff : Instant) : Prop :=
  (targets ((recordsIn d.entries).filter (·.finishedBefore cutoff))).Perm
    ((d.entries.filter fun p => EndedFile cutoff p).map (·.1))

def WellNamed (d : Folder) : Prop :=
  ∀ p ∈ d.entries, ∀ r, ReadsAs p r → p.1 = recordName r.id

theorem WellNamed.aligned (named : d.WellNamed) (cutoff : Instant) : d.Aligned cutoff := by
  rw [Aligned, targets, map_ended (fun r => recordName r.id) (·.1) fun p mem r reads => (named p mem r reads).symm]

theorem WellNamed.without (named : d.WellNamed) (cutoff : Instant) : (d.without cutoff).WellNamed :=
  fun p mem => named p (List.mem_of_mem_filter mem)

theorem Sorted.without (sorted : d.Sorted) (cutoff : Instant) : (d.without cutoff).Sorted :=
  sorted.filter _

theorem eq_of_name (sorted : d.Sorted) {q : String × FolderEntry} (mem : p ∈ d.entries) (mem' : q ∈ d.entries)
    (same : p.1 = q.1) : p = q :=
  List.inj_on_of_nodup_map sorted.nodup_keys mem mem' same

theorem mem_ended_names (sorted : d.Sorted) (mem : p ∈ d.entries) :
    p.1 ∈ (d.entries.filter fun p => EndedFile cutoff p).map (·.1) ↔ EndedFile cutoff p := by
  rw [List.mem_map]
  constructor
  · rintro ⟨q, there, same⟩
    obtain ⟨mem', ended⟩ := List.mem_filter.mp there
    obtain rfl := eq_of_name sorted mem' mem same
    exact of_decide_eq_true ended
  · intro ended
    exact ⟨p, List.mem_filter.mpr ⟨mem, decide_eq_true ended⟩, rfl⟩

/-- A prune removes what it should just where the names are aligned. -/
theorem removeEach_without (sorted : d.Sorted) {old : List ExecutionRecord}
    (listed : old.Perm ((recordsIn d.entries).filter (·.finishedBefore cutoff))) :
    FileStore.removeEach d old = (.ok (), d.without cutoff) ↔ d.Aligned cutoff := by
  have same : (targets old).Perm (targets ((recordsIn d.entries).filter (·.finishedBefore cutoff))) :=
    listed.map _
  have once : ((d.entries.filter fun p => EndedFile cutoff p).map (·.1)).Nodup :=
    sorted.nodup_keys.sublist (List.filter_sublist.map _)
  rw [removeEach_eq_ok, Aligned]
  constructor
  · rintro ⟨alone, files, left⟩
    have goes (p : String × FolderEntry) (mem : p ∈ d.entries) : p.1 ∈ targets old ↔ EndedFile cutoff p := by
      have both : p ∈ (d.without cutoff).entries ↔ p ∈ d.entries.filter (·.1 ∉ targets old) := by rw [left]
      simpa [Folder.without, mem, not_iff_not, iff_comm] using both
    refine same.symm.trans ((List.perm_ext_iff_of_nodup alone once).mpr fun name => ?_)
    constructor
    · intro mem
      obtain ⟨content, found⟩ := files name mem
      have there := (find?_eq_some sorted).mp found
      exact (mem_ended_names sorted there).mpr ((goes _ there).mp mem)
    · intro mem
      obtain ⟨p, there, rfl⟩ := List.mem_map.mp mem
      have there := List.mem_of_mem_filter there
      exact (goes p there).mpr ((mem_ended_names sorted there).mp mem)
  · intro aligned
    have all := same.trans aligned
    refine ⟨all.nodup_iff.mpr once, fun name mem => ?_, congrArg Folder.mk (List.filter_congr fun p mem => ?_)⟩
    · obtain ⟨p, there, rfl⟩ := List.mem_map.mp (all.mem_iff.mp mem)
      obtain ⟨mem, ended⟩ := List.mem_filter.mp there
      obtain ⟨content, held⟩ := (of_decide_eq_true ended).content
      exact ⟨content, (find?_eq_some sorted).mpr (held ▸ mem)⟩
    · rw [decide_eq_decide, all.mem_iff, mem_ended_names sorted mem]

theorem length_ended {entries : List (String × FolderEntry)} (listed : entries.Perm d.entries) :
    ((recordsIn entries).filter (·.finishedBefore cutoff)).length = d.ended cutoff := by
  have each : ((recordsIn entries).filter (·.finishedBefore cutoff)).map (fun _ => ()) =
      (entries.filter fun p => EndedFile cutoff p).map fun _ => () := map_ended _ _ fun _ _ _ _ => rfl
  have counted := congrArg List.length each
  rw [List.length_map, List.length_map] at counted
  rw [counted, ← List.countP_eq_length_filter, Folder.ended]
  exact listed.countP_eq _

end Folder

theorem FileStore.prune_without (place : f.place = .folder d) (sorted : d.Sorted)
    (complete : listing.Complete) : f.prune listing cutoff =
      (.ok (d.ended cutoff), { f with place := .folder (d.without cutoff) }) ↔ d.Aligned cutoff := by
  have listed : ((recordsIn (listing d)).filter (·.finishedBefore cutoff)).Perm
      ((recordsIn d.entries).filter (·.finishedBefore cutoff)) := ((complete d).filterMap _).filter _
  rw [← Folder.removeEach_without sorted listed]
  simp only [prune, place, Place.folder?, Folder.length_ended (complete d)]
  split
  · next left removed => simp [removed]
  · next cause left removed => simp [removed]

namespace Store

def without (s : Store) (cutoff : Instant) : Store :=
  match s with
  | .memory m => .memory { m with records := m.records.filter fun r => ¬ r.EndedBefore cutoff }
  | .files f =>
    match f.place with
    | .folder d => .files { f with place := .folder (d.without cutoff) }
    | _ => .files f

def ended (s : Store) (cutoff : Instant) : Nat :=
  match s with
  | .memory m => m.records.countP fun r => r.EndedBefore cutoff
  | .files f =>
    match f.place with
    | .folder d => d.ended cutoff
    | _ => 0

def WellNamed : Store → Prop
  | .memory _ => True
  | .files f => ∃ d, f.place = .folder d ∧ d.Sorted ∧ d.WellNamed

theorem prune_memory (m : MemoryStore) (listing : Listing) (cutoff : Instant) :
    (Store.memory m).prune listing cutoff =
      (.ok ((Store.memory m).ended cutoff), (Store.memory m).without cutoff) := by
  have kept : (m.records.filter fun r => !r.finishedBefore cutoff) =
      m.records.filter fun r => ¬ r.EndedBefore cutoff :=
    List.filter_congr fun r _ => by simp [← ExecutionRecord.finishedBefore_iff]
  have count : m.records.length - (m.records.filter fun r => ¬ r.EndedBefore cutoff).length =
      m.records.countP fun r => r.EndedBefore cutoff := by
    have total := List.length_eq_countP_add_countP (fun r => decide (ExecutionRecord.EndedBefore r cutoff))
      (l := m.records)
    rw [← List.countP_eq_length_filter]
    simp only [decide_not, Bool.decide_eq_true] at total ⊢
    omega
  simp only [Store.prune, MemoryStore.prune, kept, count, ended, without]

theorem WellNamed.prune (named : s.WellNamed) (complete : listing.Complete) (cutoff : Instant) :
    s.prune listing cutoff = (.ok (s.ended cutoff), s.without cutoff) := by
  cases s with
  | memory m => exact prune_memory m listing cutoff
  | files f =>
    obtain ⟨d, place, sorted, named⟩ := named
    have pruned := (FileStore.prune_without place sorted complete).mpr (named.aligned cutoff)
    simp only [Store.prune, pruned, ended, without, place]

theorem WellNamed.without (named : s.WellNamed) (cutoff : Instant) : (s.without cutoff).WellNamed := by
  cases s with
  | memory m => trivial
  | files f =>
    obtain ⟨d, place, sorted, named⟩ := named
    simp only [Store.without, place]
    exact ⟨d.without cutoff, rfl, sorted.filter _, named.without cutoff⟩

theorem without_without (s : Store) (c₁ c₂ : Instant) :
    (s.without c₁).without c₂ = s.without (c₁.max c₂) := by
  cases s with
  | memory m =>
    simp only [without, List.filter_filter, ExecutionRecord.endedBefore_max, not_or, Bool.decide_and, Bool.and_comm]
  | files f =>
    cases place : f.place with
    | missing | file => simp only [without, place]
    | folder d =>
      simp only [without, place, Folder.without, List.filter_filter, endedFile_max, not_or, Bool.decide_and,
        Bool.and_comm]

theorem ended_add (s : Store) (c₁ c₂ : Instant) :
    s.ended c₁ + (s.without c₁).ended c₂ = s.ended (c₁.max c₂) := by
  cases s with
  | memory m =>
    simp only [without, ended, ExecutionRecord.endedBefore_max]
    exact countP_add_filter _ _ _
  | files f =>
    cases place : f.place with
    | missing | file => simp only [without, ended, place]
    | folder d =>
      simp only [without, ended, place, Folder.without, Folder.ended, endedFile_max]
      exact countP_add_filter _ _ _

/-- A prune removes the records that ended before the cutoff and says how many they are; all others stay, and
so does whatever else lies in the folder. A second prune does what is left of one up to the later cutoff. -/
theorem prune_exact {listing₁ listing₂ : Listing} (named : s.WellNamed) (complete : listing.Complete)
    (complete₁ : listing₁.Complete) (complete₂ : listing₂.Complete) :
    (∀ cutoff, s.prune listing cutoff = (.ok (s.ended cutoff), s.without cutoff)) ∧
    ∀ c₁ c₂, ∃ n₁ n₂ s₁ s₂, s.prune listing₁ c₁ = (.ok n₁, s₁) ∧ s₁.prune listing₂ c₂ = (.ok n₂, s₂) ∧
      s.prune listing (c₁.max c₂) = (.ok (n₁ + n₂), s₂) := by
  refine ⟨named.prune complete, fun c₁ c₂ => ?_⟩
  refine ⟨_, _, _, _, named.prune complete₁ c₁, (named.without c₁).prune complete₂ c₂, ?_⟩
  rw [ended_add, without_without]
  exact named.prune complete _

def mixed : Folder :=
  ⟨[("+7.json", .file .empty), shortRunSkipped.file, (shortRun 2).file, ("notes.txt", .file .empty)]⟩

theorem mixed_reads : mixed.entries.map recordOf? = [none, some shortRunSkipped, some (shortRun 2), none] := by
  have unreadable : (FolderEntry.file .empty).record = .error .unreadable := by rfl
  have unnumbered : numberOfName "notes.txt" = none := by decide
  have first : recordOf? ("+7.json", .file .empty) = none := by simp [recordOf?, unreadable, Except.toOption]
  have last : recordOf? ("notes.txt", .file .empty) = none := by simp [recordOf?, unnumbered]
  simp only [mixed, List.map_cons, List.map_nil, first, last,
    recordOf?_file shortRunSkipped_storable (by decide), recordOf?_file (shortRun_storable 2) (by decide)]

theorem mixed_wellNamed : mixed.Sorted ∧ mixed.WellNamed := by
  have rising : mixed.names.Pairwise (· < ·) := by decide
  have reads := mixed_reads
  simp only [mixed, List.map_cons, List.map_nil, List.cons.injEq, and_true] at reads
  obtain ⟨first, second, third, fourth⟩ := reads
  refine ⟨List.pairwise_map.mp rising, ?_⟩
  simp only [Folder.WellNamed, ← recordOf?_eq_some, mixed, List.forall_mem_cons, first, second, third, fourth]
  refine ⟨by simp, ?_, ?_, by simp, by simp⟩
  · rintro r ⟨⟩
    rfl
  · rintro r ⟨⟩
    rfl

theorem mixed_ended (cutoff : Instant) : mixed.ended cutoff =
    [none, some shortRunSkipped, some (shortRun 2), none].countP fun r => r.any (·.finishedBefore cutoff) := by
  rw [← mixed_reads, List.countP_map, Folder.ended]
  refine List.countP_congr fun p _ => ?_
  rw [decide_eq_true_iff, ← endedFile_iff]
  rfl

theorem mixed_pruned :
    let s : Store := .files { path := "/data/executions", place := .folder mixed, lastId := 7 }
    let early : Instant := ⟨1700000060, 500000000⟩
    let late : Instant := ⟨1700000061, 0⟩
    s.WellNamed ∧ Listing.Complete Folder.entries ∧ (eitherWay 1).Complete ∧
      s.prune (eitherWay 1) late = (.ok 1, s.without late) ∧
      ∃ s₁, s.prune (eitherWay 1) early = (.ok 0, s₁) ∧
        s₁.prune Folder.entries late = (.ok 1, s.without late) := by
  intro s early late
  have named : s.WellNamed := ⟨mixed, rfl, mixed_wellNamed⟩
  have plain : Listing.Complete Folder.entries := fun _ => .refl _
  have nothing : s.ended early = 0 := (mixed_ended early).trans (by decide)
  have one : s.ended late = 1 := (mixed_ended late).trans (by decide)
  obtain ⟨exactly, twice⟩ := prune_exact named (eitherWay_complete 1) (eitherWay_complete 1) plain
  obtain ⟨n₁, n₂, s₁, s₂, first, second, both⟩ := twice early late
  have later : early.max late = late := by rfl
  have alone := exactly late
  rw [one] at alone
  rw [later, alone] at both
  obtain ⟨total, rfl⟩ := Prod.mk.inj both
  obtain rfl : n₁ = 0 := by
    have count := (exactly early).symm.trans first
    rw [nothing] at count
    simpa using (Prod.mk.inj count).1.symm
  obtain rfl : n₂ = 1 := by simpa using total.symm
  exact ⟨named, plain, eitherWay_complete 1, alone, s₁, first, second⟩

end Store

end FleetOps
