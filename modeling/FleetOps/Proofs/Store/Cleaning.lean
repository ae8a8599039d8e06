import FleetOps.Proofs.Store.Creation
import FleetOps.Proofs.Store.Pruning

set_option autoImplicit false

namespace FleetOps

variable {d d' : Folder} {m : MemoryStore} {s s' : Store} {q r u : ExecutionRecord} {cutoff : Instant}

structure ExecutionRecord.AtWork (r : ExecutionRecord) : Prop where
  storable : r.Storable
  fits : r.id < Text.idBound
  active : r.status.isTerminal = false

theorem ExecutionRecord.AtWork.stays (work : r.AtWork) (cutoff : Instant) : ¬ EndedFile cutoff r.file := by
  simp [← endedFile_iff, recordOf?_file work.storable work.fits, finishedBefore, work.active]

namespace Folder

theorem find?_filter (sorted : d.Sorted) (keep : String × FolderEntry → Bool) (name : String) :
    find? ⟨d.entries.filter keep⟩ name = (d.find? name).filter fun e => keep (name, e) := by
  have filtered : Sorted ⟨d.entries.filter keep⟩ := sorted.filter _
  ext e
  rw [find?_eq_some filtered, Option.filter_eq_some_iff, find?_eq_some sorted, List.mem_filter]

theorem find?_without (sorted : d.Sorted) (cutoff : Instant) (name : String) :
    (d.without cutoff).find? name = (d.find? name).filter fun e => ¬ EndedFile cutoff (name, e) :=
  find?_filter sorted _ name

theorem eq_of_find? (sorted : d.Sorted) (sorted' : d'.Sorted) (same : ∀ name, d.find? name = d'.find? name) :
    d = d' := by
  have mem (p : String × FolderEntry) : p ∈ d.entries ↔ p ∈ d'.entries := by
    rw [← find?_eq_some sorted, ← find?_eq_some sorted', same]
  have perm := (List.perm_ext_iff_of_nodup sorted.nodup_keys.of_map sorted'.nodup_keys.of_map).mpr mem
  refine congrArg Folder.mk (perm.eq_of_pairwise ?_ sorted sorted')
  exact fun _ _ _ _ less more => absurd less (String.lt_asymm more)

theorem Sorted.placed (sorted : d.Sorted) (r : ExecutionRecord) : (d.placed r).Sorted :=
  ((sorted.insert _ _).erase _).insert _ _

namespace Added

theorem ended_perm (added : d.Added d' r) (sorted : d.Sorted) (sorted' : d'.Sorted)
    (stays : ¬ EndedFile cutoff r.file) :
    (d'.entries.filter fun p => EndedFile cutoff p).Perm (d.entries.filter fun p => EndedFile cutoff p) := by
  refine (List.perm_ext_iff_of_nodup (sorted'.nodup_keys.of_map.filter _)
    (sorted.nodup_keys.of_map.filter _)).mpr fun ⟨name, e⟩ => ?_
  rw [List.mem_filter, List.mem_filter, ← find?_eq_some sorted', ← find?_eq_some sorted, added.entries]
  refine and_congr_left fun ended => ?_
  have ended := of_decide_eq_true ended
  split_ifs with own side
  · subst own
    have fresh : d.find? (recordName r.id) = none := by simpa [mem_names] using added.fresh
    rw [fresh]
    refine iff_of_false ?_ (by simp)
    rintro ⟨⟩
    exact stays ended
  · subst side
    obtain ⟨-, ⟨⟨n, numbered⟩, -⟩, -⟩ := ended
    exact absurd numbered (not_numbered_sideName r.id)
  · rfl

theorem ended_eq (added : d.Added d' r) (sorted : d.Sorted) (sorted' : d'.Sorted)
    (stays : ¬ EndedFile cutoff r.file) : d'.ended cutoff = d.ended cutoff := by
  have same := (added.ended_perm sorted sorted' stays).length_eq
  rwa [← List.countP_eq_length_filter, ← List.countP_eq_length_filter] at same

theorem aligned_iff (added : d.Added d' r) (sorted : d.Sorted) (sorted' : d'.Sorted)
    (stays : ¬ EndedFile cutoff r.file) : d'.Aligned cutoff ↔ d.Aligned cutoff := by
  have same := added.ended_perm sorted sorted' stays
  have sameNames := (same.filterMap recordOf?).map fun r => recordName r.id
  rw [Aligned, Aligned, ended_records, ended_records]
  constructor
  · exact fun aligned => sameNames.symm.trans (aligned.trans (same.map _))
  · exact fun aligned => sameNames.trans (aligned.trans (same.map _).symm)

theorem without (added : d.Added d' r) (sorted : d.Sorted) (sorted' : d'.Sorted)
    (stays : ¬ EndedFile cutoff r.file) : (d.without cutoff).Added (d'.without cutoff) r where
  fresh mem := added.fresh ((List.filter_sublist.map _).subset mem)
  above name mem := added.above name ((List.filter_sublist.map _).subset mem)
  entries name := by
    rw [find?_without sorted', find?_without sorted, added.entries]
    split_ifs with own side
    · subst own
      exact Option.filter_eq_some_iff.mpr ⟨rfl, decide_eq_true stays⟩
    · rfl
    · rfl

theorem placed (added : d.Added d' q) (own : u.id = q.id) : d.Added (d'.placed u) u where
  fresh := own ▸ added.fresh
  above := own ▸ added.above
  entries name := by
    rw [find?_placed, added.entries, own]
    split_ifs <;> rfl

theorem left_eq {d₃ : Folder} (added : d.Added d' q) (sorted : d.Sorted) (sorted' : d'.Sorted)
    (stays : ¬ EndedFile cutoff q.file) (own : u.id = q.id) {keep : String × FolderEntry → Bool}
    (kept : d₃ = ⟨d'.entries.filter keep⟩) (present : recordName q.id ∈ d₃.names)
    (left : (d.without cutoff).Added (d₃.placed u) u) : d₃ = d'.without cutoff := by
  have sorted₃ : d₃.Sorted := kept ▸ sorted'.filter keep
  have found (name : String) : d₃.find? name = (d'.find? name).filter fun e => keep (name, e) :=
    kept ▸ find?_filter sorted' keep name
  refine eq_of_find? sorted₃ (sorted'.without cutoff) fun name => ?_
  have before := (added.without sorted sorted' stays).entries name
  have after := left.entries name
  rw [find?_placed, own] at after
  by_cases here : name = recordName q.id
  · subst here
    rw [mem_names, found, added.entries, if_pos rfl, Option.filter_some] at present
    rw [before, if_pos rfl, found, added.entries, if_pos rfl, Option.filter_some]
    split_ifs at present ⊢
    · rfl
    · exact absurd rfl present
  · by_cases side : name = sideName q.id
    · rw [before, if_neg here, if_pos side, found, added.entries, if_neg here, if_pos side]
      rfl
    · rw [if_neg here, if_neg side, if_neg here, if_neg side] at after
      rw [after, before, if_neg here, if_neg side]

end Added

end Folder

theorem MemoryStore.insertById_append {rs : List ExecutionRecord} (later : ∀ q ∈ rs, q.id < r.id)
    (rest : List ExecutionRecord) : insertById r (rs ++ rest) = rs ++ insertById r rest := by
  induction rs with
  | nil => rfl
  | cons q rs ih =>
    obtain ⟨head, later⟩ := List.forall_mem_cons.mp later
    rw [List.cons_append, insertById, if_neg (Nat.lt_asymm head), if_neg (Nat.ne_of_gt head), ih later]
    rfl

namespace Store

def Ready (s : Store) : Prop :=
  s.lastId + 1 < Text.idBound ∧
    match s with
    | .memory m => m.Ordered
    | .files f => ∃ d, f.Covers d ∧ d.Sorted ∧ d.find? (sideName (f.lastId + 1)) ≠ some .folder

/-- The second store holds all that the first one does, and a last record besides. -/
inductive Gains (r : ExecutionRecord) : Store → Store → Prop where
  | memory {m : MemoryStore} (later : ∀ q ∈ m.records, q.id < r.id) :
      Gains r (.memory m) (.memory ⟨m.records ++ [r], r.id⟩)
  | files {f : FileStore} {d d' : Folder} (place : f.place = .folder d) (sorted : d.Sorted)
      (sorted' : d'.Sorted) (added : d.Added d' r) :
      Gains r (.files f) (.files { f with place := .folder d', lastId := r.id })

def Aligned (s : Store) (cutoff : Instant) : Prop :=
  match s with
  | .memory _ => True
  | .files f =>
    match f.place with
    | .folder d => d.Aligned cutoff
    | _ => True

theorem Ready.create (ready : s.Ready) (new : NewExecution) (now : Instant) :
    ∃ s', s.create new now = (.ok (.queued (s.lastId + 1) new now), s') ∧
      Gains (.queued (s.lastId + 1) new now) s s' := by
  obtain ⟨room, shape⟩ := ready
  cases s with
  | memory m =>
    have later : ∀ q ∈ m.records, q.id < m.lastId + 1 := fun q mem => Nat.lt_succ_of_le (shape.given q mem)
    have last := MemoryStore.insertById_append (r := .queued (m.lastId + 1) new now) later []
    rw [List.append_nil] at last
    refine ⟨_, rfl, ?_⟩
    simp only [MemoryStore.insert, last]
    exact .memory later
  | files f =>
    obtain ⟨d, covers, sorted, free⟩ := shape
    rcases covers.create_cases new now with ⟨e, d', failed, -, blocked | taken⟩ | ⟨-, created⟩
    · exact absurd blocked free
    · exact absurd taken (covers.fresh (Nat.lt_succ_self _) room)
    · exact ⟨_, congrArg (Prod.map id Store.files) created,
        .files covers.place sorted (sorted.placed _) (covers.added room rfl)⟩

theorem update_ok {f : FileStore} (place : f.place = .folder d) (updated : (files f).update u = (.ok (), s)) :
    recordName u.id ∈ d.names ∧ s = .files { f with place := .folder (d.placed u) } := by
  simp only [Store.update, FileStore.update] at updated
  split at updated
  · simp at updated
  · simp at updated
  · next stored found =>
    refine ⟨FileStore.Covers.find?_names place found, ?_⟩
    split at updated
    · simp at updated
    · rcases FileStore.write_outcome place u with ⟨-, e, failed⟩ | ⟨-, e, failed⟩ | ⟨-, -, written⟩
      · simp [failed] at updated
      · simp [failed] at updated
      · rw [written] at updated
        exact (Prod.mk.inj updated).2.symm

namespace Gains

theorem added {f g : FileStore} (gains : Gains r (.files f) (.files g)) (place : f.place = .folder d)
    (place' : g.place = .folder d') : d.Added d' r := by
  cases gains with
  | files stood _ _ added =>
    obtain rfl := Place.folder.inj (stood.symm.trans place)
    obtain rfl := Place.folder.inj place'
    exact added

theorem update (gains : Gains q s s') (work : q.AtWork) (own : u.id = q.id) :
    ∃ t, s'.update u = (.ok (), t) ∧ Gains u s t := by
  have allowed : q.checkReplacement u = .ok () := by simp [ExecutionRecord.checkReplacement, work.active]
  cases gains with
  | @memory m later =>
    have found : m.records.find? (·.id = q.id) = none := by
      simpa using fun r mem => Nat.ne_of_lt (later r mem)
    have later : ∀ r ∈ m.records, r.id < u.id := own ▸ later
    have last := MemoryStore.insertById_append later [q]
    have replaced : MemoryStore.insertById u [q] = [u] := by simp [MemoryStore.insertById, own]
    rw [replaced] at last
    refine ⟨.memory ⟨m.records ++ [u], u.id⟩, ?_, .memory later⟩
    simp [Store.update, MemoryStore.update, MemoryStore.find?, own, List.find?_append, found, allowed, Except.map,
      MemoryStore.insert, last]
  | @files f d d' place sorted sorted' added =>
    have entry : d'.find? (recordName u.id) = some (.file q.content) := by rw [own, added.entries, if_pos rfl]
    have beside : d'.find? (sideName u.id) = none := by
      rw [own, added.entries, if_neg (sideName_ne_recordName q.id q.id), if_pos rfl]
    refine ⟨_, ?_, .files place sorted (sorted'.placed u) (added.placed own)⟩
    have read := ExecutionRecord.record_content work.storable work.fits
    rcases FileStore.write_outcome (f := { f with place := .folder d', lastId := q.id }) rfl u with
      ⟨blocked, -⟩ | ⟨taken, -⟩ | ⟨-, -, written⟩
    · simp [beside] at blocked
    · simp [entry] at taken
    · simp only [Store.update, FileStore.update, FileStore.find?, FileStore.entry?, entry, read, allowed, written,
        bind, Except.bind, pure, Except.pure]
      rw [own]

theorem prune (gains : Gains q s s') (work : q.AtWork) (aligned : s.Aligned cutoff) :
    ∃ t, s'.prune Folder.entries cutoff = (.ok (s.ended cutoff), t) ∧ Gains q (s.without cutoff) t := by
  cases gains with
  | @memory m later =>
    have remains : ¬ q.EndedBefore cutoff := by simp [ExecutionRecord.EndedBefore, work.active]
    have pruned := prune_memory ⟨m.records ++ [q], q.id⟩ Folder.entries cutoff
    simp only [ended, without, List.countP_append, List.filter_append, List.countP_singleton, List.filter_singleton,
      remains, decide_false, not_false_eq_true, decide_true, Bool.false_eq_true, if_false, Nat.add_zero,
      Bool.cond_true] at pruned
    exact ⟨_, pruned, .memory fun r mem => later r (List.mem_of_mem_filter mem)⟩
  | @files f d d' place sorted sorted' added =>
    have stays := work.stays cutoff
    have aligned : d.Aligned cutoff := by simpa only [Aligned, place] using aligned
    have aligned' : d'.Aligned cutoff := (added.aligned_iff sorted sorted' stays).mpr aligned
    have pruned := (FileStore.prune_without (f := { f with place := .folder d', lastId := q.id }) rfl sorted'
      fun d => .refl d.entries).mpr aligned'
    simp only [added.ended_eq sorted sorted' stays] at pruned
    simp only [ended, without, place]
    exact ⟨_, congrArg (Prod.map id Store.files) pruned,
      .files rfl (sorted.filter _) (sorted'.filter _) (added.without sorted sorted' stays)⟩

theorem aligned (gains : Gains q s s') (work : q.AtWork) (own : u.id = q.id) {n : Nat} {t t' : Store}
    (pruned : s'.prune Folder.entries cutoff = (.ok n, t)) (updated : t.update u = (.ok (), t'))
    (left : Gains u (s.without cutoff) t') : s.Aligned cutoff := by
  cases gains with
  | memory => trivial
  | @files f d d' place sorted sorted' added =>
    have stays := work.stays cutoff
    simp only [without, place] at left
    simp only [Aligned, place]
    refine (added.aligned_iff sorted sorted' stays).mp ((Folder.removeEach_without sorted' (.refl _)).mp ?_)
    cases removed : FileStore.removeEach d' ((recordsIn d'.entries).filter (·.finishedBefore cutoff)) with
    | mk answer d₃ =>
      cases answer with
      | error cause => simp [Store.prune, FileStore.prune, Place.folder?, removed] at pruned
      | ok =>
        obtain ⟨-, -, kept⟩ := Folder.removeEach_eq_ok.mp removed
        have here : Store.files { f with place := .folder d₃, lastId := q.id } = t := by
          simpa [Store.prune, FileStore.prune, Place.folder?, removed] using And.right (Prod.mk.inj pruned)
        subst here
        obtain ⟨present, rfl⟩ := update_ok rfl updated
        rw [added.left_eq sorted sorted' stays own kept (own ▸ present) (left.added rfl rfl)]

end Gains

end Store

end FleetOps
