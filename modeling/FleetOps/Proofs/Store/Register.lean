import FleetOps.Proofs.Store.Frozen
import FleetOps.Proofs.Timestamp

set_option autoImplicit false

namespace FleetOps

variable {register : List Instant} {now t : Instant} {a b r : ExecutionRecord} {s : Store}

def Instant.Ordinary (t : Instant) : Prop :=
  t.isValid = true ∧ t.nanos < 1000000000

instance : DecidablePred Instant.Ordinary :=
  fun t => inferInstanceAs (Decidable (t.isValid = true ∧ t.nanos < 1000000000))

theorem Instant.Ordinary.survives (ordinary : t.Ordinary) : t.Survives :=
  Instant.read?_text ordinary.1 ordinary.2

theorem Instant.atMost_trans {a b c : Instant} (ab : a.atMost b = true) (bc : b.atMost c = true) :
    a.atMost c = true := by
  simp only [atMost_iff, before_iff, eq_iff] at *
  omega

namespace ExecutionRecord

def Entered (register : List Instant) (r : ExecutionRecord) : Prop :=
  ∃ n, r.id = n + 1 ∧ register[n]? = some r.createdAt

namespace Entered

theorem queued (register : List Instant) (new : NewExecution) (now : Instant) :
    (ExecutionRecord.queued (register.length + 1) new now).Entered (register ++ [now]) :=
  ⟨register.length, rfl, by simp [ExecutionRecord.queued]⟩

theorem append (entered : r.Entered register) (now : Instant) : r.Entered (register ++ [now]) := by
  obtain ⟨n, id, there⟩ := entered
  obtain ⟨inside, -⟩ := List.getElem?_eq_some_iff.mp there
  exact ⟨n, id, by rw [List.getElem?_append_left inside, there]⟩

theorem of_same (entered : a.Entered register) (id : b.id = a.id) (createdAt : b.createdAt = a.createdAt) :
    b.Entered register := by
  obtain ⟨n, own, there⟩ := entered
  exact ⟨n, id.trans own, createdAt ▸ there⟩

theorem mem (entered : r.Entered register) : r.createdAt ∈ register := by
  obtain ⟨n, -, there⟩ := entered
  exact List.mem_of_getElem? there

theorem atMost (rising : register.Pairwise fun t u => t.atMost u = true) (later : a.Entered register)
    (earlier : b.Entered register) (less : b.id < a.id) : b.createdAt.atMost a.createdAt = true := by
  obtain ⟨m, idA, thereA⟩ := later
  obtain ⟨n, idB, thereB⟩ := earlier
  obtain ⟨insideA, atA⟩ := List.getElem?_eq_some_iff.mp thereA
  obtain ⟨insideB, atB⟩ := List.getElem?_eq_some_iff.mp thereB
  rw [idA, idB] at less
  rw [← atA, ← atB]
  exact List.pairwise_iff_getElem.mp rising n m insideB insideA (Nat.lt_of_succ_lt_succ less)

end Entered

end ExecutionRecord

namespace ExecutionQuery

def greaterIdFirst (a b : ExecutionRecord) : Bool :=
  b.id ≤ a.id

theorem greaterIdFirst_of_newerFirst (rising : register.Pairwise fun t u => t.atMost u = true)
    (ha : a.Entered register) (hb : b.Entered register) (newer : newerFirst a b = true) :
    greaterIdFirst a b = true := by
  by_contra less
  have less : a.id < b.id := by simpa [greaterIdFirst] using less
  have order := ExecutionRecord.Entered.atMost rising hb ha less
  simp only [newerFirst_iff, Instant.atMost_iff, Instant.before_iff, Instant.eq_iff, ExecutionId] at newer order less
  omega

variable {rs : List ExecutionRecord}

theorem ordered_by_id (q : ExecutionQuery) (rising : register.Pairwise fun t u => t.atMost u = true)
    (once : (rs.map (·.id)).Nodup) (entered : ∀ r ∈ rs, r.Entered register) :
    q.ordered rs = (rs.filter q.selects).mergeSort greaterIdFirst ∧
    (q.ordered rs).Pairwise fun a b => b.id < a.id ∧ b.createdAt.atMost a.createdAt = true := by
  have drawn := q.ordered_drawn rs
  have own : ∀ r ∈ q.ordered rs, r ∈ rs := fun r mem =>
    (List.mem_filter.mp (drawn.mem_iff.mp mem)).1
  have byId : (q.ordered rs).Pairwise fun a b => greaterIdFirst a b = true := by
    refine (q.newerFirst_ordered rs).imp_of_mem fun ha hb newer => ?_
    exact greaterIdFirst_of_newerFirst rising (entered _ (own _ ha)) (entered _ (own _ hb)) newer
  have sorted : ((rs.filter q.selects).mergeSort greaterIdFirst).Pairwise fun a b => greaterIdFirst a b = true := by
    refine List.pairwise_mergeSort (fun a b c => ?_) (fun a b => ?_) _ <;>
      simp only [greaterIdFirst, decide_eq_true_eq, Bool.or_eq_true, ExecutionId] <;> omega
  constructor
  · refine List.Perm.eq_of_pairwise ?_ byId sorted (drawn.trans (List.mergeSort_perm _ _).symm)
    intro a b ha hb ab ba
    have mem : b ∈ rs := (List.mem_filter.mp ((List.mergeSort_perm _ _).mem_iff.mp hb)).1
    simp only [greaterIdFirst, decide_eq_true_eq] at ab ba
    exact List.inj_on_of_nodup_map once (own a ha) mem (Nat.le_antisymm ba ab)
  · have distinct : (q.ordered rs).Pairwise fun a b => a.id ≠ b.id := by
      have once : ((q.ordered rs).map (·.id)).Nodup :=
        (drawn.map _).nodup_iff.mpr (once.sublist (List.filter_sublist.map _))
      exact List.pairwise_map.mp once
    refine (byId.and distinct).imp_of_mem fun {a b} ha hb both => ?_
    obtain ⟨le, other⟩ := both
    have less : b.id < a.id := Nat.lt_of_le_of_ne (by simpa [greaterIdFirst] using le) other.symm
    exact ⟨less, ExecutionRecord.Entered.atMost rising (entered a (own a ha)) (entered b (own b hb)) less⟩

end ExecutionQuery

namespace Store

def Keeps : Store → List ExecutionRecord → Prop
  | .memory m, rs => m.Ordered ∧ m.records = rs
  | .files f, rs => f.Holds rs

/-- All ids that the store gave are in the register, and so are the records that it holds. -/
structure Registered (s : Store) (register : List Instant) : Prop where
  last : s.lastId = register.length
  held : ∃ rs, s.Keeps rs ∧ ∀ r ∈ rs, r.Entered register

namespace Registered

theorem fresh (fresh : s.Fresh) : s.Registered [] := by
  refine ⟨fresh.sound.2, [], ?_, by simp⟩
  cases fresh with
  | memory => exact ⟨MemoryStore.Made.empty.ordered, rfl⟩
  | @files path place f bare opened =>
    obtain ⟨f', opened', holds, -⟩ := FileStore.Holds.of_bare path bare
    obtain rfl : f = f' := Except.ok.inj (opened.symm.trans opened')
    exact holds

theorem create (registered : s.Registered register) (new : NewExecution) (now : Instant) :
    ∃ s', s.create new now = (.ok (.queued (register.length + 1) new now), s') ∧
      s'.Registered (register ++ [now]) := by
  obtain ⟨last, rs, keeps, entered⟩ := registered
  have all : ∀ r ∈ MemoryStore.insertById (.queued (register.length + 1) new now) rs,
      r.Entered (register ++ [now]) := by
    intro r mem
    rcases MemoryStore.mem_insertById mem with rfl | mem
    · exact .queued register new now
    · exact (entered r mem).append now
  cases s with
  | memory m =>
    obtain ⟨ordered, rfl⟩ := keeps
    have last : m.lastId = register.length := last
    rw [← last] at all ⊢
    exact ⟨_, rfl, by simp [lastId, last], _, ⟨ordered.create new now, rfl⟩, all⟩
  | files f =>
    have last : f.lastId = register.length := last
    obtain ⟨f', created, holds, next⟩ := FileStore.Holds.create keeps new now
    rw [last] at created holds next
    exact ⟨.files f', by simp only [Store.create, created], by simp [lastId, next], _, holds, all⟩

theorem update (registered : s.Registered register) (entered : r.Entered register) :
    (s.update r).2.Registered register := by
  obtain ⟨last, rs, keeps, all⟩ := registered
  have rest : ∀ u ∈ MemoryStore.insertById r rs, u.Entered register := by
    intro u mem
    rcases MemoryStore.mem_insertById mem with rfl | mem
    · exact entered
    · exact all u mem
  cases s with
  | memory m =>
    obtain ⟨ordered, rfl⟩ := keeps
    cases updated : m.update r with
    | error e =>
      simp only [Store.update, updated]
      exact ⟨last, _, ⟨ordered, rfl⟩, all⟩
    | ok m' =>
      have ordered' := ordered.update updated
      simp only [Store.update, updated]
      obtain ⟨-, -, -, rfl⟩ := MemoryStore.update_eq_ok.mp updated
      exact ⟨last, _, ⟨ordered', rfl⟩, rest⟩
  | files f =>
    rcases FileStore.Holds.update keeps r with ⟨e, refused⟩ | ⟨stored, f', -, -, updated, holds, same⟩
    · simp only [Store.update, refused]
      exact ⟨last, rs, keeps, all⟩
    · simp only [Store.update, updated]
      exact ⟨same.trans last, _, holds, rest⟩

theorem prune (registered : s.Registered register) {listing : Listing} (complete : listing.Complete)
    (cutoff : Instant) : (s.prune listing cutoff).2.Registered register := by
  obtain ⟨last, rs, keeps, all⟩ := registered
  cases s with
  | memory m =>
    obtain ⟨ordered, rfl⟩ := keeps
    exact ⟨last, _, ⟨ordered.prune cutoff, rfl⟩, fun r mem => all r (List.mem_of_mem_filter mem)⟩
  | files f =>
    obtain ⟨f', old, pruned, -, holds, same⟩ := FileStore.Holds.removes keeps complete cutoff
    simp only [Store.prune, pruned]
    exact ⟨same.trans last, _, holds, fun r mem => all r (List.mem_of_mem_filter mem)⟩

theorem query (registered : s.Registered register) (ordinary : ∀ t ∈ register, t.Ordinary) {listing : Listing}
    (complete : listing.Complete) :
    ∃ records : List ExecutionRecord, (∀ q, (s.serve listing (.query q)).1 = .page (.ok (q.apply records))) ∧
      (records.map (·.id)).Nodup ∧ ∀ r ∈ records, r.Entered register := by
  obtain ⟨-, rs, keeps, all⟩ := registered
  cases s with
  | memory m =>
    obtain ⟨ordered, rfl⟩ := keeps
    exact ⟨m.records, fun q => rfl, ordered.nodup_ids, all⟩
  | files f =>
    have holds : f.Holds rs := keeps
    refine ⟨ExecutionRecord.rereads rs, fun q => ?_, ?_, fun r mem => ?_⟩
    · simp only [serve, Store.query, holds.query complete]
    · exact holds.nodup_ids.sublist (ExecutionRecord.ids_rereads rs)
    · obtain ⟨u, mem, fits, read⟩ := ExecutionRecord.mem_rereads.mp mem
      have entered := all u mem
      have survives := (ordinary _ entered.mem).survives
      exact entered.of_same (ExecutionRecord.id_of_reread? fits read)
        (ExecutionRecord.createdAt_of_reread? survives read)

end Registered

end Store

end FleetOps
