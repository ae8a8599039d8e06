import FleetOps.Proofs.Lists
import FleetOps.Store.Memory
import Mathlib.Tactic.SplitIfs
import Mathlib.Tactic.Tauto

set_option autoImplicit false

namespace FleetOps.MemoryStore

variable {m m' : MemoryStore} {r : ExecutionRecord} {id : ExecutionId}

structure Ordered (m : MemoryStore) : Prop where
  rising : m.records.Pairwise fun a b => a.id < b.id
  given : ∀ r ∈ m.records, r.id ≤ m.lastId

theorem mem_insertById {r s : ExecutionRecord} {rs : List ExecutionRecord}
    (h : s ∈ insertById r rs) : s = r ∨ s ∈ rs := by
  induction rs with
  | nil => simpa [insertById] using h
  | cons head rest ih =>
    simp only [insertById] at h
    split_ifs at h <;> grind

theorem rising_insertById (r : ExecutionRecord) {rs : List ExecutionRecord}
    (rising : rs.Pairwise fun a b => a.id < b.id) :
    (insertById r rs).Pairwise fun a b => a.id < b.id := by
  induction rs with
  | nil => simp [insertById]
  | cons head rest ih =>
    obtain ⟨below, rising⟩ := List.pairwise_cons.mp rising
    simp only [insertById]
    split_ifs with less same
    · refine List.pairwise_cons.mpr ⟨?_, List.pairwise_cons.mpr ⟨below, rising⟩⟩
      intro s hs
      rcases List.mem_cons.mp hs with rfl | hs
      · exact less
      · exact Nat.lt_trans less (below s hs)
    · exact List.pairwise_cons.mpr ⟨fun s hs => same ▸ below s hs, rising⟩
    · refine List.pairwise_cons.mpr ⟨?_, ih rising⟩
      intro s hs
      rcases mem_insertById hs with rfl | hs
      · grind
      · exact below s hs

theorem mem_insertById_iff {r s : ExecutionRecord} {rs : List ExecutionRecord}
    (rising : rs.Pairwise fun a b => a.id < b.id) :
    s ∈ insertById r rs ↔ s = r ∨ s ∈ rs ∧ s.id ≠ r.id := by
  have keyed : (insertById r rs).map (fun s => (s.id, s)) =
      insertKeyed r.id r (rs.map fun s => (s.id, s)) := by
    clear rising
    induction rs with
    | nil => rfl
    | cons t rest ih =>
      simp only [insertById, List.map_cons, insertKeyed]
      split_ifs <;> simp [ih]
  have sorted : SortedByKey (rs.map fun s => (s.id, s)) := List.pairwise_map.mpr rising
  have mem (l : List ExecutionRecord) : s ∈ l ↔ (s.id, s) ∈ l.map fun s => (s.id, s) := by simp
  rw [mem, keyed, mem_insertKeyed sorted, ← mem]
  refine or_congr_left ⟨fun same => (Prod.mk.inj same).2, ?_⟩
  rintro rfl
  rfl

theorem Ordered.nodup_ids (ordered : m.Ordered) : (m.records.map (·.id)).Nodup := by
  rw [List.Nodup, List.pairwise_map]
  exact ordered.rising.imp Nat.ne_of_lt

theorem find?_eq_some (ordered : m.Ordered) : m.find? id = some r ↔ r ∈ m.records ∧ r.id = id :=
  find?_eq_some_of_nodup ordered.nodup_ids

theorem Ordered.find?_given (ordered : m.Ordered) (h : m.find? id = some r) : id ≤ m.lastId := by
  obtain ⟨mem, rfl⟩ := (find?_eq_some ordered).mp h
  exact ordered.given r mem

theorem Ordered.find?_fresh (ordered : m.Ordered) (fresh : m.lastId < id) : m.find? id = none := by
  cases h : m.find? id with
  | none => rfl
  | some r => exact absurd (ordered.find?_given h) (Nat.not_le.mpr fresh)

theorem find?_insert (m : MemoryStore) (r : ExecutionRecord) (id : ExecutionId) :
    (m.insert r).find? id = if id = r.id then some r else m.find? id := by
  unfold insert find?
  dsimp only
  induction m.records with
  | nil => simp [insertById, eq_comm]
  | cons head rest ih =>
    simp only [insertById]
    split_ifs <;> grind

theorem update_eq_ok :
    m.update r = .ok m' ↔
      ∃ stored, m.find? r.id = some stored ∧ stored.status.isTerminal = false ∧ m' = m.insert r := by
  unfold update
  cases m.find? r.id with
  | none => simp
  | some stored =>
    cases h : stored.status.isTerminal <;>
      simp [ExecutionRecord.checkReplacement, h, Except.map, @eq_comm _ m']

theorem find?_create (m : MemoryStore) (new : NewExecution) (now : Instant) (id : ExecutionId) :
    (m.create new now).2.find? id =
      if id = m.lastId + 1 then some (m.create new now).1 else m.find? id :=
  find?_insert m _ id

inductive Made : MemoryStore → Prop where
  | empty : Made .empty
  | create {m : MemoryStore} (new : NewExecution) (now : Instant) : Made m → Made (m.create new now).2
  | update {m m' : MemoryStore} (r : ExecutionRecord) : Made m → m.update r = .ok m' → Made m'
  | prune {m : MemoryStore} (cutoff : Instant) : Made m → Made (m.prune cutoff).2

theorem Ordered.insert (ordered : m.Ordered) (known : r.id ≤ m.lastId) : (m.insert r).Ordered where
  rising := rising_insertById r ordered.rising
  given := by
    intro s hs
    rcases mem_insertById hs with rfl | hs
    · exact known
    · exact ordered.given s hs

theorem Ordered.create (ordered : m.Ordered) (new : NewExecution) (now : Instant) :
    (m.create new now).2.Ordered where
  rising := rising_insertById _ ordered.rising
  given := by
    intro s hs
    rcases mem_insertById hs with rfl | hs
    · exact Nat.le_refl _
    · exact Nat.le_succ_of_le (ordered.given s hs)

theorem Ordered.update (ordered : m.Ordered) (h : m.update r = .ok m') : m'.Ordered := by
  obtain ⟨stored, found, -, rfl⟩ := update_eq_ok.mp h
  exact ordered.insert (ordered.find?_given found)

theorem Ordered.prune (ordered : m.Ordered) (cutoff : Instant) : (m.prune cutoff).2.Ordered where
  rising := ordered.rising.filter _
  given := fun r hr => ordered.given r (List.mem_filter.mp hr).1

theorem find?_prune (ordered : m.Ordered) (cutoff : Instant) (id : ExecutionId) :
    (m.prune cutoff).2.find? id = (m.find? id).filter fun r => !r.finishedBefore cutoff :=
  find?_filter_of_nodup ordered.nodup_ids _ id

theorem Made.ordered (made : m.Made) : m.Ordered := by
  induction made with
  | empty => exact ⟨List.Pairwise.nil, by simp [MemoryStore.empty]⟩
  | create new now _ ih => exact ih.create new now
  | update r _ h ih => exact ih.update h
  | prune cutoff _ ih => exact ih.prune cutoff

end FleetOps.MemoryStore
