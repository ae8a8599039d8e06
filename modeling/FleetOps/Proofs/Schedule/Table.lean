import FleetOps.Proofs.Lists
import FleetOps.Schedule.Descriptor
import Mathlib.Data.Prod.Lex
import Mathlib.Data.String.Basic
import Mathlib.Data.Sum.Order

set_option autoImplicit false

namespace FleetOps

namespace ScheduleKey

abbrev Place := ℕ ×ₗ (ℕ ⊕ₗ String)

def placeOfId : ScheduleId → ℕ ⊕ₗ String
  | .numeric n => Sum.inlₗ n
  | .named name => Sum.inrₗ name

def place (k : ScheduleKey) : Place :=
  toLex (k.kind.rank, placeOfId k.id)

theorem placeOfId_inj {a b : ScheduleId} : placeOfId a = placeOfId b ↔ a = b := by
  cases a <;> cases b <;> simp [placeOfId]

theorem rank_inj {a b : ScheduleKind} : a.rank = b.rank ↔ a = b := by
  cases a <;> cases b <;> simp [ScheduleKind.rank]

theorem place_inj {a b : ScheduleKey} : a.place = b.place ↔ a = b := by
  obtain ⟨kind, id⟩ := a
  obtain ⟨kind', id'⟩ := b
  simp [place, placeOfId_inj, rank_inj]

theorem before_id_iff (a b : ScheduleId) : a.before b = true ↔ placeOfId a < placeOfId b := by
  cases a <;> cases b <;> simp [ScheduleId.before, placeOfId]

theorem before_iff (a b : ScheduleKey) : a.before b = true ↔ a.place < b.place := by
  rw [place, place, Prod.Lex.toLex_lt_toLex]
  simp only [before, Bool.or_eq_true, Bool.and_eq_true, decide_eq_true_eq, before_id_iff, rank_inj]

end ScheduleKey

namespace DescriptorTable

variable {t : DescriptorTable} {d e : Descriptor} {k l : ScheduleKey} {ds : List Descriptor}

def placed (ds : List Descriptor) : List (ScheduleKey.Place × Descriptor) :=
  ds.map fun d => (d.key.place, d)

def Sorted (t : DescriptorTable) : Prop :=
  SortedByKey (placed t.entries)

theorem Sorted.nodup_keys (sorted : t.Sorted) : (t.entries.map (·.key)).Nodup := by
  have places : ((t.entries.map (·.key)).map ScheduleKey.place).Nodup := by
    simpa [placed, Function.comp_def] using SortedByKey.nodup_keys sorted
  exact .of_map _ places

theorem get?_eq_some (sorted : t.Sorted) : t.get? k = some d ↔ d ∈ t.entries ∧ d.key = k :=
  find?_eq_some_of_nodup sorted.nodup_keys

theorem placed_insertSorted (d : Descriptor) (ds : List Descriptor) :
    placed (insertSorted d ds) = insertKeyed d.key.place d (placed ds) := by
  induction ds with
  | nil => rfl
  | cons e rest ih =>
    have step : insertKeyed d.key.place d (placed (e :: rest)) =
        if d.key.place < e.key.place then (d.key.place, d) :: placed (e :: rest)
        else if d.key.place = e.key.place then (d.key.place, d) :: placed rest
        else (e.key.place, e) :: insertKeyed d.key.place d (placed rest) := rfl
    rw [step, ← ih]
    simp only [insertSorted]
    split_ifs with same before before' less less' <;>
      simp_all [placed, ScheduleKey.before_iff, ScheduleKey.place_inj]

theorem Sorted.upsert (sorted : t.Sorted) (d : Descriptor) : (t.upsert d).Sorted := by
  rw [Sorted, DescriptorTable.upsert, placed_insertSorted]
  exact sorted_insertKeyed sorted

theorem mem_upsert (sorted : t.Sorted) :
    e ∈ (t.upsert d).entries ↔ e = d ∨ e ∈ t.entries ∧ e.key ≠ d.key := by
  have mem (ds : List Descriptor) : e ∈ ds ↔ (e.key.place, e) ∈ placed ds := by simp [placed]
  rw [mem, DescriptorTable.upsert, placed_insertSorted, mem_insertKeyed sorted, ← mem, ne_eq,
    ScheduleKey.place_inj]
  refine or_congr_left ⟨fun same => (Prod.mk.inj same).2, ?_⟩
  rintro rfl
  rfl

theorem get?_upsert (sorted : t.Sorted) (d : Descriptor) (k : ScheduleKey) :
    (t.upsert d).get? k = if k = d.key then some d else t.get? k := by
  ext e
  rw [get?_eq_some (sorted.upsert d), mem_upsert sorted]
  split_ifs with same
  · subst same
    simp only [Option.some.injEq]
    constructor
    · rintro ⟨rfl | ⟨-, other⟩, key⟩
      · rfl
      · exact absurd key other
    · rintro rfl
      exact ⟨.inl rfl, rfl⟩
  · rw [get?_eq_some sorted]
    constructor
    · rintro ⟨rfl | ⟨mem, -⟩, key⟩
      · exact absurd key.symm same
      · exact ⟨mem, key⟩
    · rintro ⟨mem, rfl⟩
      exact ⟨.inr ⟨mem, same⟩, rfl⟩

theorem sorted_empty : empty.Sorted :=
  .nil

theorem Sorted.upserts (sorted : t.Sorted) (ds : List Descriptor) :
    (ds.foldl DescriptorTable.upsert t).Sorted := by
  induction ds generalizing t with
  | nil => exact sorted
  | cons d rest ih => exact ih (sorted.upsert d)

theorem get?_upserts (sorted : t.Sorted) (ds : List Descriptor) (k : ScheduleKey) :
    (ds.foldl upsert t).get? k = (ds.reverse.find? (·.key = k)).or (t.get? k) := by
  induction ds generalizing t with
  | nil => simp
  | cons d rest ih =>
    rw [List.foldl_cons, ih (sorted.upsert d), get?_upsert sorted, List.reverse_cons, List.find?_append]
    by_cases same : k = d.key
    · cases rest.reverse.find? (·.key = k) <;> simp [same]
    · simp [same, Ne.symm same]

theorem sorted_systemJobs : systemJobs.Sorted :=
  sorted_empty.upserts _

theorem get?_systemJobs : systemJobs.get? k = some d ↔ ∃ j : SystemJob, j.key = k ∧ d = .ofSystemJob j := by
  have distinct : (SystemJob.all.map (Descriptor.ofSystemJob · |>.key)).Nodup := by decide
  rw [systemJobs, ofList, get?_upserts sorted_empty]
  have vacant : empty.get? k = none := rfl
  rw [vacant, Option.or_none, find?_eq_some_of_nodup]
  · simp only [List.mem_reverse, List.mem_map]
    constructor
    · rintro ⟨⟨j, -, rfl⟩, rfl⟩
      exact ⟨j, rfl, rfl⟩
    · rintro ⟨j, rfl, rfl⟩
      exact ⟨⟨j, by cases j <;> decide, rfl⟩, rfl⟩
  · rw [List.map_reverse, List.nodup_reverse]
    simpa [Function.comp_def] using distinct

theorem get?_setEnabled (t : DescriptorTable) (k : ScheduleKey) (enabled : Bool) (l : ScheduleKey) :
    (t.setEnabled k enabled).get? l =
      (t.get? l).map fun d => if l = k then { d with enabled } else d := by
  let flag (d : Descriptor) : Descriptor := if d.key = k then { d with enabled } else d
  have key (d : Descriptor) : (flag d).key = d.key := by
    simp only [flag]
    split <;> rfl
  have found : (t.setEnabled k enabled).get? l = (t.get? l).map flag := by
    simp only [get?, setEnabled, List.find?_map]
    congr 2
    funext d
    exact decide_eq_decide.mpr (by rw [← key d])
  rw [found]
  refine Option.map_congr fun d here => ?_
  have named : d.key = l := by simpa using List.find?_some here
  simp [flag, named]

end DescriptorTable

end FleetOps
