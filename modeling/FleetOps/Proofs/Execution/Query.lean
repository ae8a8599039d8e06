import FleetOps.Execution.Query
import FleetOps.Proofs.Instant
import Mathlib.Data.List.Nodup

set_option autoImplicit false

namespace FleetOps.ExecutionQuery

variable {a b c : ExecutionRecord} {as bs : List ExecutionRecord}

theorem newerFirst_iff :
    newerFirst a b = true ↔
      b.createdAt.before a.createdAt = true ∨ a.createdAt = b.createdAt ∧ b.id ≤ a.id := by
  simp [newerFirst]

theorem newerFirst_trans (ab : newerFirst a b = true) (bc : newerFirst b c = true) : newerFirst a c = true := by
  simp only [newerFirst_iff, Instant.before_iff, Instant.eq_iff, ExecutionId] at ab bc ⊢
  omega

theorem newerFirst_total (a b : ExecutionRecord) : (newerFirst a b || newerFirst b a) = true := by
  simp only [Bool.or_eq_true, newerFirst_iff, Instant.before_iff, Instant.eq_iff, ExecutionId]
  omega

theorem id_eq_of_newerFirst (ab : newerFirst a b = true) (ba : newerFirst b a = true) : a.id = b.id := by
  simp only [newerFirst_iff, Instant.before_iff, Instant.eq_iff, ExecutionId] at ab ba ⊢
  omega

theorem newerFirst_ordered (q : ExecutionQuery) (rs : List ExecutionRecord) :
    (q.ordered rs).Pairwise fun a b => newerFirst a b = true :=
  @List.pairwise_mergeSort _ newerFirst (fun _ _ _ => newerFirst_trans) newerFirst_total _

theorem ordered_drawn (q : ExecutionQuery) (rs : List ExecutionRecord) :
    (q.ordered rs).Perm (rs.filter q.selects) :=
  List.mergeSort_perm _ _

theorem ordered_perm (q : ExecutionQuery) (same : as.Perm bs) (once : (as.map (·.id)).Nodup) :
    q.ordered as = q.ordered bs := by
  have rearranged : (q.ordered as).Perm (q.ordered bs) :=
    (q.ordered_drawn as).trans ((same.filter _).trans (q.ordered_drawn bs).symm)
  have mem_left : ∀ r ∈ q.ordered as, r ∈ as := fun r mem =>
    (List.mem_filter.mp ((q.ordered_drawn as).mem_iff.mp mem)).1
  have mem_right : ∀ r ∈ q.ordered bs, r ∈ as := fun r mem =>
    same.mem_iff.mpr (List.mem_filter.mp ((q.ordered_drawn bs).mem_iff.mp mem)).1
  refine List.Perm.eq_of_pairwise ?_ (q.newerFirst_ordered as) (q.newerFirst_ordered bs) rearranged
  intro a b ha hb ab ba
  exact List.inj_on_of_nodup_map once (mem_left a ha) (mem_right b hb) (id_eq_of_newerFirst ab ba)

theorem apply_perm (q : ExecutionQuery) (same : as.Perm bs) (once : (as.map (·.id)).Nodup) :
    q.apply as = q.apply bs := by
  simp only [apply, q.ordered_perm same once]

structure Matches (q : ExecutionQuery) (r : ExecutionRecord) : Prop where
  kind : ∀ k ∈ q.kind, r.kind = k
  scheduleId : ∀ i ∈ q.scheduleId, r.scheduleId = i
  unscoped : q.environment = .unscoped → r.environment = none
  environment : ∀ e, q.environment = .is e → r.environment = some e
  statuses : q.statuses ≠ [] → r.status ∈ q.statuses
  trigger : ∀ t ∈ q.trigger, r.trigger = t
  start : ∀ t ∈ q.start, t = r.createdAt ∨ t.before r.createdAt = true
  stop : ∀ t ∈ q.stop, r.createdAt = t ∨ r.createdAt.before t = true

theorem admits_iff {α : Type} {filter : Option α} {test : α → Bool} :
    admits filter test = true ↔ ∀ a ∈ filter, test a = true := by
  cases filter <;> simp [admits]

theorem environment_admits_iff {f : EnvironmentFilter} {e : Option EnvironmentId} :
    f.admits e = true ↔ (f = .unscoped → e = none) ∧ ∀ id, f = .is id → e = some id := by
  cases f <;> simp [EnvironmentFilter.admits]

theorem statuses_iff {statuses : List ExecutionStatus} {s : ExecutionStatus} :
    (statuses.isEmpty || statuses.contains s) = true ↔ (statuses ≠ [] → s ∈ statuses) := by
  cases statuses <;> simp

theorem selects_iff {q : ExecutionQuery} {r : ExecutionRecord} : q.selects r = true ↔ q.Matches r := by
  simp only [selects, Bool.and_eq_true, admits_iff, environment_admits_iff, statuses_iff, Instant.atMost_iff,
    decide_eq_true_eq]
  constructor
  · rintro ⟨⟨⟨⟨⟨⟨kind, scheduleId⟩, unscoped, environment⟩, statuses⟩, trigger⟩, start⟩, stop⟩
    exact ⟨kind, scheduleId, unscoped, environment, statuses, trigger, start, stop⟩
  · rintro ⟨kind, scheduleId, unscoped, environment, statuses, trigger, start, stop⟩
    exact ⟨⟨⟨⟨⟨⟨kind, scheduleId⟩, unscoped, environment⟩, statuses⟩, trigger⟩, start⟩, stop⟩

instance (q : ExecutionQuery) : DecidablePred q.Matches :=
  fun r => decidable_of_iff (q.selects r = true) selects_iff

theorem filter_matches (q : ExecutionQuery) (rs : List ExecutionRecord) :
    rs.filter (q.Matches ·) = rs.filter q.selects :=
  List.filter_congr fun r _ => by rw [Bool.eq_iff_iff, decide_eq_true_eq, selects_iff]

def Precedes (a b : ExecutionRecord) : Prop :=
  b.createdAt.before a.createdAt = true ∨ a.createdAt = b.createdAt ∧ b.id < a.id

theorem Precedes.asymm (ab : Precedes a b) : ¬ Precedes b a := by
  simp only [Precedes, Instant.before_iff, Instant.eq_iff, ExecutionId] at ab ⊢
  omega

theorem precedes_of_newerFirst (ab : newerFirst a b = true) (other : a.id ≠ b.id) : Precedes a b := by
  rw [newerFirst_iff] at ab
  exact ab.imp_right fun ⟨together, le⟩ => ⟨together, Nat.lt_of_le_of_ne le other.symm⟩

/-- The matching records, each as often as it is given, in their strict order. -/
structure IsHistory (q : ExecutionQuery) (rs history : List ExecutionRecord) : Prop where
  drawn : history.Perm (rs.filter (q.Matches ·))
  sorted : history.Pairwise Precedes

variable {q : ExecutionQuery} {rs history other : List ExecutionRecord}

theorem isHistory_ordered (once : (rs.map (·.id)).Nodup) : q.IsHistory rs (q.ordered rs) := by
  have drawn := q.ordered_drawn rs
  have distinct : (q.ordered rs).Pairwise fun a b => a.id ≠ b.id := by
    have once : ((q.ordered rs).map (·.id)).Nodup :=
      (drawn.map _).nodup_iff.mpr (once.sublist (List.filter_sublist.map _))
    exact List.pairwise_map.mp once
  refine ⟨by rwa [filter_matches], ?_⟩
  exact (q.newerFirst_ordered rs).imp₂ (fun a b => precedes_of_newerFirst) distinct

namespace IsHistory

theorem unique (one : q.IsHistory rs history) (also : q.IsHistory rs other) : other = history := by
  refine List.Perm.eq_of_pairwise ?_ also.sorted one.sorted (also.drawn.trans one.drawn.symm)
  intro a b _ _ ab ba
  exact absurd ba ab.asymm

theorem length_eq (h : q.IsHistory rs history) : history.length = rs.countP (q.Matches ·) := by
  rw [h.drawn.length_eq, List.countP_eq_length_filter]

theorem place (h : q.IsHistory rs history) (mem : a ∈ rs) (matching : q.Matches a) :
    ∃! i : Nat, history[i]? = some a := by
  have found : a ∈ history := h.drawn.mem_iff.mpr (List.mem_filter.mpr ⟨mem, decide_eq_true matching⟩)
  have distinct : history.Nodup := h.sorted.imp fun ab same => (same ▸ ab).asymm (same ▸ ab)
  obtain ⟨i, there⟩ := List.mem_iff_getElem?.mp found
  refine ⟨i, there, fun j here => ?_⟩
  obtain ⟨inside, -⟩ := List.getElem?_eq_some_iff.mp here
  exact (List.getElem?_inj inside distinct).mp (here.trans there.symm)

end IsHistory

def page (q : ExecutionQuery) (size number : Nat) : ExecutionQuery :=
  { q with limit := some size, offset := some (number * size) }

theorem flatMap_pages (q : ExecutionQuery) (rs : List ExecutionRecord) (size pages : Nat) :
    (List.range pages).flatMap (fun i => ((q.page size i).apply rs).records) =
      (q.ordered rs).take (pages * size) := by
  induction pages with
  | zero => simp
  | succ pages ih =>
    have next : ((q.page size pages).apply rs).records = ((q.ordered rs).drop (pages * size)).take size := rfl
    rw [List.range_succ, List.flatMap_append, ih, Nat.succ_mul, List.take_add]
    simp only [List.flatMap_cons, List.flatMap_nil, List.append_nil, next]

/-- One list holds the matching records in their order. A page is a part of it and tells its length, however
the records are listed, and as many pages as it takes make it up. -/
theorem apply_pages (q : ExecutionQuery) (rs : List ExecutionRecord) (once : (rs.map (·.id)).Nodup) :
    ∃ history, q.IsHistory rs history ∧ (∀ other, q.IsHistory rs other → other = history) ∧
      (∀ r ∈ rs, q.Matches r → ∃! i : Nat, history[i]? = some r) ∧
      (q.apply rs).total = rs.countP (q.Matches ·) ∧
      (q.apply rs).records = (history.drop (q.offset.getD 0)).take (q.limit.getD 50) ∧
      (∀ rs', rs'.Perm rs → q.apply rs' = q.apply rs) ∧
      ∀ size pages, (q.apply rs).total ≤ pages * size →
        (List.range pages).flatMap (fun i => ((q.page size i).apply rs).records) = history := by
  have isHistory : q.IsHistory rs (q.ordered rs) := isHistory_ordered once
  refine ⟨q.ordered rs, isHistory, fun other => isHistory.unique, fun r => isHistory.place, ?_, rfl, ?_, ?_⟩
  · exact isHistory.length_eq
  · exact fun rs' same => (q.apply_perm same.symm once).symm
  · intro size pages enough
    rw [flatMap_pages]
    exact List.take_of_length_le enough

def nightRun (id : ExecutionId) (trigger : TriggerSource) : ExecutionRecord :=
  .queued id ⟨⟨.containerUpdate, .numeric 1⟩, some 3, trigger⟩ ⟨1700000000, 0⟩

def nightRuns : List ExecutionRecord :=
  [nightRun 1 .cron, nightRun 2 .manual, nightRun 3 .cron]

def byCron : ExecutionQuery :=
  { environment := .is 3, trigger := some .cron, stop := some ⟨1700000000, 0⟩ }

theorem nightRuns_pages : (nightRuns.map (·.id)).Nodup ∧ (byCron.apply nightRuns).total = 2 ∧
    (List.range 2).flatMap (fun i => ((byCron.page 1 i).apply nightRuns).records) =
      [nightRun 3 .cron, nightRun 1 .cron] := by
  have once : (nightRuns.map (·.id)).Nodup := by decide
  have drawn : nightRuns.filter (byCron.Matches ·) = [nightRun 1 .cron, nightRun 3 .cron] := rfl
  have newest : byCron.IsHistory nightRuns [nightRun 3 .cron, nightRun 1 .cron] := by
    refine ⟨drawn ▸ .swap _ _ _, ?_⟩
    simp [Precedes, nightRun, ExecutionRecord.queued]
  have matching : nightRuns.countP (byCron.Matches ·) = 2 := by decide
  obtain ⟨history, -, unique, -, total, -, -, pages⟩ := byCron.apply_pages nightRuns once
  obtain rfl := unique _ newest
  rw [matching] at total
  exact ⟨once, total, pages 1 2 (by omega)⟩

end FleetOps.ExecutionQuery
