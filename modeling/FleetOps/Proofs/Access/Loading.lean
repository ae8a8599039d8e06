import FleetOps.Access.Model
import FleetOps.Proofs.Lists

set_option autoImplicit false

namespace FleetOps.Access

variable {r : Resource} {a : Action} {k : ScopeKind} {scope : GrantScope}

theorem catalog_nodup : (catalog.map fun e => (e.1, e.2.1)).Nodup := by
  decide +kernel

theorem scopeOf_eq_some : scopeOf r a = some k ↔ (r, a, k) ∈ catalog := by
  have scope : scopeOf r a = (catalog.find? fun e => (e.1, e.2.1) = (r, a)).map (·.2.2) := by
    simp [scopeOf]
  simp only [scope, Option.map_eq_some_iff, find?_eq_some_of_nodup catalog_nodup]
  constructor
  · rintro ⟨e, ⟨mem, same⟩, rfl⟩
    cases same
    exact mem
  · intro mem
    exact ⟨_, ⟨mem, rfl⟩, rfl⟩

theorem mem_actionsOf : a ∈ actionsOf r ↔ ∃ k, scopeOf r a = some k := by
  simp only [actionsOf, scopeOf_eq_some, List.mem_map, List.mem_filter, decide_eq_true_eq]
  constructor
  · rintro ⟨⟨_, _, k⟩, ⟨mem, rfl⟩, rfl⟩
    exact ⟨k, mem⟩
  · rintro ⟨k, mem⟩
    exact ⟨(r, a, k), ⟨mem, rfl⟩, rfl⟩

def Grant.Admissible (g : Grant) : Prop :=
  ∃ k, scopeOf g.resource g.action = some k ∧ (k = .global → g.scope = .global)

def entries (g : GrantSettings) : List Grant :=
  match Model.grantsOf g with
  | .ok gs => gs
  | .error _ => []

def EntryAdmissible (g : GrantSettings) : Prop :=
  (∃ gs, Model.grantsOf g = .ok gs) ∧ ∀ x ∈ entries g, x.Admissible

namespace Model

variable {m m' : Model} {name : String} {g : GrantSettings}

theorem checkGrant_eq_ok {x : Grant} : checkGrant name x = .ok () ↔ x.Admissible := by
  unfold checkGrant Grant.Admissible
  cases scopeOf x.resource x.action with
  | none => simp
  | some k =>
    cases k with
    | global => by_cases unbound : x.scope = .global <;> simp [unbound]
    | environment | environmentOptional => simp

theorem mem_wildcard {r' : Resource} {bound : GrantScope} :
    ⟨r, a, scope⟩ ∈ wildcard r' bound ↔
      r' = r ∧ bound = scope ∧ Grant.Admissible ⟨r, a, scope⟩ := by
  simp only [wildcard, List.mem_map, List.mem_filter, mem_actionsOf, Grant.mk.injEq,
    Grant.Admissible, Bool.or_eq_true, decide_eq_true_eq, bne_iff_ne, ne_eq]
  constructor
  · rintro ⟨a', ⟨⟨k, kind⟩, unbound⟩, rfl, rfl, rfl⟩
    refine ⟨rfl, rfl, k, kind, ?_⟩
    rintro rfl
    exact unbound.resolve_right (not_not_intro kind)
  · rintro ⟨rfl, rfl, k, kind, unbound⟩
    refine ⟨a, ⟨⟨k, kind⟩, ?_⟩, rfl, rfl, rfl⟩
    by_cases global : k = .global
    · exact .inl (unbound global)
    · exact .inr (by simp [kind, global])

theorem grantsOf_eq_ok {gs : List Grant} :
    grantsOf g = .ok gs ↔ ∃ r, Resource.parse? g.resource = some r ∧
      ((g.action = "*" ∧ gs = wildcard r (.ofEnvironment g.environment)) ∨
        g.action ≠ "*" ∧ ∃ a, Action.parse? g.action = some a ∧
          gs = [⟨r, a, .ofEnvironment g.environment⟩]) := by
  unfold grantsOf Resource.parse Action.parse
  cases Resource.parse? g.resource with
  | none => simp [bind, Except.bind]
  | some r =>
    by_cases every : g.action = "*"
    · simp [bind, Except.bind, pure, Except.pure, every, eq_comm]
    · cases Action.parse? g.action <;> simp [bind, Except.bind, pure, Except.pure, every, eq_comm]

theorem mem_entries (admissible : EntryAdmissible g) (kind : scopeOf r a = some k) :
    ⟨r, a, scope⟩ ∈ entries g ↔ Resource.parse? g.resource = some r ∧
      (g.action = "*" ∨ Action.parse? g.action = some a) ∧
        GrantScope.ofEnvironment g.environment = scope ∧ (k = .global → scope = .global) := by
  obtain ⟨⟨gs, reads⟩, fine⟩ := admissible
  have read : entries g = gs := by simp [entries, reads]
  have admits : Grant.Admissible ⟨r, a, scope⟩ ↔ (k = .global → scope = .global) := by
    simp [Grant.Admissible, kind]
  rw [read] at fine ⊢
  obtain ⟨r', resource, ⟨every, rfl⟩ | ⟨one, a', action, rfl⟩⟩ := grantsOf_eq_ok.mp reads
  · simp [mem_wildcard, resource, every, admits]
  · have fine := fine _ (List.mem_singleton_self _)
    simp only [List.mem_singleton, Grant.mk.injEq, resource, one, action, Option.some.injEq, false_or]
    constructor
    · rintro ⟨rfl, rfl, rfl⟩
      exact ⟨rfl, rfl, rfl, admits.mp fine⟩
    · rintro ⟨rfl, rfl, rfl, -⟩
      exact ⟨rfl, rfl, rfl⟩

theorem grants?_setRole (name : String) (grants : List Grant) (roles : List (String × List Grant))
    (role : String) :
    grants? ⟨setRole name grants roles⟩ role = if role = name then some grants else grants? ⟨roles⟩ role := by
  unfold grants?
  dsimp only
  induction roles with
  | nil => simp [setRole, eq_comm]
  | cons head rest ih =>
    obtain ⟨n, gs⟩ := head
    simp only [setRole]
    by_cases here : n = name <;> by_cases there : n = role <;> simp_all [eq_comm]

theorem mapM_grantsOf {gs : List GrantSettings} {read : List (List Grant)} :
    gs.mapM grantsOf = .ok read ↔ (∀ g ∈ gs, ∃ own, grantsOf g = .ok own) ∧ read = gs.map entries := by
  rw [mapM_eq_ok]
  refine and_congr_right fun all => ?_
  have same : gs.filterMap (fun g => (grantsOf g).toOption) = gs.map entries := by
    rw [← List.filterMap_eq_map]
    refine List.filterMap_congr fun g mem => ?_
    obtain ⟨own, reads⟩ := all g mem
    simp [entries, reads, Except.toOption]
  rw [same]

theorem forM_checkGrant {gs : List Grant} :
    gs.forM (checkGrant name) = .ok () ↔ ∀ x ∈ gs, x.Admissible := by
  induction gs with
  | nil => simp [pure, Except.pure]
  | cons x rest ih =>
    change (checkGrant name x >>= fun _ => rest.forM (checkGrant name)) = .ok () ↔ _
    rw [List.forall_mem_cons, ← ih, ← @checkGrant_eq_ok name x, bind_eq_ok]
    exact ⟨fun ⟨_, here, others⟩ => ⟨here, others⟩, fun ⟨here, others⟩ => ⟨_, here, others⟩⟩

def declare (m : Model) (p : String × RoleSettings) : Model :=
  ⟨setRole p.1 (p.2.grants.flatMap entries).eraseDups m.roles⟩

theorem roleOfSettings_eq_ok {rs : RoleSettings} :
    m.roleOfSettings name rs = .ok m' ↔
      (∀ g ∈ rs.grants, EntryAdmissible g) ∧ m' = m.declare (name, rs) := by
  have each : (∀ g ∈ rs.grants, EntryAdmissible g) ↔
      (∀ g ∈ rs.grants, ∃ own, grantsOf g = .ok own) ∧
        ∀ x ∈ (rs.grants.map entries).flatten, x.Admissible := by
    simp only [EntryAdmissible, List.mem_flatten, List.mem_map]
    grind
  unfold roleOfSettings role
  rw [each]
  simp only [bind_eq_ok, mapM_grantsOf]
  constructor
  · rintro ⟨_, ⟨all, rfl⟩, _, fine, built⟩
    exact ⟨⟨all, forM_checkGrant.mp fine⟩, (Except.ok.inj built).symm⟩
  · rintro ⟨⟨all, fine⟩, rfl⟩
    exact ⟨_, ⟨all, rfl⟩, (), forM_checkGrant.mpr fine, rfl⟩

theorem ofSettings_eq_ok {auth : AuthSettings} :
    ofSettings auth = .ok m ↔ (∀ p ∈ auth.roles, ∀ g ∈ p.2.grants, EntryAdmissible g) ∧
      m = auth.roles.foldl declare empty.withPresets := by
  unfold ofSettings
  generalize empty.withPresets = start
  induction auth.roles generalizing start with
  | nil => simp [pure, Except.pure, eq_comm]
  | cons p rest ih =>
    rw [List.foldlM_cons, List.forall_mem_cons, List.foldl_cons]
    simp only [bind_eq_ok, roleOfSettings_eq_ok, ih]
    constructor
    · rintro ⟨_, ⟨all, rfl⟩, others, rfl⟩
      exact ⟨⟨all, others⟩, rfl⟩
    · rintro ⟨⟨all, others⟩, rfl⟩
      exact ⟨_, ⟨all, rfl⟩, others, rfl⟩

theorem grants?_undeclared {roles : List (String × RoleSettings)} {role : String}
    (other : role ∉ roles.map (·.1)) : (roles.foldl declare m).grants? role = m.grants? role := by
  induction roles generalizing m with
  | nil => rfl
  | cons p rest ih =>
    rw [List.map_cons, List.mem_cons, not_or] at other
    rw [List.foldl_cons, ih other.2, declare, grants?_setRole, if_neg other.1]

theorem grants?_declared {roles : List (String × RoleSettings)} {p : String × RoleSettings}
    (once : (roles.map (·.1)).Nodup) (mem : p ∈ roles) :
    (roles.foldl declare m).grants? p.1 = some (p.2.grants.flatMap entries).eraseDups := by
  induction roles generalizing m with
  | nil => simp at mem
  | cons head rest ih =>
    obtain ⟨other, once⟩ := List.nodup_cons.mp once
    rw [List.foldl_cons]
    rcases List.mem_cons.mp mem with rfl | mem
    · rw [grants?_undeclared other, declare, grants?_setRole, if_pos rfl]
    · exact ih once mem

theorem mem_roleNames {role : String} : role ∈ m.roleNames ↔ ∃ gs, m.grants? role = some gs := by
  rw [← Option.isSome_iff_exists, grants?, Option.isSome_map, List.find?_isSome]
  simp [roleNames]

theorem mem_roleNames_declared {roles : List (String × RoleSettings)} {role : String} :
    role ∈ (roles.foldl declare m).roleNames ↔ role ∈ roles.map (·.1) ∨ role ∈ m.roleNames := by
  induction roles generalizing m with
  | nil => simp
  | cons p rest ih =>
    have first : role ∈ (m.declare p).roleNames ↔ role = p.1 ∨ role ∈ m.roleNames := by
      by_cases here : role = p.1 <;> simp [mem_roleNames, declare, grants?_setRole, here]
    rw [List.foldl_cons, ih, first, List.map_cons, List.mem_cons, or_left_comm, or_assoc]

end Model

end FleetOps.Access
