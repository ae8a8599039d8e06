import FleetOps.Proofs.Access.Loading
import Mathlib.Tactic.Tauto

set_option autoImplicit false

namespace FleetOps.Access

def EntryGrants (g : GrantSettings) (r : Resource) (a : Action) (k : ScopeKind)
    (e : Option EnvironmentId) : Prop :=
  Resource.parse? g.resource = some r ∧ (g.action = "*" ∨ Action.parse? g.action = some a) ∧
    (g.environment = none ∨ k ≠ .global ∧ g.environment = e)

def PresetGrants (role : String) (r : Resource) (a : Action) : Prop :=
  role = "admin" ∨
  role = "operator" ∧
    (r ∈ [.containers, .images, .volumes, .stacks, .configsets, .schedules] ∨
      r = .environments ∧ a = .view) ∨
  role = "viewer" ∧ a = .view

/-- The settings permit the pair to whoever has the roles. -/
def SettingsPermit (auth : AuthSettings) (roles : List String) (r : Resource) (a : Action)
    (e : Option EnvironmentId) : Prop :=
  ∃ k, (r, a, k) ∈ catalog ∧ ¬ (k = .environment ∧ e = none) ∧
    ∃ role ∈ roles,
      (∃ rs, (role, rs) ∈ auth.roles ∧ ∃ g ∈ rs.grants, EntryGrants g r a k e) ∨
        role ∉ auth.roles.map (·.1) ∧ PresetGrants role r a

structure Reordered (auth auth' : AuthSettings) : Prop where
  names : (auth.roles.map (·.1)).Perm (auth'.roles.map (·.1))
  entries : ∀ p ∈ auth.roles, ∃ q ∈ auth'.roles, q.1 = p.1 ∧ p.2.grants.Perm q.2.grants

def Model.Holds (m : Model) (role : String) (g : Grant) : Prop :=
  ∃ gs, m.grants? role = some gs ∧ g ∈ gs

variable {m : Model} {auth auth' : AuthSettings} {role : String} {roles : List String} {r : Resource}
  {a : Action} {k : ScopeKind} {e : Option EnvironmentId} {scope : GrantScope}

theorem any_holdsGrant :
    (m.grants? role).any (Model.holdsGrant · r a e) = true ↔
      m.Holds role ⟨r, a, .global⟩ ∨ ∃ id, e = some id ∧ m.Holds role ⟨r, a, .environment id⟩ := by
  unfold Model.Holds
  cases m.grants? role with
  | none => simp
  | some gs => cases e <;> simp [Model.holdsGrant]

theorem isGranted_eq_true :
    m.isGranted roles r a e = true ↔ ∃ k, (r, a, k) ∈ catalog ∧ ¬ (k = .environment ∧ e = none) ∧
      ∃ role ∈ roles, m.Holds role ⟨r, a, .global⟩ ∨
        k ≠ .global ∧ ∃ id, e = some id ∧ m.Holds role ⟨r, a, .environment id⟩ := by
  have granted : m.isGranted roles r a e =
      ((scopeOf r a).bind (Model.effectiveEnvironment · e)).any fun e =>
        roles.any fun role => (m.grants? role).any (Model.holdsGrant · r a e) := by
    unfold Model.isGranted
    cases (scopeOf r a).bind (Model.effectiveEnvironment · e) with
    | none => rfl
    | some e =>
      refine congrArg roles.any (funext fun role => ?_)
      cases m.grants? role <;> rfl
  rw [granted]
  simp only [← scopeOf_eq_some]
  cases scopeOf r a with
  | none => simp
  | some k =>
    cases k with
    | global => simp [Model.effectiveEnvironment, any_holdsGrant]
    | environment => cases e <;> simp [Model.effectiveEnvironment, any_holdsGrant]
    | environmentOptional => simp [Model.effectiveEnvironment, any_holdsGrant]

theorem isGranted_undefined (unknown : role ∉ m.roleNames) (roles : List String) (r : Resource) (a : Action)
    (e : Option EnvironmentId) :
    m.isGranted roles r a e = m.isGranted (roles.filter (· ≠ role)) r a e := by
  have other {role' : String} {g : Grant} (held : m.Holds role' g) : role' ≠ role := by
    obtain ⟨gs, found, -⟩ := held
    rintro rfl
    exact unknown (Model.mem_roleNames.mpr ⟨gs, found⟩)
  rw [Bool.eq_iff_iff, isGranted_eq_true, isGranted_eq_true]
  refine exists_congr fun k => and_congr_right fun _ => and_congr_right fun _ => exists_congr fun role' => ?_
  refine and_congr_left fun holds => ?_
  have kept : role' ≠ role := by
    obtain held | ⟨-, id, -, held⟩ := holds
    · exact other held
    · exact other held
  simp [List.mem_filter, kept]

theorem mem_globalGrants {covered : Resource → Action → Bool} (kind : (r, a, k) ∈ catalog) :
    ⟨r, a, scope⟩ ∈ Model.globalGrants covered ↔ covered r a = true ∧ scope = .global := by
  simp only [Model.globalGrants, List.mem_map, List.mem_filter, Grant.mk.injEq]
  constructor
  · rintro ⟨_, ⟨-, covers⟩, rfl, rfl, rfl⟩
    exact ⟨covers, rfl⟩
  · rintro ⟨covers, rfl⟩
    exact ⟨_, ⟨kind, covers⟩, rfl, rfl, rfl⟩

theorem presets_hold (kind : (r, a, k) ∈ catalog) :
    Model.empty.withPresets.Holds role ⟨r, a, scope⟩ ↔ PresetGrants role r a ∧ scope = .global := by
  have roles : Model.empty.withPresets.roles = Model.presets := by
    simp [Model.withPresets, Model.presets, Model.setRole, Model.empty]
  unfold Model.Holds Model.grants? PresetGrants
  rw [roles]
  simp only [Model.presets, List.find?_cons, List.find?_nil]
  by_cases admin : role = "admin"
  · simp [admin, mem_globalGrants kind, Model.adminCovers]
  by_cases operator : role = "operator"
  · simp [operator, mem_globalGrants kind, Model.operatorCovers, Model.operatorResources]
  by_cases viewer : role = "viewer"
  · simp [viewer, mem_globalGrants kind, Model.viewerCovers]
  · simp [admin, operator, viewer, eq_comm]

theorem entryGrants_iff {g : GrantSettings} (admissible : EntryAdmissible g) (kind : (r, a, k) ∈ catalog) :
    EntryGrants g r a k e ↔ ⟨r, a, .global⟩ ∈ entries g ∨
      k ≠ .global ∧ ∃ id, e = some id ∧ ⟨r, a, .environment id⟩ ∈ entries g := by
  simp only [Model.mem_entries admissible (scopeOf_eq_some.mpr kind), EntryGrants]
  cases g.environment with
  | none => simp [GrantScope.ofEnvironment]
  | some id =>
    simp only [GrantScope.ofEnvironment, reduceCtorEq, GrantScope.environment.injEq, false_and,
      and_false, false_or, imp_false]
    grind

theorem holds_declared {rs : RoleSettings} {x : Grant} (once : (auth.roles.map (·.1)).Nodup)
    (loaded : Model.ofSettings auth = .ok m) (declared : (role, rs) ∈ auth.roles) :
    m.Holds role x ↔ ∃ g ∈ rs.grants, x ∈ entries g := by
  obtain ⟨-, rfl⟩ := Model.ofSettings_eq_ok.mp loaded
  have grants := Model.grants?_declared (m := Model.empty.withPresets) once declared
  simp [Model.Holds, grants]

theorem holds_undeclared {x : Grant} (loaded : Model.ofSettings auth = .ok m)
    (undeclared : role ∉ auth.roles.map (·.1)) :
    m.Holds role x ↔ Model.empty.withPresets.Holds role x := by
  obtain ⟨-, rfl⟩ := Model.ofSettings_eq_ok.mp loaded
  unfold Model.Holds
  rw [Model.grants?_undeclared undeclared]

theorem isGranted_iff (once : (auth.roles.map (·.1)).Nodup) (loaded : Model.ofSettings auth = .ok m) :
    m.isGranted roles r a e = true ↔ SettingsPermit auth roles r a e := by
  have admissible := (Model.ofSettings_eq_ok.mp loaded).1
  rw [isGranted_eq_true]
  refine exists_congr fun k => and_congr_right fun kind => and_congr_right fun _ =>
    exists_congr fun role => and_congr_right fun _ => ?_
  by_cases declared : role ∈ auth.roles.map (·.1)
  · constructor
    · intro held
      obtain ⟨⟨_, rs⟩, mem, rfl⟩ := List.mem_map.mp declared
      refine .inl ⟨rs, mem, ?_⟩
      rcases held with held | ⟨bound, id, rfl, held⟩
      · obtain ⟨g, listed, read⟩ := (holds_declared once loaded mem).mp held
        exact ⟨g, listed, (entryGrants_iff (admissible _ mem g listed) kind).mpr (.inl read)⟩
      · obtain ⟨g, listed, read⟩ := (holds_declared once loaded mem).mp held
        exact ⟨g, listed,
          (entryGrants_iff (admissible _ mem g listed) kind).mpr (.inr ⟨bound, id, rfl, read⟩)⟩
    · rintro (⟨rs, mem, g, listed, grants⟩ | ⟨undeclared, -⟩)
      · rcases (entryGrants_iff (admissible _ mem g listed) kind).mp grants with
          read | ⟨bound, id, rfl, read⟩
        · exact .inl ((holds_declared once loaded mem).mpr ⟨g, listed, read⟩)
        · exact .inr ⟨bound, id, rfl, (holds_declared once loaded mem).mpr ⟨g, listed, read⟩⟩
      · exact absurd declared undeclared
  · have absent : ¬ ∃ rs, (role, rs) ∈ auth.roles ∧ ∃ g ∈ rs.grants, EntryGrants g r a k e := by
      rintro ⟨rs, mem, -⟩
      exact declared (List.mem_map.mpr ⟨_, mem, rfl⟩)
    simp [holds_undeclared loaded declared, presets_hold kind, absent, declared]

namespace Reordered

theorem once (same : Reordered auth auth') (once : (auth.roles.map (·.1)).Nodup) :
    (auth'.roles.map (·.1)).Nodup :=
  same.names.nodup_iff.mp once

theorem symm (same : Reordered auth auth') (once : (auth.roles.map (·.1)).Nodup) :
    Reordered auth' auth := by
  refine ⟨same.names.symm, fun q mem => ?_⟩
  obtain ⟨p, mem', name⟩ := List.mem_map.mp (same.names.mem_iff.mpr (List.mem_map.mpr ⟨q, mem, rfl⟩))
  obtain ⟨q', mem'', name', grants⟩ := same.entries p mem'
  obtain rfl : q' = q :=
    List.inj_on_of_nodup_map (same.once once) mem'' mem (name'.trans name)
  exact ⟨p, mem', name, grants.symm⟩

theorem permit (same : Reordered auth auth') (permitted : SettingsPermit auth roles r a e) :
    SettingsPermit auth' roles r a e := by
  obtain ⟨k, kind, met, role, listed, permitted⟩ := permitted
  refine ⟨k, kind, met, role, listed, ?_⟩
  rcases permitted with ⟨rs, mem, g, entry, grants⟩ | ⟨undeclared, preset⟩
  · obtain ⟨⟨_, rs'⟩, mem', rfl, perm⟩ := same.entries _ mem
    exact .inl ⟨rs', mem', g, perm.mem_iff.mp entry, grants⟩
  · exact .inr ⟨fun declared => undeclared (same.names.mem_iff.mpr declared), preset⟩

theorem loads (same : Reordered auth auth') (once : (auth.roles.map (·.1)).Nodup)
    (loaded : Model.ofSettings auth = .ok m) : ∃ m', Model.ofSettings auth' = .ok m' := by
  refine ⟨_, Model.ofSettings_eq_ok.mpr ⟨fun q mem g entry => ?_, rfl⟩⟩
  obtain ⟨p, mem', -, perm⟩ := (same.symm once).entries q mem
  exact (Model.ofSettings_eq_ok.mp loaded).1 p mem' g (perm.mem_iff.mp entry)

end Reordered

/-- A model that loads decides as its settings say, in whatever order they come. -/
theorem decision_of_settings (once : (auth.roles.map (·.1)).Nodup)
    (loaded : Model.ofSettings auth = .ok m) :
    (∀ roles r a e, m.isGranted roles r a e = true ↔ SettingsPermit auth roles r a e) ∧
      ∀ auth', Reordered auth auth' → ∃ m', Model.ofSettings auth' = .ok m' ∧
        ∀ roles r a e, m'.isGranted roles r a e = m.isGranted roles r a e := by
  refine ⟨fun roles r a e => isGranted_iff once loaded, fun auth' same => ?_⟩
  obtain ⟨m', loaded'⟩ := same.loads once loaded
  refine ⟨m', loaded', fun roles r a e => ?_⟩
  rw [Bool.eq_iff_iff, isGranted_iff once loaded, isGranted_iff (same.once once) loaded']
  exact ⟨(same.symm once).permit, same.permit⟩

def declaredRoles : AuthSettings where
  roles :=
    [("deployer", ⟨[{ resource := "stacks", action := "deploy" }]⟩),
     ("operator", ⟨[{ resource := "notifications", action := "*", environment := some 3 }]⟩)]

theorem decision_of_declaredRoles :
    (declaredRoles.roles.map (·.1)).Nodup ∧ ∃ m, Model.ofSettings declaredRoles = .ok m ∧
      ∀ roles r a e, m.isGranted roles r a e = true ↔ SettingsPermit declaredRoles roles r a e := by
  have once : (declaredRoles.roles.map (·.1)).Nodup := by decide
  have loaded : Model.ofSettings declaredRoles =
      .ok (declaredRoles.roles.foldl Model.declare Model.empty.withPresets) := by decide
  exact ⟨once, _, loaded, (decision_of_settings once loaded).1⟩

end FleetOps.Access
