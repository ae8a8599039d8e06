import FleetOps.Proofs.Access.Decision

set_option autoImplicit false

namespace FleetOps.Access

variable {m m' : Model} {g : Grant} {gs : List Grant} {name role : String} {r : Resource} {a : Action}
  {e : Option EnvironmentId}

-- What is bound to an environment covers a check there alone.
theorem Grant.covers_iff : g.covers r a e = true ↔
    g = ⟨r, a, .global⟩ ∨ ∃ id, e = some id ∧ g = ⟨r, a, .environment id⟩ := by
  obtain ⟨r', a', scope⟩ := g
  cases scope with
  | global => simp [covers]
  | environment id => simp [covers, and_comm, and_assoc]

theorem Grant.admissible_iff : g.Admissible ↔
    (∃ k, (g.resource, g.action, k) ∈ catalog) ∧
      ∀ id, g.scope = .environment id → (g.resource, g.action, .global) ∉ catalog := by
  simp only [Admissible, ← scopeOf_eq_some]
  cases kind : scopeOf g.resource g.action with
  | none => simp
  | some k => cases scope : g.scope <;> simp

theorem Grant.inadmissible_iff : ¬ g.Admissible ↔
    (∀ k, (g.resource, g.action, k) ∉ catalog) ∨
      (g.resource, g.action, .global) ∈ catalog ∧ ∃ id, g.scope = .environment id := by
  rw [admissible_iff, not_and_or, not_exists]
  refine or_congr_right ?_
  simp only [not_forall, not_not]
  exact ⟨fun ⟨id, bound, kind⟩ => ⟨kind, id, bound⟩, fun ⟨kind, id, bound⟩ => ⟨id, bound, kind⟩⟩

namespace Model

theorem mem_grantsFor : g ∈ m.grantsFor role ↔ m.Holds role g := by
  unfold grantsFor Holds
  cases m.grants? role <;> simp

theorem holds_setRole : Holds ⟨setRole name gs m.roles⟩ role g ↔
    if role = name then g ∈ gs else m.Holds role g := by
  unfold Holds
  rw [grants?_setRole]
  split_ifs <;> simp

theorem role_eq_ok : m.role name gs = .ok m' ↔
    (∀ x ∈ gs, x.Admissible) ∧ m' = ⟨setRole name gs.eraseDups m.roles⟩ := by
  unfold role
  rw [bind_eq_ok, ← @forM_checkGrant name gs]
  constructor
  · rintro ⟨_, fine, built⟩
    exact ⟨fine, (Except.ok.inj built).symm⟩
  · rintro ⟨fine, rfl⟩
    exact ⟨_, fine, rfl⟩

theorem role_fails_iff : (∃ x, m.role name gs = .error x) ↔ ∃ g ∈ gs, ¬ g.Admissible := by
  have accepted : (∃ m', m.role name gs = .ok m') ↔ ∀ g ∈ gs, g.Admissible := by simp [role_eq_ok]
  have refused : (∃ x, m.role name gs = .error x) ↔ ¬ ∃ m', m.role name gs = .ok m' := by
    cases m.role name gs <;> simp
  rw [refused, accepted]
  simp

theorem role_of_settings {rs : RoleSettings} (call : m.roleOfSettings name rs = .ok m') :
    ∃ gs, m.role name gs = .ok m' := by
  obtain ⟨own, -, call⟩ := bind_eq_ok.mp call
  exact ⟨own.flatten, call⟩

inductive Built : Model → Prop where
  | empty : Built .empty
  | presets {m : Model} (built : Built m) : Built m.withPresets
  | role {m m' : Model} {name : String} {gs : List Grant} (built : Built m)
      (call : m.role name gs = .ok m') : Built m'
  | settings {m m' : Model} {name : String} {rs : RoleSettings} (built : Built m)
      (call : m.roleOfSettings name rs = .ok m') : Built m'

theorem Built.ofSettings {auth : AuthSettings} (loaded : ofSettings auth = .ok m) : Built m := by
  have each (roles : List (String × RoleSettings)) (start : Model) (built : Built start)
      (loaded : roles.foldlM (fun m r => m.roleOfSettings r.1 r.2) start = .ok m) : Built m := by
    induction roles generalizing start with
    | nil =>
      obtain rfl := Except.ok.inj loaded
      exact built
    | cons p rest ih =>
      rw [List.foldlM_cons] at loaded
      obtain ⟨next, call, loaded⟩ := bind_eq_ok.mp loaded
      exact ih next (.settings built call) loaded
  exact each auth.roles _ (.presets .empty) loaded

def Sound (m : Model) : Prop :=
  ∀ role g, m.Holds role g → g.Admissible

theorem Sound.setRole (sound : m.Sound) (name : String) (fine : ∀ g ∈ gs, g.Admissible) :
    Sound ⟨setRole name gs m.roles⟩ := by
  intro role g held
  rw [holds_setRole] at held
  split_ifs at held
  · exact fine g held
  · exact sound role g held

theorem admissible_globalGrants {covered : Resource → Action → Bool} (mem : g ∈ globalGrants covered) :
    g.Admissible := by
  obtain ⟨⟨r, a, k⟩, listed, rfl⟩ := List.mem_map.mp mem
  exact ⟨k, scopeOf_eq_some.mpr (List.mem_filter.mp listed).1, fun _ => rfl⟩

theorem Sound.withPresets (sound : m.Sound) : m.withPresets.Sound :=
  ((sound.setRole "admin" fun _ => admissible_globalGrants).setRole "operator"
    fun _ => admissible_globalGrants).setRole "viewer" fun _ => admissible_globalGrants

theorem Sound.ofRole (sound : m.Sound) (call : m.role name gs = .ok m') : m'.Sound := by
  obtain ⟨fine, rfl⟩ := role_eq_ok.mp call
  exact sound.setRole name fun g mem => fine g (List.mem_eraseDups.mp mem)

theorem Built.sound (built : Built m) : m.Sound := by
  induction built with
  | empty =>
    rintro role g ⟨gs, found, -⟩
    cases found
  | presets _ ih => exact ih.withPresets
  | role _ call ih => exact ih.ofRole call
  | settings _ call ih =>
    obtain ⟨gs, call⟩ := role_of_settings call
    exact ih.ofRole call

theorem Sound.isGranted_iff (sound : m.Sound) (roles : List String) (r : Resource) (a : Action)
    (e : Option EnvironmentId) : m.isGranted roles r a e = true ↔
      (∃ k, (r, a, k) ∈ catalog ∧ ¬ (k = .environment ∧ e = none)) ∧
        ∃ role ∈ roles, ∃ g ∈ m.grantsFor role, g.covers r a e = true := by
  rw [isGranted_eq_true]
  simp only [mem_grantsFor, Grant.covers_iff]
  constructor
  · rintro ⟨k, kind, met, role, listed, held | ⟨-, id, rfl, held⟩⟩
    · exact ⟨⟨k, kind, met⟩, role, listed, _, held, .inl rfl⟩
    · exact ⟨⟨k, kind, met⟩, role, listed, _, held, .inr ⟨id, rfl, rfl⟩⟩
  · rintro ⟨⟨k, kind, met⟩, role, listed, _, held, rfl | ⟨id, rfl, rfl⟩⟩
    · exact ⟨k, kind, met, role, listed, .inl held⟩
    · -- A grant that is bound is for a pair that can be, so the look-up does not drop the environment.
      obtain ⟨k', kind', bound⟩ := sound role _ held
      obtain rfl : k' = k := Option.some.inj (kind'.symm.trans (scopeOf_eq_some.mpr kind))
      refine ⟨k', kind, met, role, listed, .inr ⟨fun global => ?_, id, rfl, held⟩⟩
      cases bound global

/-- A model built step by step holds admissible grants alone, and grants what some grant of a listed role
covers; a step that sets a role fails just for a grant that is not admissible. -/
theorem lookup_scans (built : Built m) :
    (∀ role, ∀ g ∈ m.grantsFor role, (∃ k, (g.resource, g.action, k) ∈ catalog) ∧
      ∀ id, g.scope = .environment id → (g.resource, g.action, .global) ∉ catalog) ∧
    (∀ roles r a e, m.isGranted roles r a e = true ↔
      (∃ k, (r, a, k) ∈ catalog ∧ ¬ (k = .environment ∧ e = none)) ∧
        ∃ role ∈ roles, ∃ g ∈ m.grantsFor role, g.covers r a e = true) ∧
    ∀ name gs, (∃ x, m.role name gs = .error x) ↔
      ∃ g ∈ gs, (∀ k, (g.resource, g.action, k) ∉ catalog) ∨
        (g.resource, g.action, .global) ∈ catalog ∧ ∃ id, g.scope = .environment id := by
  have sound := built.sound
  refine ⟨fun role g held => ?_, sound.isGranted_iff, fun name gs => ?_⟩
  · exact Grant.admissible_iff.mp (sound role g (mem_grantsFor.mp held))
  · rw [role_fails_iff]
    exact exists_congr fun g => and_congr_right fun _ => Grant.inadmissible_iff

theorem declaredRoles_scanned :
    ∃ m, Model.ofSettings declaredRoles = .ok m ∧ Built m ∧
      (∀ g ∈ m.grantsFor "operator", ∀ id, g.scope = .environment id →
        (g.resource, g.action, .global) ∉ catalog) ∧
      (m.isGranted ["operator"] .notifications .view (some 3) = true ↔
        (∃ k, (Resource.notifications, Action.view, k) ∈ catalog ∧ ¬ (k = .environment ∧ some 3 = none)) ∧
          ∃ role ∈ ["operator"], ∃ g ∈ m.grantsFor role, g.covers .notifications .view (some 3) = true) := by
  have loaded : Model.ofSettings declaredRoles =
      .ok (declaredRoles.roles.foldl declare empty.withPresets) := by decide
  have built := Built.ofSettings loaded
  obtain ⟨admissible, scans, -⟩ := lookup_scans built
  exact ⟨_, loaded, built, fun g held => (admissible "operator" g held).2, scans _ _ _ _⟩

end Model

end FleetOps.Access
