import FleetOps.Proofs.Access.Decision
import FleetOps.Proofs.Access.Sessions

set_option autoImplicit false

namespace FleetOps

variable {e : EnvironmentId} {g : GrantSettings} {u : UserSettings} {auth auth' : AuthSettings}

-- A grant without an environment is for every one of them.
def GrantSettings.bearsOn (e : EnvironmentId) (g : GrantSettings) : Bool :=
  g.environment.all (· = e)

def RoleSettings.onlyOn (e : EnvironmentId) (r : RoleSettings) : RoleSettings :=
  { r with grants := r.grants.filter (·.bearsOn e) }

def UserSettings.onlyOn (e : EnvironmentId) (u : UserSettings) : UserSettings :=
  { u with environments := u.environments.filter (· = e) }

def AuthSettings.onlyOn (e : EnvironmentId) (auth : AuthSettings) : AuthSettings :=
  { auth with
    roles := auth.roles.map fun p => (p.1, p.2.onlyOn e)
    users := auth.users.map (·.onlyOn e) }

-- The roles are a table, so the order in which they are listed is no part of what is said.
structure AuthSettings.AgreeOn (e : EnvironmentId) (auth auth' : AuthSettings) : Prop where
  enabled : auth'.enabled = auth.enabled
  roles : (auth.onlyOn e).roles.Perm (auth'.onlyOn e).roles
  users : (auth.onlyOn e).users = (auth'.onlyOn e).users

theorem AuthSettings.names_onlyOn (e : EnvironmentId) (auth : AuthSettings) :
    (auth.onlyOn e).roles.map (·.1) = auth.roles.map (·.1) := by
  simp [AuthSettings.onlyOn, Function.comp_def]

namespace Access

variable {asked : Option EnvironmentId} {roles : List String} {r : Resource} {a : Action} {k : ScopeKind}

theorem EntryGrants.bearsOn (grants : EntryGrants g r a k asked) (here : ∀ x ∈ asked, x = e) :
    g.bearsOn e = true := by
  obtain ⟨-, -, unbound | ⟨-, bound⟩⟩ := grants
  · simp [GrantSettings.bearsOn, unbound]
  · cases asked with
    | none => simp [GrantSettings.bearsOn, bound]
    | some x => simp [GrantSettings.bearsOn, bound, here x rfl]

theorem settingsPermit_onlyOn (here : ∀ x ∈ asked, x = e) :
    SettingsPermit (auth.onlyOn e) roles r a asked ↔ SettingsPermit auth roles r a asked := by
  unfold SettingsPermit
  rw [AuthSettings.names_onlyOn]
  refine exists_congr fun k => and_congr_right fun _ => and_congr_right fun _ =>
    exists_congr fun role => and_congr_right fun _ => or_congr_left ?_
  constructor
  · rintro ⟨_, declared, g, entry, grants⟩
    obtain ⟨⟨_, rs⟩, mem, same⟩ := List.mem_map.mp declared
    obtain ⟨rfl, rfl⟩ := Prod.mk.inj same
    exact ⟨rs, mem, g, (List.mem_filter.mp entry).1, grants⟩
  · rintro ⟨rs, mem, g, entry, grants⟩
    have left : g ∈ (rs.onlyOn e).grants := List.mem_filter.mpr ⟨entry, grants.bearsOn here⟩
    exact ⟨_, List.mem_map.mpr ⟨_, mem, rfl⟩, g, left, grants⟩

theorem agreeOn_reordered (agree : auth.AgreeOn e auth') : Reordered (auth.onlyOn e) (auth'.onlyOn e) where
  names := agree.roles.map _
  entries := fun p mem => ⟨p, agree.roles.mem_iff.mp mem, rfl, .refl _⟩

theorem settingsPermit_agreeOn (agree : auth.AgreeOn e auth') (once : (auth.roles.map (·.1)).Nodup)
    (here : ∀ x ∈ asked, x = e) :
    SettingsPermit auth' roles r a asked ↔ SettingsPermit auth roles r a asked := by
  have reordered := agreeOn_reordered agree
  have kept : ((auth.onlyOn e).roles.map (·.1)).Nodup := by rwa [AuthSettings.names_onlyOn]
  calc SettingsPermit auth' roles r a asked
    _ ↔ SettingsPermit (auth'.onlyOn e) roles r a asked := (settingsPermit_onlyOn here).symm
    _ ↔ SettingsPermit (auth.onlyOn e) roles r a asked := ⟨(reordered.symm kept).permit, reordered.permit⟩
    _ ↔ SettingsPermit auth roles r a asked := settingsPermit_onlyOn here

theorem lastUser?_onlyOn (users : List UserSettings) (chosen : UserSettings → Bool)
    (blind : ∀ u, chosen (u.onlyOn e) = chosen u) :
    lastUser? (users.map (·.onlyOn e)) chosen = (lastUser? users chosen).map (·.onlyOn e) := by
  have same : chosen ∘ UserSettings.onlyOn e = chosen := funext blind
  rw [lastUser?, ← List.map_reverse, List.find?_map, same]
  rfl

theorem session_onlyOn (auth : AuthSettings) (license : LicenseSettings) :
    (Collaborators.ofSettings (auth.onlyOn e) license).session =
      (Collaborators.ofSettings auth license).session := by
  funext token
  have found := lastUser?_onlyOn (e := e) auth.users (·.token = some token) fun _ => rfl
  simp only [Collaborators.ofSettings, AuthSettings.onlyOn, found, Option.map_map]
  rfl

theorem mem_directory_onlyOn (auth : AuthSettings) (license : LicenseSettings) (name : String) :
    e ∈ orElse [] ((Collaborators.ofSettings (auth.onlyOn e) license).directory name) ↔
      e ∈ orElse [] ((Collaborators.ofSettings auth license).directory name) := by
  have found := lastUser?_onlyOn (e := e) auth.users (·.name = name) fun _ => rfl
  simp only [Collaborators.ofSettings, AuthSettings.onlyOn, found, orElse]
  cases lastUser? auth.users (·.name = name) with
  | none => rfl
  | some u => simp [UserSettings.onlyOn]

theorem mem_environments_congr {c c' : Collaborators}
    (directory : ∀ name, e ∈ orElse [] (c'.directory name) ↔ e ∈ orElse [] (c.directory name))
    (enforced enterprise : Bool) (actor : Option Actor) :
    e ∈ c'.environments enforced enterprise actor ↔ e ∈ c.environments enforced enterprise actor := by
  unfold Collaborators.environments
  split
  · split
    · exact directory _
    · rfl
  · rfl

/-- Nothing that a check at this environment, or without one, looks at tells the two apart. -/
structure Context.AgreeOn (e : EnvironmentId) (c c' : Context) : Prop where
  actor : c'.actor = c.actor
  authEnabled : c'.authEnabled = c.authEnabled
  enterprise : c'.enterprise = c.enterprise
  granted : ∀ asked : Option EnvironmentId, (∀ x ∈ asked, x = e) → ∀ roles r a,
    c'.model.isGranted roles r a asked = c.model.isGranted roles r a asked
  assigned : e ∈ c'.environments ↔ e ∈ c.environments

theorem Context.AgreeOn.evaluate {c c' : Context} (agree : c.AgreeOn e c') (here : ∀ x ∈ asked, x = e) :
    c'.evaluate r a asked = c.evaluate r a asked := by
  have can : c'.can r a asked = c.can r a asked := by
    simp only [Context.can, agree.actor, agree.authEnabled, agree.granted asked here]
  have access : c'.canAccess e = c.canAccess e := by
    have contains : c'.environments.contains e = c.environments.contains e := by
      rw [Bool.eq_iff_iff, List.contains_iff_mem, List.contains_iff_mem, agree.assigned]
    simp only [Context.canAccess, agree.actor, agree.authEnabled, agree.enterprise, contains]
  have authorize : c'.authorize r a asked = c.authorize r a asked := by
    simp only [Context.authorize, can, agree.actor, agree.authEnabled]
  have decision : c'.decision r a asked = c.decision r a asked := by
    cases asked with
    | none => simp only [Context.decision, authorize]
    | some x =>
      obtain rfl := here x rfl
      simp only [Context.decision, authorize, Context.authorizeEnvironment, access]
  simp only [Context.evaluate, decision, agree.actor, agree.authEnabled, agree.enterprise]

variable {license : LicenseSettings} {z z' : Authorizer}

theorem contextFor_agreeOn (agree : auth.AgreeOn e auth') (once : (auth.roles.map (·.1)).Nodup)
    (built : Authorizer.ofSettings auth license = .ok z)
    (built' : Authorizer.ofSettings auth' license = .ok z') (token : Option String) :
    (z.contextFor token).AgreeOn e (z'.contextFor token) := by
  obtain ⟨m, loaded, rfl⟩ := Authorizer.ofSettings_eq_ok.mp built
  obtain ⟨m', loaded', rfl⟩ := Authorizer.ofSettings_eq_ok.mp built'
  have once' : (auth'.roles.map (·.1)).Nodup := by
    have names := (agreeOn_reordered agree).names
    rw [AuthSettings.names_onlyOn, AuthSettings.names_onlyOn] at names
    exact names.nodup_iff.mp once
  have left : (auth.onlyOn e).users = (auth'.onlyOn e).users := agree.users
  have actor : (Collaborators.ofSettings auth' license).actor token =
      (Collaborators.ofSettings auth license).actor token := by
    have sessions : (Collaborators.ofSettings auth' license).session =
        (Collaborators.ofSettings auth license).session := by
      rw [← session_onlyOn (e := e), ← session_onlyOn (e := e) auth]
      simp only [Collaborators.ofSettings, left]
    simp only [Collaborators.actor, sessions]
  have directory (name : String) :
      e ∈ orElse [] ((Collaborators.ofSettings auth' license).directory name) ↔
        e ∈ orElse [] ((Collaborators.ofSettings auth license).directory name) := by
    rw [← mem_directory_onlyOn, ← mem_directory_onlyOn auth]
    simp only [Collaborators.ofSettings, left]
  constructor
  · exact actor
  · exact agree.enabled
  · rfl
  · intro asked here roles r a
    rw [Bool.eq_iff_iff]
    exact (isGranted_iff once' loaded').trans
      ((settingsPermit_agreeOn agree once here).trans (isGranted_iff once loaded).symm)
  · have flag : auth'.enabled = auth.enabled := agree.enabled
    simp only [Authorizer.contextFor, actor]
    rw [mem_environments_congr directory]
    simp only [Collaborators.ofSettings, flag]

/-- Deployments of one license whose settings agree on an environment report the same on every check
there, and on every check without an environment. -/
theorem evaluate_agreeOn {s s' : Settings} (agree : s.auth.AgreeOn e s'.auth) (same : s'.license = s.license)
    (once : (s.auth.roles.map (·.1)).Nodup) (built : Authorizer.ofSettings s.auth s.license = .ok z)
    (built' : Authorizer.ofSettings s'.auth s'.license = .ok z') (token : Option String) (r : Resource)
    (a : Action) :
    (z'.contextFor token).evaluate r a (some e) = (z.contextFor token).evaluate r a (some e) ∧
      (z'.contextFor token).evaluate r a none = (z.contextFor token).evaluate r a none := by
  rw [same] at built'
  have contexts := contextFor_agreeOn agree once built built' token
  constructor
  · refine contexts.evaluate fun x mem => ?_
    exact (Option.some.inj mem).symm
  · refine contexts.evaluate fun x mem => ?_
    cases mem

def sharedHost : Settings where
  auth :=
    { enabled := true
      roles :=
        [("deployer", ⟨[{ resource := "stacks", action := "*", environment := some 1 },
          { resource := "stacks", action := "deploy", environment := some 2 }]⟩),
         ("auditor", ⟨[{ resource := "audit", action := "view" }]⟩)]
      users := [{ name := "olga", token := some "t1", roles := ["deployer"], environments := [1, 2] }] }
  license := { enterprise := true }

def movedHost : Settings where
  auth :=
    { enabled := true
      roles :=
        [("auditor", ⟨[{ resource := "audit", action := "view" },
          { resource := "containers", action := "exec", environment := some 3 }]⟩),
         ("deployer", ⟨[{ resource := "stacks", action := "*", environment := some 1 }]⟩)]
      users := [{ name := "olga", token := some "t1", roles := ["deployer"], environments := [3, 1, 3] }] }
  license := { enterprise := true }

theorem evaluate_movedHost :
    sharedHost.auth.AgreeOn 1 movedHost.auth ∧ movedHost.license = sharedHost.license ∧
      (sharedHost.auth.roles.map (·.1)).Nodup ∧
      ∃ z z', Authorizer.ofSettings sharedHost.auth sharedHost.license = .ok z ∧
        Authorizer.ofSettings movedHost.auth movedHost.license = .ok z' ∧
        (z'.contextFor (some "t1")).evaluate .stacks .deploy (some 1) =
          (z.contextFor (some "t1")).evaluate .stacks .deploy (some 1) ∧
        (z'.contextFor (some "t1")).evaluate .auditLog .view none =
          (z.contextFor (some "t1")).evaluate .auditLog .view none := by
  have agree : sharedHost.auth.AgreeOn 1 movedHost.auth := by
    constructor <;> decide
  have once : (sharedHost.auth.roles.map (·.1)).Nodup := by decide
  have loaded : Model.ofSettings sharedHost.auth =
      .ok (sharedHost.auth.roles.foldl Model.declare Model.empty.withPresets) := by decide
  have loaded' : Model.ofSettings movedHost.auth =
      .ok (movedHost.auth.roles.foldl Model.declare Model.empty.withPresets) := by decide
  have built : Authorizer.ofSettings sharedHost.auth sharedHost.license = .ok _ :=
    Authorizer.ofSettings_eq_ok.mpr ⟨_, loaded, rfl⟩
  have built' : Authorizer.ofSettings movedHost.auth movedHost.license = .ok _ :=
    Authorizer.ofSettings_eq_ok.mpr ⟨_, loaded', rfl⟩
  have deploy := evaluate_agreeOn agree rfl once built built' (some "t1") .stacks .deploy
  have audit := evaluate_agreeOn agree rfl once built built' (some "t1") .auditLog .view
  exact ⟨agree, rfl, once, _, _, built, built', deploy.1, audit.2⟩

end Access

end FleetOps
