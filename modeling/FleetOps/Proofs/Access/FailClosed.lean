import FleetOps.Access.Context
import Mathlib.Tactic.SplitIfs
import Mathlib.Tactic.Tauto

set_option autoImplicit false

namespace FleetOps.Access

inductive Question where
  | can (r : Resource) (a : Action) (e : Option EnvironmentId)
  | access (e : EnvironmentId)
  | enterprise (feature : String)
  | authenticated
  | evaluate (r : Resource) (a : Action) (e : Option EnvironmentId)

def Context.allows (c : Context) : Question → Bool
  | .can r a e => c.can r a e
  | .access e => c.canAccess e
  | .enterprise feature => (errorOf? (c.requireEnterprise feature)).isNone
  | .authenticated => (errorOf? c.requireAuthenticated).isNone
  | .evaluate r a e => (c.evaluate r a e).allowed

inductive Lookup where
  | flag
  | license
  | session (token : String)
  | directory (user : String)

def Collaborators.failing (c : Collaborators) (cause : AccessError) : Lookup → Collaborators
  | .flag => { c with authEnabled := .error cause }
  | .license => { c with enterprise := .error cause }
  | .session token => { c with session := fun t => if t = token then .error cause else c.session t }
  | .directory user => { c with directory := fun u => if u = user then .error cause else c.directory u }

def Authorizer.failing (z : Authorizer) (cause : AccessError) (l : Lookup) : Authorizer :=
  { z with collaborators := z.collaborators.failing cause l }

def Collaborators.Assigned (c : Collaborators) (token : Option String) (e : EnvironmentId) : Prop :=
  ∃ t actor user assigned, token = some t ∧ c.session t = .ok (some actor) ∧ actor.id = some user ∧
    c.directory user = .ok assigned ∧ e ∈ assigned

namespace Context

variable {c c' : Context}

theorem can_eq_true {r : Resource} {a : Action} {e : Option EnvironmentId} :
    c.can r a e = true ↔ (c.authEnabled = true →
      ∃ actor, c.actor = some actor ∧ c.model.isGranted actor.roles r a e = true) := by
  unfold can
  cases c.authEnabled <;> cases c.actor <;> simp

theorem canAccess_eq_true {e : EnvironmentId} :
    c.canAccess e = true ↔ (c.authEnabled = true → c.enterprise = true →
      c.actor.isSome = true ∧ e ∈ c.environments) := by
  unfold canAccess
  cases c.authEnabled <;> cases c.enterprise <;> simp

theorem evaluate_allowed (c : Context) (r : Resource) (a : Action) (e : Option EnvironmentId) :
    (c.evaluate r a e).allowed = (c.can r a e && e.all c.canAccess) := by
  cases permitted : c.can r a e with
  | false =>
    obtain ⟨x, refused⟩ : ∃ x, c.authorize r a e = .error x := by
      simp only [authorize, permitted, Bool.false_eq_true, if_false]
      split_ifs <;> exact ⟨_, rfl⟩
    simp only [evaluate, decision, refused]
    rfl
  | true =>
    have granted : c.authorize r a e = .ok () := by simp [authorize, permitted]
    simp only [evaluate, decision, granted]
    cases e with
    | none => rfl
    | some id =>
      cases reached : c.canAccess id <;>
        simp [bind, Except.bind, authorizeEnvironment, reached, errorOf?]

theorem requireEnterprise_isNone (c : Context) (feature : String) :
    (errorOf? (c.requireEnterprise feature)).isNone = c.enterprise := by
  unfold requireEnterprise
  split_ifs with h <;> simp [errorOf?, h]

theorem requireAuthenticated_isNone (c : Context) :
    (errorOf? c.requireAuthenticated).isNone = (!c.authEnabled || c.actor.isSome) := by
  unfold requireAuthenticated
  split_ifs with h <;> simp_all [errorOf?]

structure Narrower (c' c : Context) : Prop where
  model : c'.model = c.model
  enforced : c.authEnabled = true → c'.authEnabled = true
  enterprise : c'.enterprise = c.enterprise
  actor : ∀ actor, c'.actor = some actor → c.actor = some actor
  environments : c.authEnabled = true → ∀ e ∈ c'.environments, e ∈ c.environments

theorem Narrower.can (narrower : c'.Narrower c) {r : Resource} {a : Action}
    {e : Option EnvironmentId} (allowed : c'.can r a e = true) : c.can r a e = true := by
  rw [can_eq_true] at allowed ⊢
  intro enforced
  obtain ⟨actor, known, granted⟩ := allowed (narrower.enforced enforced)
  exact ⟨actor, narrower.actor actor known, narrower.model ▸ granted⟩

theorem Narrower.canAccess (narrower : c'.Narrower c) {e : EnvironmentId}
    (allowed : c'.canAccess e = true) : c.canAccess e = true := by
  rw [canAccess_eq_true] at allowed ⊢
  intro enforced enterprise
  obtain ⟨known, assigned⟩ := allowed (narrower.enforced enforced) (narrower.enterprise.trans enterprise)
  obtain ⟨actor, known⟩ := Option.isSome_iff_exists.mp known
  exact ⟨by simp [narrower.actor actor known], narrower.environments enforced e assigned⟩

theorem Narrower.allows (narrower : c'.Narrower c) {q : Question} (allowed : c'.allows q = true) :
    c.allows q = true := by
  cases q with
  | can r a e => exact narrower.can allowed
  | access e => exact narrower.canAccess allowed
  | enterprise feature =>
    simp only [Context.allows, requireEnterprise_isNone] at allowed ⊢
    exact narrower.enterprise ▸ allowed
  | authenticated =>
    simp only [Context.allows, requireAuthenticated_isNone, Bool.or_eq_true, Bool.not_eq_true'] at allowed ⊢
    cases enforced : c.authEnabled with
    | false => exact .inl rfl
    | true =>
      obtain off | known := allowed
      · simp [narrower.enforced enforced] at off
      · obtain ⟨actor, known⟩ := Option.isSome_iff_exists.mp known
        exact .inr (by simp [narrower.actor actor known])
  | evaluate r a e =>
    simp only [Context.allows, evaluate_allowed, Bool.and_eq_true] at allowed ⊢
    refine ⟨narrower.can allowed.1, ?_⟩
    cases e with
    | none => rfl
    | some id => simpa using narrower.canAccess (by simpa using allowed.2)

end Context

variable {z : Authorizer} {token : Option String} {cause : AccessError}

theorem orElse_true {answer : Except AccessError Bool} :
    orElse true answer = true ↔ answer ≠ .ok false := by
  rcases answer with _ | (_ | _) <;> simp [orElse]

theorem orElse_false {answer : Except AccessError Bool} :
    orElse false answer = true ↔ answer = .ok true := by
  rcases answer with _ | (_ | _) <;> simp [orElse]

theorem Collaborators.actor_eq_some {c : Collaborators} {actor : Actor} :
    c.actor token = some actor ↔ ∃ t, token = some t ∧ c.session t = .ok (some actor) := by
  cases token with
  | none => simp [Collaborators.actor]
  | some t => cases h : c.session t <;> simp [Collaborators.actor, orElse, h]

theorem Collaborators.mem_environments {c : Collaborators} {enforced enterprise : Bool}
    {actor : Option Actor} {e : EnvironmentId} :
    e ∈ c.environments enforced enterprise actor ↔ enforced = true ∧ enterprise = true ∧
      ∃ known user assigned, actor = some known ∧ known.id = some user ∧
        c.directory user = .ok assigned ∧ e ∈ assigned := by
  unfold Collaborators.environments
  cases enforced <;> cases enterprise <;> try simp
  cases actor with
  | none => simp
  | some known =>
    cases user : known.id with
    | none => simp [user]
    | some id => cases found : c.directory id <;> simp [user, found, orElse]

theorem mem_contextFor {e : EnvironmentId} :
    e ∈ (z.contextFor token).environments ↔ z.collaborators.authEnabled ≠ .ok false ∧
      z.collaborators.enterprise = .ok true ∧ z.collaborators.Assigned token e := by
  simp only [Authorizer.contextFor, Collaborators.mem_environments, orElse_true, orElse_false,
    Collaborators.actor_eq_some, Collaborators.Assigned]
  refine and_congr_right fun _ => and_congr_right fun _ => ?_
  constructor
  · rintro ⟨actor, user, assigned, ⟨t, sent, session⟩, rest⟩
    exact ⟨t, actor, user, assigned, sent, session, rest⟩
  · rintro ⟨t, actor, user, assigned, sent, session, rest⟩
    exact ⟨actor, user, assigned, ⟨t, sent, session⟩, rest⟩

theorem canAccess_eq_false {e : EnvironmentId} :
    (z.contextFor token).canAccess e = false ↔ z.collaborators.enterprise = .ok true ∧
      z.collaborators.authEnabled ≠ .ok false ∧ ¬ z.collaborators.Assigned token e := by
  have known (assigned : z.collaborators.Assigned token e) :
      (z.contextFor token).actor.isSome = true := by
    obtain ⟨t, actor, -, -, sent, session, -⟩ := assigned
    have actor := Collaborators.actor_eq_some.mpr ⟨t, sent, session⟩
    exact Option.isSome_iff_exists.mpr ⟨_, actor⟩
  have enforced : (z.contextFor token).authEnabled = true ↔ z.collaborators.authEnabled ≠ .ok false :=
    orElse_true
  have enterprise : (z.contextFor token).enterprise = true ↔ z.collaborators.enterprise = .ok true :=
    orElse_false
  rw [← Bool.not_eq_true, Context.canAccess_eq_true, mem_contextFor, enforced, enterprise]
  tauto

theorem failing_narrower {l : Lookup} (other : l ≠ .license) :
    ((z.failing cause l).contextFor token).Narrower (z.contextFor token) := by
  cases l with
  | license => exact absurd rfl other
  | flag =>
    refine ⟨rfl, fun _ => rfl, rfl, fun _ h => h, fun enforced e mem => ?_⟩
    obtain ⟨-, enterprise, assigned⟩ := mem_contextFor.mp mem
    exact mem_contextFor.mpr ⟨orElse_true.mp enforced, enterprise, assigned⟩
  | session lost =>
    have session {t : String} {actor : Actor}
        (h : (z.failing cause (.session lost)).collaborators.session t = .ok (some actor)) :
        z.collaborators.session t = .ok (some actor) := by
      simp only [Authorizer.failing, Collaborators.failing] at h
      split_ifs at h
      exact h
    refine ⟨rfl, id, rfl, ?_, fun _ e mem => ?_⟩
    · intro actor known
      obtain ⟨t, sent, known⟩ := Collaborators.actor_eq_some.mp known
      exact Collaborators.actor_eq_some.mpr ⟨t, sent, session known⟩
    · obtain ⟨enforced, enterprise, t, actor, user, assigned, sent, known, rest⟩ := mem_contextFor.mp mem
      exact mem_contextFor.mpr ⟨enforced, enterprise, t, actor, user, assigned, sent, session known, rest⟩
  | directory lost =>
    refine ⟨rfl, id, rfl, fun _ h => h, fun _ e mem => ?_⟩
    obtain ⟨enforced, enterprise, t, actor, user, assigned, sent, known, id, directory, mem⟩ :=
      mem_contextFor.mp mem
    simp only [Authorizer.failing, Collaborators.failing] at directory
    split_ifs at directory
    exact mem_contextFor.mpr
      ⟨enforced, enterprise, t, actor, user, assigned, sent, known, id, directory, mem⟩

theorem failing_license_canAccess (e : EnvironmentId) :
    ((z.failing cause .license).contextFor token).canAccess e = true := by
  simp [Context.canAccess, Authorizer.contextFor, Authorizer.failing, Collaborators.failing, orElse]

theorem failing_license_can (r : Resource) (a : Action) (e : Option EnvironmentId) :
    ((z.failing cause .license).contextFor token).can r a e = (z.contextFor token).can r a e :=
  rfl

/-- The lookups that fail open, and where. -/
theorem failure_allows_iff (z : Authorizer) (token : Option String) (cause : AccessError) (l : Lookup)
    (q : Question) :
    ((z.contextFor token).allows q = false ∧
        ((z.failing cause l).contextFor token).allows q = true) ↔
      l = .license ∧ z.collaborators.enterprise = .ok true ∧
        z.collaborators.authEnabled ≠ .ok false ∧
        ∃ e, ¬ z.collaborators.Assigned token e ∧
          (q = .access e ∨
            ∃ r a, q = .evaluate r a (some e) ∧ (z.contextFor token).can r a (some e) = true) := by
  by_cases license : l = .license
  · subst license
    cases q with
    | can r a e => simp [Context.allows, failing_license_can]
    | access e =>
      simp [Context.allows, failing_license_canAccess, canAccess_eq_false]
    | enterprise feature =>
      have unlicensed : ((z.failing cause .license).contextFor token).enterprise = false := rfl
      simp [Context.allows, Context.requireEnterprise_isNone, unlicensed]
    | authenticated =>
      have same : ((z.failing cause .license).contextFor token).allows .authenticated =
          (z.contextFor token).allows .authenticated := rfl
      simp [same]
    | evaluate r a e =>
      simp only [Context.allows, Context.evaluate_allowed, failing_license_can]
      constructor
      · rintro ⟨denied, allowed⟩
        have permitted := (Bool.and_eq_true_iff.mp allowed).1
        cases e with
        | none => simp [permitted] at denied
        | some id =>
          have isolated : (z.contextFor token).canAccess id = false := by
            simpa [permitted] using denied
          obtain ⟨enterprise, enforced, unassigned⟩ := canAccess_eq_false.mp isolated
          exact ⟨trivial, enterprise, enforced, id, unassigned, .inr ⟨r, a, rfl, permitted⟩⟩
      · rintro ⟨-, enterprise, enforced, id, unassigned, access | ⟨r', a', same, permitted⟩⟩
        · cases access
        · cases same
          have isolated := canAccess_eq_false.mpr ⟨enterprise, enforced, unassigned⟩
          simp [permitted, isolated, failing_license_canAccess]
  · have narrower : ((z.failing cause l).contextFor token).Narrower (z.contextFor token) :=
      failing_narrower license
    constructor
    · rintro ⟨denied, allowed⟩
      simp [narrower.allows allowed] at denied
    · exact fun h => absurd h.1 license

def unassigned : Authorizer where
  model := .withPresets .empty
  collaborators :=
    { authEnabled := .ok true
      enterprise := .ok true
      session := fun _ => .ok (some { id := some "alice", roles := ["admin"] })
      directory := fun _ => .ok [] }

theorem license_failure_allows :
    (unassigned.contextFor (some "t")).allows (.access 1) = false ∧
      ((unassigned.failing (.collaborator "license server") .license).contextFor (some "t")).allows
        (.access 1) = true := by
  decide

end FleetOps.Access
