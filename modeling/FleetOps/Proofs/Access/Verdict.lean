import FleetOps.Proofs.Access.FailClosed
import FleetOps.Proofs.Lists

set_option autoImplicit false

namespace FleetOps.Access

variable {r : Resource} {a : Action} {e : Option EnvironmentId} {id : EnvironmentId} {x : AccessError}
  {p : DenialPayload}

namespace Context

variable {c : Context}

theorem authorize_eq_ok : c.authorize r a e = .ok () ↔ c.can r a e = true := by
  unfold authorize
  split_ifs <;> simp_all

theorem authorize_eq_error : c.authorize r a e = .error x ↔ c.authEnabled = true ∧
    (c.actor = none ∧ x = .unauthenticated ∨ ∃ actor, c.actor = some actor ∧
      c.model.isGranted actor.roles r a e = false ∧ x = .forbidden r.name a.name e) := by
  unfold authorize can
  cases c.authEnabled with
  | false => simp
  | true =>
    cases c.actor with
    | none => simp [@eq_comm _ x]
    | some actor =>
      cases granted : c.model.isGranted actor.roles r a e <;> simp [granted, @eq_comm _ x]

theorem authorizeEnvironment_eq_ok : c.authorizeEnvironment id = .ok () ↔ c.canAccess id = true := by
  unfold authorizeEnvironment
  split_ifs <;> simp_all

theorem authorizeEnvironment_eq_error :
    c.authorizeEnvironment id = .error x ↔ c.canAccess id = false ∧ x = .environmentDenied id := by
  unfold authorizeEnvironment
  split_ifs with reached <;> simp [reached, eq_comm]

theorem decision_eq_error : c.decision r a e = .error x ↔ c.authorize r a e = .error x ∨
    c.can r a e = true ∧ ∃ id, e = some id ∧ c.canAccess id = false ∧ x = .environmentDenied id := by
  rw [← authorize_eq_ok]
  refine bind_eq_error.trans (or_congr_right ?_)
  cases e with
  | none => simp [pure, Except.pure]
  | some id =>
    constructor
    · rintro ⟨_, granted, denied⟩
      exact ⟨granted, id, rfl, authorizeEnvironment_eq_error.mp denied⟩
    · rintro ⟨granted, _, ⟨⟩, denied⟩
      exact ⟨_, granted, authorizeEnvironment_eq_error.mpr denied⟩

theorem denial_eq_some :
    (c.evaluate r a e).denial = some p ↔ ∃ x, c.decision r a e = .error x ∧ x.payload = p := by
  unfold evaluate
  cases c.decision r a e <;> simp [errorOf?]

theorem denial_eq_none : (c.evaluate r a e).denial = none ↔ (c.evaluate r a e).allowed = true := by
  simp [evaluate]

end Context

namespace Authorizer

variable {z : Authorizer} {token : Option String}

def Enforces (z : Authorizer) : Prop :=
  z.collaborators.authEnabled ≠ .ok false

def Licensed (z : Authorizer) : Prop :=
  z.collaborators.enterprise = .ok true

def Knows (z : Authorizer) (token : Option String) (actor : Actor) : Prop :=
  ∃ t, token = some t ∧ z.collaborators.session t = .ok (some actor)

theorem contextFor_authEnabled : (z.contextFor token).authEnabled = true ↔ z.Enforces :=
  orElse_true

theorem contextFor_actor {actor : Actor} :
    (z.contextFor token).actor = some actor ↔ z.Knows token actor :=
  Collaborators.actor_eq_some

theorem contextFor_nobody : (z.contextFor token).actor = none ↔ ∀ actor, ¬ z.Knows token actor := by
  simp only [← contextFor_actor, Option.eq_none_iff_forall_ne_some, ne_eq]

theorem contextFor_can : (z.contextFor token).can r a e = true ↔
    ¬ z.Enforces ∨ ∃ actor, z.Knows token actor ∧ z.model.isGranted actor.roles r a e = true := by
  rw [Context.can_eq_true, imp_iff_not_or, contextFor_authEnabled]
  simp only [contextFor_actor]
  rfl

theorem contextFor_closed : (z.contextFor token).canAccess id = false ↔
    z.Enforces ∧ z.Licensed ∧ ¬ z.collaborators.Assigned token id := by
  rw [canAccess_eq_false]
  exact and_left_comm

theorem contextFor_open : (z.contextFor token).canAccess id = true ↔
    ¬ z.Enforces ∨ ¬ z.Licensed ∨ z.collaborators.Assigned token id := by
  rw [← Bool.not_eq_false, contextFor_closed]
  tauto

theorem contextFor_authorize : (z.contextFor token).authorize r a e = .error x ↔ z.Enforces ∧
    ((∀ actor, ¬ z.Knows token actor) ∧ x = .unauthenticated ∨ ∃ actor, z.Knows token actor ∧
      z.model.isGranted actor.roles r a e = false ∧ x = .forbidden r.name a.name e) := by
  rw [Context.authorize_eq_error, contextFor_authEnabled, contextFor_nobody]
  simp only [contextFor_actor]
  rfl

inductive Denies (z : Authorizer) (token : Option String) (r : Resource) (a : Action)
    (e : Option EnvironmentId) : AccessError → Prop where
  | nobody (known : ∀ actor, ¬ z.Knows token actor) : Denies z token r a e .unauthenticated
  | ungranted {actor : Actor} (known : z.Knows token actor)
      (missing : z.model.isGranted actor.roles r a e = false) :
      Denies z token r a e (.forbidden r.name a.name e)
  | unassigned {actor : Actor} {id : EnvironmentId} (known : z.Knows token actor)
      (granted : z.model.isGranted actor.roles r a e = true) (named : e = some id)
      (licensed : z.Licensed) (other : ¬ z.collaborators.Assigned token id) :
      Denies z token r a e (.environmentDenied id)

theorem decision_eq_error :
    (z.contextFor token).decision r a e = .error x ↔ z.Enforces ∧ z.Denies token r a e x := by
  rw [Context.decision_eq_error, contextFor_authorize, contextFor_can]
  simp only [contextFor_closed]
  constructor
  · rintro (⟨enforced, ⟨nobody, rfl⟩ | ⟨actor, known, missing, rfl⟩⟩ |
      ⟨off | ⟨actor, known, granted⟩, id, named, ⟨enforced, licensed, other⟩, rfl⟩)
    · exact ⟨enforced, .nobody nobody⟩
    · exact ⟨enforced, .ungranted known missing⟩
    · exact absurd enforced off
    · exact ⟨enforced, .unassigned known granted named licensed other⟩
  · rintro ⟨enforced, denies⟩
    cases denies with
    | nobody nobody => exact .inl ⟨enforced, .inl ⟨nobody, rfl⟩⟩
    | ungranted known missing => exact .inl ⟨enforced, .inr ⟨_, known, missing, rfl⟩⟩
    | unassigned known granted named licensed other =>
      exact .inr ⟨.inr ⟨_, known, granted⟩, _, named, ⟨enforced, licensed, other⟩, rfl⟩

theorem evaluate_allowed_iff : ((z.contextFor token).evaluate r a e).allowed = true ↔
    ¬ z.Enforces ∨ ∃ actor, z.Knows token actor ∧ z.model.isGranted actor.roles r a e = true ∧
      ∀ id, e = some id → ¬ z.Licensed ∨ z.collaborators.Assigned token id := by
  have reached : e.all (z.contextFor token).canAccess = true ↔
      ∀ id, e = some id → ¬ z.Enforces ∨ ¬ z.Licensed ∨ z.collaborators.Assigned token id := by
    simp only [← contextFor_open]
    cases e <;> simp
  rw [Context.evaluate_allowed, Bool.and_eq_true, contextFor_can, reached]
  constructor
  · rintro ⟨off | ⟨actor, known, granted⟩, reached⟩
    · exact .inl off
    · by_cases enforced : z.Enforces
      · exact .inr ⟨actor, known, granted, fun id named => (reached id named).resolve_left (by simpa)⟩
      · exact .inl enforced
  · rintro (off | ⟨actor, known, granted, reached⟩)
    · exact ⟨.inl off, fun _ _ => .inl off⟩
    · exact ⟨.inr ⟨actor, known, granted⟩, fun id named => .inr (reached id named)⟩

/-- Who is allowed what, by the answers of the collaborators, and which denial the others are shown. -/
theorem report_of_answers (z : Authorizer) (token : Option String) (r : Resource) (a : Action)
    (e : Option EnvironmentId) :
    (((z.contextFor token).evaluate r a e).allowed = true ↔
      ¬ z.Enforces ∨ ∃ actor, z.Knows token actor ∧ z.model.isGranted actor.roles r a e = true ∧
        ∀ id, e = some id → ¬ z.Licensed ∨ z.collaborators.Assigned token id) ∧
    (((z.contextFor token).evaluate r a e).denial = none ↔
      ((z.contextFor token).evaluate r a e).allowed = true) ∧
    (∀ p, ((z.contextFor token).evaluate r a e).denial = some p →
      (∀ actor, ¬ z.Knows token actor) ∧ p.code = "unauthenticated" ∨
      ∃ actor, z.Knows token actor ∧
        (z.model.isGranted actor.roles r a e = false ∧ p.code = "forbidden" ∨
          z.model.isGranted actor.roles r a e = true ∧ p.code = "environment_denied")) ∧
    ((z.contextFor token).can r a e = true ↔
      ¬ z.Enforces ∨ ∃ actor, z.Knows token actor ∧ z.model.isGranted actor.roles r a e = true) ∧
    ((z.contextFor token).authorize r a e = .ok () ↔ (z.contextFor token).can r a e = true) ∧
    (∀ x, (z.contextFor token).authorize r a e = .error x ↔ z.Enforces ∧
      ((∀ actor, ¬ z.Knows token actor) ∧ x = .unauthenticated ∨ ∃ actor, z.Knows token actor ∧
        z.model.isGranted actor.roles r a e = false ∧ x = .forbidden r.name a.name e)) ∧
    ∀ id, ((z.contextFor token).authorizeEnvironment id = .ok () ↔
        ¬ z.Enforces ∨ ¬ z.Licensed ∨ z.collaborators.Assigned token id) ∧
      ∀ x, (z.contextFor token).authorizeEnvironment id = .error x ↔
        z.Enforces ∧ z.Licensed ∧ ¬ z.collaborators.Assigned token id ∧ x = .environmentDenied id := by
  refine ⟨evaluate_allowed_iff, Context.denial_eq_none, fun p shown => ?_, contextFor_can,
    Context.authorize_eq_ok, fun x => contextFor_authorize, fun id => ⟨?_, fun x => ?_⟩⟩
  · obtain ⟨x, denied, rfl⟩ := Context.denial_eq_some.mp shown
    cases (decision_eq_error.mp denied).2 with
    | nobody nobody => exact .inl ⟨nobody, rfl⟩
    | ungranted known missing => exact .inr ⟨_, known, .inl ⟨missing, rfl⟩⟩
    | unassigned known granted => exact .inr ⟨_, known, .inr ⟨granted, rfl⟩⟩
  · rw [Context.authorizeEnvironment_eq_ok, contextFor_open]
  · rw [Context.authorizeEnvironment_eq_error, contextFor_closed]
    tauto

end Authorizer

end FleetOps.Access
