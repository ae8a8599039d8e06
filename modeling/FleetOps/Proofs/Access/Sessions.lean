import FleetOps.Proofs.Access.FailClosed
import FleetOps.Proofs.Access.Loading
import FleetOps.Settings.Validation

set_option autoImplicit false

namespace FleetOps

namespace Report

theorem isValid_iff {r : Report} : r.isValid = true ↔ r.errors = [] := by
  simp [isValid]

theorem errors_append (a b : Report) : (a.append b).errors = a.errors ++ b.errors :=
  rfl

theorem warnings_append (a b : Report) : (a.append b).warnings = a.warnings ++ b.warnings :=
  rfl

theorem all_eq (rs : List Report) : all rs = ⟨rs.flatMap (·.errors), rs.flatMap (·.warnings)⟩ := by
  have collect (start : Report) : rs.foldl append start =
      ⟨start.errors ++ rs.flatMap (·.errors), start.warnings ++ rs.flatMap (·.warnings)⟩ := by
    induction rs generalizing start with
    | nil => simp
    | cons r rest ih => simp [ih, append]
  exact collect {}

theorem errors_all (rs : List Report) : (all rs).errors = rs.flatMap (·.errors) := by
  rw [all_eq]

theorem warnings_all (rs : List Report) : (all rs).warnings = rs.flatMap (·.warnings) := by
  rw [all_eq]

theorem errors_errorIf {condition : Bool} {path message : String} :
    (errorIf condition path message).errors = [] ↔ condition = false := by
  cases condition <;> simp [errorIf, error]

theorem errors_warningIf (condition : Bool) (path message : String) :
    (warningIf condition path message).errors = [] := by
  cases condition <;> rfl

theorem warnings_errorIf (condition : Bool) (path message : String) :
    (errorIf condition path message).warnings = [] := by
  cases condition <;> rfl

theorem mem_warnings_warningIf {condition : Bool} {path message : String} {f : Finding} :
    f ∈ (warningIf condition path message).warnings ↔ condition = true ∧ f = ⟨path, message⟩ := by
  cases condition <;> simp [warningIf, warning]

end Report

namespace Validation

open Report

variable {s : Settings} {earlier : List String} {i : Nat} {u : UserSettings} {users : List UserSettings}

def tokens (users : List UserSettings) : List String :=
  users.flatMap (·.token.toList)

theorem checkUser_errors : (checkUser s earlier i u).errors = [] ↔
    isBlankText u.name = false ∧ ∀ t, u.token = some t → t ∉ earlier := by
  have free : (u.token.any earlier.contains) = false ↔ ∀ t, u.token = some t → t ∉ earlier := by
    cases u.token <;> simp
  have roles (path : String) : (u.roles.map (undefinedRole s.auth path)).flatMap (·.errors) = [] := by
    simp [List.flatMap_eq_nil_iff, undefinedRole, errors_warningIf]
  simp only [checkUser, errors_all, List.flatMap_append, List.append_eq_nil_iff, List.flatMap_cons,
    List.flatMap_nil, errors_errorIf, errors_warningIf, roles, free, and_true]

theorem checkUsers_errors : (checkUsers s earlier i users).errors = [] ↔
    (∀ u ∈ users, isBlankText u.name = false) ∧ (tokens users).Nodup ∧
      ∀ t ∈ tokens users, t ∉ earlier := by
  induction users generalizing earlier i with
  | nil => simp [checkUsers, tokens]
  | cons u rest ih =>
    simp only [checkUsers, errors_append, List.append_eq_nil_iff, checkUser_errors, ih]
    cases token : u.token with
    | none => simp [tokens, token, and_assoc]
    | some t =>
      simp only [tokens, token, Option.toList_some, List.flatMap_cons, List.singleton_append,
        List.nodup_cons, List.forall_mem_cons, List.mem_append, List.mem_singleton, Option.some.injEq]
      grind

theorem byName_perm (roles : List (String × RoleSettings)) : (byName roles).Perm roles :=
  List.mergeSort_perm roles _

end Validation

namespace Settings

open Validation

variable {s : Settings}

theorem validate_tokens (valid : s.validate.errors = []) : (tokens s.auth.users).Nodup := by
  simp only [validate, checkAuth, Report.errors_all, List.flatMap_cons, List.flatMap_nil,
    List.append_eq_nil_iff] at valid
  exact (checkUsers_errors.mp valid.1.2.2.1).2.1

theorem fullReport_valid (valid : s.fullReport.isValid = true) :
    (tokens s.auth.users).Nodup ∧ ∃ m, Access.Model.ofSettings s.auth = .ok m := by
  rw [Report.isValid_iff, fullReport, Report.errors_append, List.append_eq_nil_iff] at valid
  obtain ⟨structural, built⟩ := valid
  refine ⟨validate_tokens structural, _, Access.Model.ofSettings_eq_ok.mpr ⟨?_, rfl⟩⟩
  intro p declared g listed
  have checked : faultyRole p = none :=
    List.filterMap_eq_nil_iff.mp (List.append_eq_nil_iff.mp built).1 p
      ((byName_perm _).mem_iff.mpr declared)
  unfold faultyRole at checked
  cases built : Access.Model.empty.roleOfSettings p.1 p.2 with
  | error e => simp [built] at checked
  | ok m => exact (Access.Model.roleOfSettings_eq_ok.mp built).1 g listed

end Settings

theorem Validation.checkLogging_default : checkLogging {} = {} := by
  simp [checkLogging, logLevels, Report.errorIf]

namespace Access

variable {users : List UserSettings} {u v : UserSettings} {t : String}

def LastOfName (users : List UserSettings) (v : UserSettings) : Prop :=
  ∃ before after, users = before ++ v :: after ∧ ∀ w ∈ after, w.name ≠ v.name

theorem lastUser?_eq_some {chosen : UserSettings → Bool} :
    lastUser? users chosen = some v ↔ chosen v = true ∧
      ∃ before after, users = before ++ v :: after ∧ ∀ w ∈ after, chosen w = false :=
  find?_reverse_eq_some

theorem lastUser?_named : lastUser? users (·.name = u.name) = some v ↔
    v.name = u.name ∧ LastOfName users v := by
  rw [lastUser?_eq_some, decide_eq_true_eq]
  refine and_congr_right fun same => ?_
  simp only [LastOfName, same, decide_eq_false_iff_not, ne_eq]

theorem exists_lastOfName (listed : u ∈ users) :
    ∃ v, lastUser? users (·.name = u.name) = some v ∧ v.name = u.name ∧ LastOfName users v := by
  cases found : lastUser? users (·.name = u.name) with
  | none =>
    have absent := List.find?_eq_none.mp found u (List.mem_reverse.mpr listed)
    simp at absent
  | some v => exact ⟨v, rfl, lastUser?_named.mp found⟩

theorem lastUser?_token (apart : (Validation.tokens users).Nodup) (listed : u ∈ users)
    (token : u.token = some t) : lastUser? users (·.token = some t) = some u := by
  obtain ⟨before, after, rfl⟩ := List.append_of_mem listed
  refine lastUser?_eq_some.mpr ⟨by simpa using token, before, after, rfl, fun w later => ?_⟩
  have other : t ∉ Validation.tokens after := by
    simp only [Validation.tokens, List.flatMap_append, List.flatMap_cons, token, Option.toList_some,
      List.nodup_append, List.singleton_append, List.nodup_cons] at apart
    exact apart.2.1.1
  rw [decide_eq_false_iff_not]
  intro same
  exact other (List.mem_flatMap.mpr ⟨w, later, by simp [same]⟩)

section

variable {auth : AuthSettings} {license : LicenseSettings} {z : Authorizer}

theorem Authorizer.ofSettings_eq_ok : Authorizer.ofSettings auth license = .ok z ↔
    ∃ m, Model.ofSettings auth = .ok m ∧ z = ⟨m, .ofSettings auth license⟩ := by
  unfold Authorizer.ofSettings
  rw [bind_eq_ok]
  refine exists_congr fun m => and_congr_right fun _ => ?_
  exact ⟨fun same => (Except.ok.inj same).symm, fun same => congrArg Except.ok same.symm⟩

theorem ofSettings_collaborators (built : Authorizer.ofSettings auth license = .ok z) :
    z.collaborators = .ofSettings auth license := by
  obtain ⟨m, -, rfl⟩ := Authorizer.ofSettings_eq_ok.mp built
  rfl

variable (apart : (Validation.tokens auth.users).Nodup)
  (built : Authorizer.ofSettings auth license = .ok z) (listed : u ∈ auth.users)
  (token : u.token = some t)

include apart built listed token

theorem session_of_token : z.collaborators.session t = .ok (some ⟨some u.name, u.roles⟩) := by
  rw [ofSettings_collaborators built, Collaborators.ofSettings]
  simp only [lastUser?_token apart listed token, Option.map_some]

theorem session_actor : (z.contextFor (some t)).actor = some ⟨some u.name, u.roles⟩ :=
  Collaborators.actor_eq_some.mpr ⟨t, rfl, session_of_token apart built listed token⟩

theorem session_assigned (same : v.name = u.name) (last : LastOfName auth.users v) (e : EnvironmentId) :
    z.collaborators.Assigned (some t) e ↔ e ∈ v.environments := by
  have session := session_of_token apart built listed token
  have directory : z.collaborators.directory u.name = .ok v.environments := by
    rw [ofSettings_collaborators built, Collaborators.ofSettings]
    simp only [lastUser?_named.mpr ⟨same, last⟩, Option.map_some, Option.getD_some]
  constructor
  · rintro ⟨_, actor, user, environments, sent, known, id, found, mem⟩
    cases sent
    cases session.symm.trans known
    cases id
    cases directory.symm.trans found
    exact mem
  · intro mem
    exact ⟨t, _, _, _, rfl, session, rfl, directory, mem⟩

theorem session_canAccess (enforced : auth.enabled = true) (enterprise : license.enterprise = true)
    (same : v.name = u.name) (last : LastOfName auth.users v) (e : EnvironmentId) :
    (z.contextFor (some t)).canAccess e = true ↔ e ∈ v.environments := by
  have assigned := session_assigned apart built listed token same last e
  have collaborators := ofSettings_collaborators built
  have on : z.collaborators.authEnabled ≠ .ok false := by
    simp [collaborators, Collaborators.ofSettings, enforced]
  have licensed : z.collaborators.enterprise = .ok true := by
    simp [collaborators, Collaborators.ofSettings, enterprise]
  have denied := @canAccess_eq_false z (some t) e
  rw [← Bool.not_eq_false, denied, assigned]
  tauto

end

/-- Whoever comes with a user's token is that user, but sees the environments of the last entry of that
name. -/
theorem rights_of_session {s : Settings} (valid : s.fullReport.isValid = true)
    (enforced : s.auth.enabled = true) (enterprise : s.license.enterprise = true)
    (listed : u ∈ s.auth.users) (token : u.token = some t) :
    ∃ z, Authorizer.ofSettings s.auth s.license = .ok z ∧
      (z.contextFor (some t)).actor = some ⟨some u.name, u.roles⟩ ∧
      ((∀ e, (z.contextFor (some t)).canAccess e = true ↔ e ∈ u.environments) ↔
        ∀ v, v.name = u.name → LastOfName s.auth.users v →
          ∀ e, e ∈ v.environments ↔ e ∈ u.environments) := by
  obtain ⟨apart, m, loaded⟩ := s.fullReport_valid valid
  have built : Authorizer.ofSettings s.auth s.license = .ok ⟨m, .ofSettings s.auth s.license⟩ := by
    simp [Authorizer.ofSettings, loaded, bind, Except.bind, pure, Except.pure]
  refine ⟨_, built, session_actor apart built listed token, ?_⟩
  constructor
  · intro own v same last e
    rw [← own, session_canAccess apart built listed token enforced enterprise same last]
  · intro own e
    obtain ⟨v, -, same, last⟩ := exists_lastOfName listed
    rw [session_canAccess apart built listed token enforced enterprise same last, own v same last]

def namesakes : Settings where
  auth :=
    { enabled := true
      users :=
        [{ name := "alice", token := some "t1", environments := [1] },
         { name := "alice", token := some "t2", environments := [2] }] }
  license := { enterprise := true }

theorem namesakes_valid : namesakes.fullReport.isValid = true := by
  have logging : Validation.checkLogging namesakes.logging = {} := Validation.checkLogging_default
  rw [Settings.fullReport, Settings.validate, logging]
  decide +kernel

theorem rights_of_namesakes :
    namesakes.fullReport.isValid = true ∧
      ∃ z, Authorizer.ofSettings namesakes.auth namesakes.license = .ok z ∧
        (z.contextFor (some "t2")).actor = some ⟨some "alice", []⟩ ∧
        ∀ e, (z.contextFor (some "t2")).canAccess e = true ↔ e ∈ [2] := by
  let u : UserSettings := { name := "alice", token := some "t2", environments := [2] }
  have listed : u ∈ namesakes.auth.users := by decide
  have last : lastUser? namesakes.auth.users (·.name = u.name) = some u := by decide
  obtain ⟨z, built, actor, own⟩ := rights_of_session namesakes_valid rfl rfl listed rfl
  refine ⟨namesakes_valid, z, built, actor, own.mpr fun v same named => ?_⟩
  cases last.symm.trans (lastUser?_named.mpr ⟨same, named⟩)
  exact fun _ => Iff.rfl

theorem namesake_sees_other :
    namesakes.fullReport.isValid = true ∧
      ∃ z, Authorizer.ofSettings namesakes.auth namesakes.license = .ok z ∧
        (z.contextFor (some "t1")).canAccess 1 = false ∧
        (z.contextFor (some "t1")).canAccess 2 = true := by
  refine ⟨namesakes_valid, _, rfl, ?_, ?_⟩ <;> decide

end Access

end FleetOps
