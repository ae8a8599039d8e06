import FleetOps.Proofs.Scheduler.Registry
import FleetOps.Proofs.Scheduler.Schedules
import FleetOps.Scheduler.Toggle

set_option autoImplicit false

namespace FleetOps.Scheduler

inductive ToggleSteps (s : Scheduler) (t : Toggle) : Toggle → Scheduler → Prop where
  | unread {e : SchedulerError} {s' : Scheduler} (here : t.phase = .asked)
      (call : s.describe t.key = (.error e, s')) : ToggleSteps s t (t.rejectedAs false e) s'
  | unknown {s' : Scheduler} (here : t.phase = .asked) (call : s.describe t.key = (.ok none, s')) :
      ToggleSteps s t (t.rejectedAs false t.missing) s'
  | fixed {d : Descriptor} {s' : Scheduler} (here : t.phase = .asked)
      (call : s.describe t.key = (.ok (some d), s')) (off : t.enabled = false)
      (stays : t.key.kind.canDisable = false) :
      ToggleSteps s t (t.rejectedAs d.enabled (.cannotDisableSystemJob t.key.id.text)) s'
  | found {d : Descriptor} {s' : Scheduler} (here : t.phase = .asked)
      (call : s.describe t.key = (.ok (some d), s'))
      (may : t.enabled = true ∨ t.key.kind.canDisable = true) :
      ToggleSteps s t (t.at (.known d.enabled)) s'
  | unset {current : Bool} {e : SchedulerError} {s' : Scheduler} (here : t.phase = .known current)
      (call : s.setEnabled t.key t.enabled = (.error e, s')) :
      ToggleSteps s t (t.rejectedAs current e) s'
  | vanished {current : Bool} {s' : Scheduler} (here : t.phase = .known current)
      (call : s.setEnabled t.key t.enabled = (.ok none, s')) :
      ToggleSteps s t (t.rejectedAs current t.missing) s'
  | set {current : Bool} {d : Descriptor} {s' : Scheduler} (here : t.phase = .known current)
      (call : s.setEnabled t.key t.enabled = (.ok (some d), s')) : ToggleSteps s t (t.at .written) s'
  | lost {e : SchedulerError} {s' : Scheduler} (here : t.phase = .written) (on : t.enabled = true)
      (call : s.describe t.key = (.error e, s')) : ToggleSteps s t (t.rejectedAs true e) s'
  | gone {s' : Scheduler} (here : t.phase = .written) (on : t.enabled = true)
      (call : s.describe t.key = (.ok none, s')) : ToggleSteps s t (t.rejectedAs true t.missing) s'
  | reread {d : Descriptor} {s' : Scheduler} (here : t.phase = .written) (on : t.enabled = true)
      (call : s.describe t.key = (.ok (some d), s')) : ToggleSteps s t (t.at (.reread d)) s'
  | forget (here : t.phase = .written) (off : t.enabled = false) :
      ToggleSteps s t t.done { s with registry := s.registry.disarm t.key }
  | refused {d : Descriptor} {e : SchedulerError} {r : Registry} (here : t.phase = .reread d)
      (call : s.registry.follow t.key d none s.clock = (.error e, r)) :
      ToggleSteps s t (t.rejectedAs true e) { s with registry := r }
  | followed {d : Descriptor} {armed : Bool} {r : Registry} (here : t.phase = .reread d)
      (call : s.registry.follow t.key d none s.clock = (.ok armed, r)) :
      ToggleSteps s t t.done { s with registry := r }
  | rest {result : ToggleResult} (here : t.phase = .answered result) : ToggleSteps s t t s

theorem steps_stepToggle (s : Scheduler) (t : Toggle) :
    s.ToggleSteps t (s.stepToggle t).1 (s.stepToggle t).2 := by
  unfold stepToggle
  cases here : t.phase with
  | asked =>
    dsimp only
    split
    · next call => exact .unread here call
    · next call => exact .unknown here call
    · next d s' call =>
      split
      · next stays =>
        have stays : t.enabled = false ∧ t.key.kind.canDisable = false := by simpa using stays
        exact .fixed here call stays.1 stays.2
      · next may =>
        refine .found here call ?_
        cases enabled : t.enabled <;> simp_all
  | known current =>
    dsimp only
    split
    · next call => exact .unset here call
    · next call => exact .vanished here call
    · next call => exact .set here call
  | written =>
    dsimp only
    split
    · next on =>
      split
      · next call => exact .lost here on call
      · next call => exact .gone here on call
      · next call => exact .reread here on call
    · next off => exact .forget here (Bool.eq_false_of_not_eq_true off)
  | reread d =>
    dsimp only
    split
    · next call => exact .refused here call
    · next call => exact .followed here call
  | answered result => exact .rest here

variable {s s' : Scheduler} {t t' : Toggle}

theorem ToggleSteps.same (steps : s.ToggleSteps t t' s') : t'.key = t.key ∧ t'.enabled = t.enabled := by
  cases steps <;> exact ⟨rfl, rfl⟩

theorem advanceToggle_same (n : Nat) (s : Scheduler) (t : Toggle) :
    (advanceToggle n s t).1.key = t.key ∧ (advanceToggle n s t).1.enabled = t.enabled := by
  induction n generalizing s t with
  | zero => exact ⟨rfl, rfl⟩
  | succ n ih =>
    have first := (s.steps_stepToggle t).same
    have rest := ih (s.stepToggle t).2 (s.stepToggle t).1
    exact ⟨rest.1.trans first.1, rest.2.trans first.2⟩

theorem ToggleSteps.rank (steps : s.ToggleSteps t t' s') : t'.phase.rank ≤ t.phase.rank - 1 := by
  cases steps <;> simp [*, TogglePhase.rank, Toggle.rejectedAs, Toggle.at, Toggle.done]

theorem advanceToggle_answered (n : Nat) (s : Scheduler) (t : Toggle) (enough : t.phase.rank ≤ n) :
    ∃ result, (advanceToggle n s t).1.phase = .answered result := by
  induction n generalizing s t with
  | zero =>
    cases here : t.phase with
    | answered result => exact ⟨result, here⟩
    | _ => simp [here, TogglePhase.rank] at enough
  | succ n ih =>
    have lower := (s.steps_stepToggle t).rank
    exact ih (s.stepToggle t).2 (s.stepToggle t).1 (by omega)

theorem ToggleSteps.tended (steps : s.ToggleSteps t t' s') :
    s.registry.Tended s.clock s'.registry ∧ s'.clock = s.clock := by
  have described := s.describe_same t.key
  have set := s.setEnabled_registry t.key t.enabled
  have follow (d : Descriptor) := Registry.Tended.follow s.registry t.key d none s.clock
  cases steps with
  | forget => exact ⟨.disarm .same t.key, rfl⟩
  | rest => exact ⟨.same, rfl⟩
  | unread _ call | unknown _ call | fixed _ call | found _ call | lost _ _ call | gone _ _ call
  | reread _ _ call =>
    rw [call] at described
    rw [described.registry]
    exact ⟨.same, described.clock⟩
  | unset _ call | vanished _ call | set _ call =>
    rw [call] at set
    rw [set.1]
    exact ⟨.same, set.2⟩
  | @refused d e r here call => exact ⟨by simpa [call] using follow d, rfl⟩
  | @followed d armed r here call => exact ⟨by simpa [call] using follow d, rfl⟩

end FleetOps.Scheduler
