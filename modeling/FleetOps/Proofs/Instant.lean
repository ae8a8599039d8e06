import FleetOps.Instant

set_option autoImplicit false

namespace FleetOps.Instant

variable {a b c : Instant}

theorem before_iff :
    a.before b = true ↔ a.seconds < b.seconds ∨ a.seconds = b.seconds ∧ a.nanos < b.nanos := by
  simp [before]

theorem eq_iff : a = b ↔ a.seconds = b.seconds ∧ a.nanos = b.nanos := by
  cases a
  cases b
  simp

theorem atMost_iff : a.atMost b = true ↔ a = b ∨ a.before b = true := by
  rw [atMost, Bool.not_eq_true', ← Bool.not_eq_true, before_iff, before_iff, eq_iff]
  omega

theorem before_trans (ab : a.before b = true) (bc : b.before c = true) : a.before c = true := by
  rw [before_iff] at *
  omega

theorem max_before_iff : (a.max b).before c = true ↔ a.before c = true ∧ b.before c = true := by
  unfold max
  split <;> simp only [before_iff] at * <;> omega

theorem before_max_iff : c.before (a.max b) = true ↔ c.before a = true ∨ c.before b = true := by
  unfold max
  split <;> simp only [before_iff] at * <;> omega

theorem max_atMost_iff : (a.max b).atMost c = true ↔ a.atMost c = true ∧ b.atMost c = true := by
  unfold max
  split <;> simp only [before_iff, atMost_iff, eq_iff] at * <;> omega

end FleetOps.Instant
