import FleetOps.Instant
import Mathlib.Tactic.IntervalCases

set_option autoImplicit false

namespace FleetOps.CivilDate

variable {era century period year day days : Int}

/-- A day of an era of 400 years: its century, its period of four years, the year in that, and the day. -/
structure EraDay (century period year day : Int) : Prop where
  centuries : 0 ≤ century ∧ century ≤ 3
  periods : 0 ≤ period ∧ period ≤ 24
  years : 0 ≤ year ∧ year ≤ 3
  days : 0 ≤ day ∧ day ≤ 364 ∨ day = 365 ∧ year = 3 ∧ (period ≠ 24 ∨ century = 3)

-- The last century and the last year of a period are a day longer than the others.
theorem exists_eraDay {dayOfEra : Int} (low : 0 ≤ dayOfEra) (high : dayOfEra < 146097) :
    ∃ century period year day, EraDay century period year day ∧
      dayOfEra = 36524 * century + 1461 * period + 365 * year + day := by
  obtain ⟨c, hc, least, most⟩ : ∃ c, (0 ≤ c ∧ c ≤ 3) ∧ 36524 * c ≤ dayOfEra ∧
      (dayOfEra < 36524 * (c + 1) ∨ c = 3) := by
    by_cases last : dayOfEra = 146096
    · exact ⟨3, by omega, by omega, by omega⟩
    · exact ⟨dayOfEra / 36524, by omega, by omega, by omega⟩
  obtain ⟨rest, hrest⟩ : ∃ rest, rest = dayOfEra - 36524 * c := ⟨_, rfl⟩
  obtain ⟨p, hp, least', most'⟩ : ∃ p, (0 ≤ p ∧ p ≤ 24) ∧ 1461 * p ≤ rest ∧ rest < 1461 * (p + 1) :=
    ⟨rest / 1461, by omega, by omega, by omega⟩
  obtain ⟨y, hy, least'', most''⟩ : ∃ y, (0 ≤ y ∧ y ≤ 3) ∧ 365 * y ≤ rest - 1461 * p ∧
      (rest - 1461 * p < 365 * (y + 1) ∨ y = 3) := by
    by_cases last : rest - 1461 * p = 1460
    · exact ⟨3, by omega, by omega, by omega⟩
    · exact ⟨(rest - 1461 * p) / 365, by omega, by omega, by omega⟩
  exact ⟨c, p, y, rest - 1461 * p - 365 * y, ⟨hc, hp, hy, by omega⟩, by omega⟩

namespace EraDay

theorem yearOfEra (split : EraDay century period year day) {dayOfEra : Int}
    (total : dayOfEra = 36524 * century + 1461 * period + 365 * year + day) :
    (dayOfEra - dayOfEra / 1460 + dayOfEra / 36524 - dayOfEra / 146096) / 365 =
      100 * century + 4 * period + year := by
  obtain ⟨hc, hp, hy, hd⟩ := split
  -- Each of the counts is right, or it is one ahead on the last days of what it counts.
  have leaps : dayOfEra / 1460 = 25 * century + period ∨ dayOfEra / 1460 = 25 * century + period + 1 := by omega
  have centuries : dayOfEra / 36524 = century ∨ dayOfEra / 36524 = century + 1 := by omega
  have eras : dayOfEra / 146096 = 0 ∨ dayOfEra / 146096 = 1 := by omega
  rcases leaps with h | h <;> rcases centuries with h' | h' <;> rcases eras with h'' | h'' <;>
    rw [h, h', h''] <;> omega

theorem leapYears (split : EraDay century period year day) :
    (100 * century + 4 * period + year) / 4 = 25 * century + period ∧
      (100 * century + 4 * period + year) / 100 = century := by
  obtain ⟨hc, hp, hy, -⟩ := split
  omega

theorem isLeap (split : EraDay century period year day) (last : day = 365) (era : Int) :
    isLeap (400 * era + (100 * century + 4 * period + year) + 1) = true := by
  obtain ⟨hc, hp, hy, hd⟩ := split
  simp only [CivilDate.isLeap, Bool.and_eq_true, Bool.or_eq_true, decide_eq_true_eq]
  omega

end EraDay

def fromMarch (year day : Int) : CivilDate :=
  let monthFromMarch := (5 * day + 2) / 153
  let month := if monthFromMarch < 10 then monthFromMarch + 3 else monthFromMarch - 9
  { year := if month ≤ 2 then year + 1 else year, month := month.toNat,
    day := (day - (153 * monthFromMarch + 2) / 5 + 1).toNat }

theorem ofDays_eq (split : EraDay century period year day)
    (total : days + 719468 = 146097 * era + (36524 * century + 1461 * period + 365 * year + day)) :
    ofDays days = fromMarch (400 * era + (100 * century + 4 * period + year)) day := by
  obtain ⟨hc, hp, hy, hd⟩ := id split
  have hera : Int.fdiv (days + 719468) 146097 = era := by
    rw [Int.fdiv_eq_ediv_of_nonneg _ (by decide)]
    omega
  have dayOfEra : days + 719468 - era * 146097 = 36524 * century + 1461 * period + 365 * year + day := by omega
  have yearOfEra := split.yearOfEra rfl
  obtain ⟨leaps, centuries⟩ := split.leapYears
  have dayOfYear : 36524 * century + 1461 * period + 365 * year + day -
      (365 * (100 * century + 4 * period + year) + (25 * century + period) - century) = day := by omega
  have whole : 100 * century + 4 * period + year + era * 400 =
      400 * era + (100 * century + 4 * period + year) := by omega
  simp only [ofDays, fromMarch, hera, dayOfEra, yearOfEra, leaps, centuries, dayOfYear, whole]

theorem exists_march (days : Int) : ∃ era century period year day : Int, EraDay century period year day ∧
    days + 719468 = 146097 * era + (36524 * century + 1461 * period + 365 * year + day) ∧
    ofDays days = fromMarch (400 * era + (100 * century + 4 * period + year)) day := by
  have low : 0 ≤ (days + 719468) % 146097 := by omega
  have high : (days + 719468) % 146097 < 146097 := by omega
  obtain ⟨century, period, year, day, split, parts⟩ := exists_eraDay low high
  have total : days + 719468 = 146097 * ((days + 719468) / 146097) +
      (36524 * century + 1461 * period + 365 * year + day) := by omega
  exact ⟨_, century, period, year, day, split, total, ofDays_eq split total⟩

theorem month_bounds (low : 0 ≤ day) (high : day ≤ 365) : 0 ≤ (5 * day + 2) / 153 ∧ (5 * day + 2) / 153 ≤ 11 := by
  omega

theorem toDays_fromMarch (low : 0 ≤ year) (high : year ≤ 399) (first : 0 ≤ day) (last : day ≤ 365) :
    (fromMarch (400 * era + year) day).toDays =
      146097 * era + (365 * year + year / 4 - year / 100) + day - 719468 := by
  have hera : Int.fdiv (400 * era + year) 400 = era := by
    rw [Int.fdiv_eq_ediv_of_nonneg _ (by decide)]
    omega
  have bounds := month_bounds first last
  unfold fromMarch toDays
  generalize hm : (5 * day + 2) / 153 = month at bounds
  obtain ⟨least, most⟩ := bounds
  interval_cases month <;> simp [hera] <;> omega

theorem fromMarch_inMonth (first : 0 ≤ day) (last : day ≤ 365) (leap : day = 365 → isLeap (year + 1) = true) :
    1 ≤ (fromMarch year day).month ∧ (fromMarch year day).month ≤ 12 ∧ 1 ≤ (fromMarch year day).day ∧
      (fromMarch year day).day ≤ daysInMonth (fromMarch year day).year (fromMarch year day).month := by
  have bounds := month_bounds first last
  unfold fromMarch
  generalize hm : (5 * day + 2) / 153 = month at bounds
  obtain ⟨least, most⟩ := bounds
  interval_cases month
  case «11» =>
    rcases (by omega : day = 365 ∨ day ≤ 364) with rfl | short
    · simp [daysInMonth, leap rfl]
    · simp only [daysInMonth]
      split <;> simp <;> omega
  all_goals simp [daysInMonth]; omega

theorem toDays_ofDays (days : Int) : (ofDays days).toDays = days := by
  obtain ⟨era, century, period, year, day, split, total, same⟩ := exists_march days
  obtain ⟨hc, hp, hy, hd⟩ := id split
  obtain ⟨leaps, centuries⟩ := split.leapYears
  rw [same, toDays_fromMarch (by omega) (by omega) (by omega) (by omega), leaps, centuries]
  omega

theorem ofDays_inMonth (days : Int) : 1 ≤ (ofDays days).month ∧ (ofDays days).month ≤ 12 ∧
    1 ≤ (ofDays days).day ∧ (ofDays days).day ≤ daysInMonth (ofDays days).year (ofDays days).month := by
  obtain ⟨era, century, period, year, day, split, -, same⟩ := exists_march days
  have leap (last : day = 365) := split.isLeap last era
  obtain ⟨-, -, -, hd⟩ := split
  rw [same]
  exact fromMarch_inMonth (by omega) (by omega) leap

theorem year_ofDays (days : Int) : (firstYear ≤ (ofDays days).year ↔ -96465292 ≤ days) ∧
    ((ofDays days).year ≤ lastYear ↔ days < 95026237) := by
  obtain ⟨era, century, period, year, day, split, total, same⟩ := exists_march days
  obtain ⟨hc, hp, hy, hd⟩ := split
  have civil : (ofDays days).year =
      400 * era + (100 * century + 4 * period + year) + if day < 306 then 0 else 1 := by
    rw [same, fromMarch]
    split <;> simp <;> omega
  rw [civil]
  unfold firstYear lastYear
  split <;> constructor <;> omega

end FleetOps.CivilDate
