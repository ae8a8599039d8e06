import FleetOps.Proofs.Calendar
import FleetOps.Proofs.Instant
import FleetOps.Proofs.Text.Numeral
import Mathlib.Data.Nat.Digits.Defs

set_option autoImplicit false

namespace FleetOps.Text

variable {n width : Nat} {ds rest : List Char}

theorem length_paddedDigits (wide : 0 < width) (fits : n < 10 ^ width) : (paddedDigits width n).length = width := by
  have short := Nat.toDigits_length 10 n width wide fits
  rw [paddedDigits, List.length_append, List.length_replicate]
  omega

theorem trimLeft_digits (nonempty : ds ≠ []) (digits : ∀ c ∈ ds, c.isDigit = true) :
    trimLeft (ds ++ rest) = ds ++ rest := by
  obtain ⟨c, ds, rfl⟩ := List.exists_cons_of_ne_nil nonempty
  exact trimLeft_visible (isBlank_digit (digits c List.mem_cons_self)) _

end FleetOps.Text

namespace FleetOps.Instant

open Text

variable {n width : Nat} {ds rest : List Char}

theorem takeWhile_digits (digits : ∀ c ∈ ds, c.isDigit = true) (stops : ∀ c ∈ rest.head?, c.isDigit = false) :
    (ds ++ rest).takeWhile Char.isDigit = ds := by
  rw [List.takeWhile_append_of_pos digits]
  cases rest with
  | nil => simp
  | cons c rest => simp [stops c rfl]

theorem readDigits_of (nonempty : ds ≠ []) (digits : ∀ c ∈ ds, c.isDigit = true) (short : ds.length ≤ width)
    (stops : ds.length = width ∨ ∀ c ∈ rest.head?, c.isDigit = false) :
    readDigits width (ds ++ rest) = some (digitsValue ds, rest) := by
  have taken : ((ds ++ rest).take width).takeWhile Char.isDigit = ds := by
    rw [List.take_append, List.take_of_length_le short]
    refine takeWhile_digits digits fun c head => ?_
    rcases stops with full | stops
    · simp [full] at head
    · cases rest with
      | nil => simp at head
      | cons d rest =>
        cases left : width - ds.length with
        | zero => simp [left] at head
        | succ k => exact stops c (by simpa [left] using head)
  have present : ds.isEmpty = false := by simpa using nonempty
  simp [readDigits, taken, present]

theorem readDigits_padded (wide : 0 < width) (fits : n < 10 ^ width) (rest : List Char) :
    readDigits width (paddedDigits width n ++ rest) = some (n, rest) := by
  have long := length_paddedDigits wide fits
  rw [readDigits_of (paddedDigits_ne_nil width n) (fun _ => isDigit_padded) (Nat.le_of_eq long) (.inl long),
    digitsValue_padded]

theorem readNumber_padded (wide : 0 < width) (fits : n < 10 ^ width) (rest : List Char) :
    readNumber width (paddedDigits width n ++ rest) = some (n, rest) := by
  rw [readNumber, trimLeft_digits (paddedDigits_ne_nil width n) fun _ => isDigit_padded]
  exact readDigits_padded wide fits rest

theorem readMark_self {mark : Char} (visible : isBlank mark = false) (rest : List Char) :
    readMark mark (mark :: rest) = some rest := by
  simp [readMark, trimLeft_visible visible]

def yearChars (year : Int) : List Char :=
  if 0 ≤ year ∧ year ≤ 9999 then paddedDigits 4 year.natAbs
  else (if 0 ≤ year then '+' else '-') :: paddedDigits 4 year.natAbs

theorem toList_text_date (d : CivilDate) : d.text.toList =
    yearChars d.year ++ '-' :: (paddedDigits 2 d.month ++ '-' :: paddedDigits 2 d.day) := by
  simp only [CivilDate.text, yearChars]
  split_ifs <;> simp [toList_padded]

theorem cons_ne_digits {c : Char} {rest' : List Char} (other : c.isDigit = false) (nonempty : ds ≠ [])
    (digits : ∀ c ∈ ds, c.isDigit = true) : ds ++ rest ≠ c :: rest' := by
  obtain ⟨d, ds, rfl⟩ := List.exists_cons_of_ne_nil nonempty
  intro same
  obtain rfl := (List.cons.inj same).1
  simp [digits d List.mem_cons_self] at other

theorem readYear_chars (year : Int) (rest : List Char) :
    readYear (yearChars year ++ '-' :: rest) = some (year, '-' :: rest) := by
  have digits (c : Char) (mem : c ∈ paddedDigits 4 year.natAbs) : c.isDigit = true := isDigit_padded mem
  have nonempty := paddedDigits_ne_nil 4 year.natAbs
  have long : readDigits (paddedDigits 4 year.natAbs ++ '-' :: rest).length
      (paddedDigits 4 year.natAbs ++ '-' :: rest) = some (year.natAbs, '-' :: rest) := by
    rw [readDigits_of nonempty digits (by simp) (.inr (by simp)), digitsValue_padded]
  unfold yearChars readYear
  split_ifs with four positive
  · have plain : readDigits 4 (paddedDigits 4 year.natAbs ++ '-' :: rest) = some (year.natAbs, '-' :: rest) :=
      readDigits_padded (by decide) (by omega) _
    rw [trimLeft_digits nonempty digits]
    split
    · next same => exact absurd same (cons_ne_digits rfl nonempty digits)
    · next same => exact absurd same (cons_ne_digits rfl nonempty digits)
    · simp only [plain, Option.map_some, Option.some.injEq, Prod.mk.injEq, and_true]
      omega
  · rw [List.cons_append, trimLeft_visible rfl]
    simp only [long, Option.map_some, Option.some.injEq, Prod.mk.injEq, and_true]
    omega
  · rw [List.cons_append, trimLeft_visible rfl]
    simp only [long, Option.map_some, Option.some.injEq, Prod.mk.injEq, and_true]
    omega

theorem readDate_text {d : CivilDate} (month : d.month < 100) (day : d.day < 100) (rest : List Char) :
    readDate (d.text.toList ++ rest) = some (d, rest) := by
  have dash : isBlank '-' = false := rfl
  rw [toList_text_date]
  simp only [readDate, List.append_assoc, List.cons_append, readYear_chars, Option.bind_eq_bind, Option.bind_some,
    readMark_self dash]
  rw [readNumber_padded (by decide) month, Option.bind_some, readMark_self rfl, Option.bind_some,
    readNumber_padded (by decide) day]
  rfl

theorem toList_clockText {t : Instant} (ordinary : t.nanos < 1000000000) : t.clockText.toList =
    paddedDigits 2 (t.secondOfDay / 3600) ++ ':' :: (paddedDigits 2 (t.secondOfDay / 60 % 60) ++
      ':' :: (paddedDigits 2 (t.secondOfDay % 60) ++ (fractionText t.nanos).toList)) := by
  have shown : ¬ 1000000000 ≤ t.nanos := Nat.not_le.mpr ordinary
  simp [clockText, shown, toList_padded]

theorem readFraction_text {nanos : Nat} (ordinary : nanos < 1000000000) :
    readFraction ((fractionText nanos).toList ++ ['Z']) = some (nanos, ['Z']) := by
  have read (places : Nat) (scale : Nat) (bound : 0 < places ∧ places ≤ 9) (fits : nanos / scale < 10 ^ places)
      (whole : nanos / scale * 10 ^ (9 - places) = nanos) :
      readFraction (("." ++ padded places (nanos / scale)).toList ++ ['Z']) = some (nanos, ['Z']) := by
    have long := length_paddedDigits bound.1 fits
    have kept : (paddedDigits places (nanos / scale) ++ ['Z']).takeWhile Char.isDigit =
        paddedDigits places (nanos / scale) := takeWhile_digits (fun _ => isDigit_padded) (by simp)
    have nonempty : (paddedDigits places (nanos / scale)).isEmpty = false := by
      simpa using paddedDigits_ne_nil places (nanos / scale)
    have all : (paddedDigits places (nanos / scale)).take 9 = paddedDigits places (nanos / scale) :=
      List.take_of_length_le (by omega)
    simp [readFraction, toList_padded, kept, nonempty, all, long, digitsValue_padded, whole]
  have small : nanos % 1000000000 = nanos := Nat.mod_eq_of_lt ordinary
  unfold fractionText
  simp only [small]
  split_ifs with zero millis micros
  · subst zero
    rfl
  · exact read 3 1000000 (by decide) (by omega) (by omega)
  · exact read 6 1000 (by decide) (by omega) (by omega)
  · have plain := read 9 1 (by decide) (by omega) (by omega)
    rwa [Nat.div_one] at plain

theorem readClock_text {t : Instant} (ordinary : t.nanos < 1000000000) :
    readClock (t.clockText.toList ++ ['Z']) = some (t.secondOfDay, t.nanos, ['Z']) := by
  have day : t.secondOfDay < 86400 := by
    have bound := Int.fmod_lt_of_pos t.seconds (b := 86400) (by decide)
    unfold secondOfDay
    omega
  rw [toList_clockText ordinary]
  simp only [readClock, List.append_assoc, List.cons_append]
  rw [readNumber_padded (by decide) (by omega)]
  simp only [Option.bind_eq_bind, Option.bind_some]
  rw [readMark_self rfl, Option.bind_some, readNumber_padded (by decide) (by omega), Option.bind_some,
    readMark_self rfl, Option.bind_some, readNumber_padded (by decide) (by omega), Option.bind_some,
    readFraction_text ordinary, Option.bind_some, if_pos (by omega)]
  simp only [Option.some.injEq, Prod.mk.injEq, and_true]
  omega

theorem isValid_year {t : Instant} :
    t.isValid = true ↔ CivilDate.firstYear ≤ t.date.year ∧ t.date.year ≤ CivilDate.lastYear := by
  simp [isValid]

theorem isValid_iff {t : Instant} :
    t.isValid = true ↔ -8334601228800 ≤ t.seconds ∧ t.seconds < 8210266876800 := by
  obtain ⟨least, most⟩ := CivilDate.year_ofDays (Int.fdiv t.seconds 86400)
  rw [isValid_year, date, least, most, Int.fdiv_eq_ediv_of_nonneg _ (by decide)]
  omega

theorem minusDays?_eq_some {t u : Instant} {days : Nat} (valid : t.isValid = true) :
    t.minusDays? days = some u ↔
      -8334601228800 ≤ t.seconds - days * 86400 ∧ u = { t with seconds := t.seconds - days * 86400 } := by
  have upper := (isValid_iff.mp valid).2
  have earlier : Instant.isValid { t with seconds := t.seconds - days * 86400 } = true ↔
      -8334601228800 ≤ t.seconds - days * 86400 := by
    rw [isValid_iff]
    dsimp only
    omega
  simp only [minusDays?, Option.ite_none_right_eq_some, earlier, Option.some.injEq]
  exact and_congr_right fun _ => eq_comm

theorem toList_text (t : Instant) :
    t.text.toList = t.date.text.toList ++ 'T' :: (t.clockText.toList ++ ['Z']) := by
  simp [text]

theorem read?_text {t : Instant} (valid : t.isValid = true) (ordinary : t.nanos < 1000000000) :
    read? t.text = some t := by
  obtain ⟨firstMonth, lastMonth, firstDay, lastDay⟩ := CivilDate.ofDays_inMonth (Int.fdiv t.seconds 86400)
  obtain ⟨firstYear, lastYear⟩ := isValid_year.mp valid
  have dated : t.date.isValid = true := by
    simp only [CivilDate.isValid, Bool.and_eq_true, decide_eq_true_eq]
    exact ⟨⟨⟨⟨⟨firstYear, lastYear⟩, firstMonth⟩, lastMonth⟩, firstDay⟩, lastDay⟩
  have short (year : Int) (month : Nat) : CivilDate.daysInMonth year month ≤ 31 := by
    unfold CivilDate.daysInMonth
    split <;> (try split) <;> omega
  have month : t.date.month < 100 := Nat.lt_of_le_of_lt lastMonth (by decide)
  have day : t.date.day < 100 := Nat.lt_of_le_of_lt (Nat.le_trans lastDay (short _ _)) (by decide)
  have zone : readZone ['Z'] = some (0, []) := by rfl
  have same : ofDate t.date t.secondOfDay t.nanos = t := by
    have parts := Int.fmod_add_mul_fdiv t.seconds 86400
    have least := Int.fmod_nonneg_of_pos t.seconds (b := 86400) (by decide)
    rw [eq_iff]
    simp only [ofDate, date, CivilDate.toDays_ofDays, secondOfDay, and_true]
    omega
  have mark : isDateEnd 'T' = true := by rfl
  have done : trimLeft [] = [] := by rfl
  simp only [read?, toList_text, readDate_text month day, readClock_text ordinary, zone, Option.bind_eq_bind,
    Option.bind_some, mark, dated, Bool.not_true, Bool.or_self, Bool.false_eq_true, if_false, done,
    List.isEmpty_nil, if_true, same, Int.sub_zero, valid]

end FleetOps.Instant
