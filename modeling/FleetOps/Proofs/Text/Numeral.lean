import FleetOps.Proofs.Text.Blank
import FleetOps.Text.Numeral
import Mathlib.Data.List.Basic
import Mathlib.Tactic.SplitIfs

set_option autoImplicit false

namespace FleetOps.Text

variable {n bound : Nat} {cs : List Char}

theorem isDigit_toDigits {c : Char} (mem : c ∈ Nat.toDigits 10 n) : c.isDigit = true :=
  Nat.isDigit_of_mem_toDigits (by decide) (by decide) mem

theorem head_toDigits (positive : 0 < n) : (Nat.toDigits 10 n).head? ≠ some '0' := by
  induction n using Nat.strongRecOn with
  | _ n ih =>
    by_cases small : n < 10
    · have nonzero : n ≠ 0 := by omega
      simpa [Nat.toDigits_of_lt_base small] using nonzero
    · rw [Nat.toDigits_of_base_le (by decide) (by omega), List.head?_append_of_ne_nil _ Nat.toDigits_ne_nil]
      exact ih (n / 10) (by omega) (by omega)

theorem digitsValue_append (as bs : List Char) :
    digitsValue (as ++ bs) = bs.foldl (fun n c => 10 * n + digitValue c) (digitsValue as) := by
  simp [digitsValue]

theorem digitsValue_toDigits (n : Nat) : digitsValue (Nat.toDigits 10 n) = n :=
  Nat.ofDigitChars_ten_toDigits

theorem foldl_zeros (k : Nat) :
    (List.replicate k '0').foldl (fun n c => 10 * n + digitValue c) 0 = 0 := by
  induction k with
  | zero => rfl
  | succ k ih => simpa [List.replicate_succ, digitValue] using ih

def paddedDigits (width n : Nat) : List Char :=
  List.replicate (width - (Nat.toDigits 10 n).length) '0' ++ Nat.toDigits 10 n

theorem toList_padded (width n : Nat) : (padded width n).toList = paddedDigits width n := by
  simp [padded, paddedDigits]

theorem digitsValue_padded (width n : Nat) : digitsValue (paddedDigits width n) = n := by
  have zeros : digitsValue (List.replicate (width - (Nat.toDigits 10 n).length) '0') = 0 := foldl_zeros _
  rw [paddedDigits, digitsValue_append, zeros]
  exact digitsValue_toDigits n

theorem isDigit_padded {width : Nat} {c : Char} (mem : c ∈ paddedDigits width n) : c.isDigit = true := by
  rcases List.mem_append.mp mem with zero | digit
  · rw [(List.mem_replicate.mp zero).2]
    rfl
  · exact isDigit_toDigits digit

theorem paddedDigits_ne_nil (width n : Nat) : paddedDigits width n ≠ [] := by
  simp [paddedDigits, Nat.toDigits_ne_nil]

theorem padded_inj {width m n : Nat} (same : padded width m = padded width n) : m = n := by
  have digits := congrArg String.toList same
  rw [toList_padded, toList_padded] at digits
  rw [← digitsValue_padded width m, digits, digitsValue_padded]

theorem le_foldl_digits (cs : List Char) (n : Nat) : n ≤ cs.foldl (fun n c => 10 * n + digitValue c) n := by
  induction cs generalizing n with
  | nil => exact Nat.le_refl n
  | cons c rest ih =>
    have step := ih (10 * n + digitValue c)
    rw [List.foldl_cons]
    omega

theorem readDigits_eq_ok (digits : ∀ c ∈ cs, c.isDigit = true)
    (below : cs.foldl (fun n c => 10 * n + digitValue c) n < bound) :
    readDigits bound n cs = .ok (cs.foldl (fun n c => 10 * n + digitValue c) n) := by
  induction cs generalizing n with
  | nil => rfl
  | cons c rest ih =>
    obtain ⟨digit, digits⟩ := List.forall_mem_cons.mp digits
    have grows := le_foldl_digits rest (10 * n + digitValue c)
    have fits : ¬ bound ≤ 10 * n + digitValue c := by
      rw [List.foldl_cons] at below
      omega
    simp only [readDigits, digit, fits, Bool.not_true, Bool.false_eq_true, if_false]
    exact ih digits below

theorem readDigits_eq {m : Nat} (read : readDigits bound n cs = .ok m) :
    m = cs.foldl (fun n c => 10 * n + digitValue c) n := by
  induction cs generalizing n with
  | nil => exact (Except.ok.inj read).symm
  | cons c rest ih =>
    simp only [readDigits] at read
    split_ifs at read
    exact ih read

/-- Digits, with one plus sign before them at most, and the number that they stand for. -/
def Decimal (cs : List Char) (n : Nat) : Prop :=
  ∃ ds, (cs = ds ∨ cs = '+' :: ds) ∧ ds ≠ [] ∧ (∀ c ∈ ds, c.isDigit = true) ∧ digitsValue ds = n

theorem Decimal.mem {c : Char} (decimal : Decimal cs n) (mem : c ∈ cs) : c = '+' ∨ c.isDigit = true := by
  obtain ⟨ds, rfl | rfl, -, digits, -⟩ := decimal
  · exact .inr (digits c mem)
  · rcases List.mem_cons.mp mem with rfl | mem
    · exact .inl rfl
    · exact .inr (digits c mem)

theorem decimal_plus : Decimal ('+' :: cs) n ↔
    cs ≠ [] ∧ (∀ c ∈ cs, c.isDigit = true) ∧ digitsValue cs = n := by
  constructor
  · rintro ⟨ds, rfl | same, rest⟩
    · exact absurd (rest.2.1 '+' List.mem_cons_self) (by decide)
    · obtain rfl := (List.cons.inj same).2
      exact rest
  · exact fun rest => ⟨cs, .inr rfl, rest⟩

theorem decimal_unsigned (unsigned : cs.head? ≠ some '+') : Decimal cs n ↔
    cs ≠ [] ∧ (∀ c ∈ cs, c.isDigit = true) ∧ digitsValue cs = n := by
  constructor
  · rintro ⟨ds, rfl | rfl, rest⟩
    · exact rest
    · simp at unsigned
  · exact fun rest => ⟨cs, .inl rfl, rest⟩

theorem readDigits_eq_ok_iff {m : Nat} (nonempty : cs ≠ []) : readDigits bound n cs = .ok m ↔
    (∀ c ∈ cs, c.isDigit = true) ∧ cs.foldl (fun n c => 10 * n + digitValue c) n = m ∧ m < bound := by
  constructor
  · intro read
    obtain rfl := readDigits_eq read
    -- The value passes the bound with its last digit at the latest, where the reader sees it.
    induction cs generalizing n with
    | nil => exact absurd rfl nonempty
    | cons c rest ih =>
      simp only [readDigits] at read
      split_ifs at read with digit large
      have digit : c.isDigit = true := by simpa using digit
      cases rest with
      | nil => exact ⟨by simpa using digit, rfl, by simpa using large⟩
      | cons d rest =>
        obtain ⟨digits, -, below⟩ := ih (by simp) read
        exact ⟨List.forall_mem_cons.mpr ⟨digit, digits⟩, rfl, below⟩
  · rintro ⟨digits, rfl, below⟩
    exact readDigits_eq_ok digits below

theorem numeral?_eq_some {s : String} : numeral? bound s = some n ↔ Decimal s.toList n ∧ n < bound := by
  have read : numeral? bound s = some n ↔ readNumeral bound s = .ok n := by
    unfold numeral?
    cases readNumeral bound s <;> simp [Except.toOption]
  rw [read]
  unfold readNumeral
  split
  · next empty => simp [empty, Decimal]
  · next bare => simp [bare, decimal_plus]
  · next ds nonempty signed =>
    have nonempty : ds ≠ [] := nonempty
    simp [signed, decimal_plus, readDigits_eq_ok_iff nonempty, nonempty, digitsValue, and_assoc]
  · next cs filled _ unsigned =>
    have head : s.toList.head? ≠ some '+' := by
      intro signed
      obtain ⟨rest, same⟩ := List.head?_eq_some_iff.mp signed
      exact unsigned rest same
    have nonempty : s.toList ≠ [] := filled
    rw [decimal_unsigned head, readDigits_eq_ok_iff nonempty]
    simp only [digitsValue, nonempty, ne_eq, not_false_eq_true, true_and, and_assoc]

theorem isBlank_digit {c : Char} (digit : c.isDigit = true) : isBlank c = false := by
  simp only [Char.isDigit, Bool.and_eq_true, decide_eq_true_eq, ge_iff_le] at digit
  obtain ⟨low, high⟩ := digit
  have low : 48 ≤ c.toNat := low
  have high : c.toNat ≤ 57 := high
  exact isBlank_graphic (by omega) (by omega)

end FleetOps.Text
