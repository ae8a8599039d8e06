import FleetOps.Json.Reader
import FleetOps.Json.Printer
import FleetOps.Proofs.Text.Numeral

set_option autoImplicit false

namespace FleetOps.Json

def goesOn (c : Char) : Bool :=
  c.isDigit || c = '.' || c = 'e' || c = 'E' || c = '+' || c = '-'

def Ends (rest : List Char) : Prop :=
  ∀ c ∈ rest.head?, goesOn c = false

def AllDigits (cs : List Char) : Prop :=
  cs ≠ [] ∧ ∀ c ∈ cs, c.isDigit = true

inductive FractionText : List Char → List Char → Prop where
  | absent : FractionText [] []
  | present {ds : List Char} (digits : AllDigits ds) : FractionText ('.' :: ds) ds

inductive ExponentText : List Char → Option Int → Prop where
  | absent : ExponentText [] none
  | plus {ds : List Char} (digits : AllDigits ds) : ExponentText ('e' :: ds) (some (1 * natOfDigits ds))
  | minus {ds : List Char} (digits : AllDigits ds) :
      ExponentText ('e' :: '-' :: ds) (some (-1 * natOfDigits ds))

def signOf (negative : Bool) : List Char :=
  if negative then ['-'] else []

inductive NumberText : List Char → Prop where
  | mk (negative : Bool) {whole fraction ds exponent : List Char} {e : Option Int} (digits : AllDigits whole)
      (hasFraction : FractionText fraction ds) (hasExponent : ExponentText exponent e) :
      NumberText (signOf negative ++ (whole ++ (fraction ++ exponent)))

variable {cs ds rest whole fraction exponent : List Char} {e : Option Int}

theorem digitsOf_append (digits : ∀ c ∈ ds, c.isDigit = true) (stop : ∀ c ∈ rest.head?, c.isDigit = false) :
    digitsOf (ds ++ rest) = (ds, rest) := by
  have taken : rest.takeWhile Char.isDigit = [] := by
    cases rest with
    | nil => rfl
    | cons c cs => simp [stop c rfl]
  have dropped : rest.dropWhile Char.isDigit = rest := by
    cases rest with
    | nil => rfl
    | cons c cs => simp [stop c rfl]
  rw [digitsOf, List.takeWhile_append_of_pos digits, List.dropWhile_append_of_pos digits, taken, dropped,
    List.append_nil]

theorem Ends.nil : Ends [] := by
  simp [Ends]

theorem Ends.noDigit (ends : Ends rest) : ∀ c ∈ rest.head?, c.isDigit = false := by
  intro c head
  have stop := ends c head
  simp only [goesOn, Bool.or_eq_false_iff] at stop
  exact stop.1.1.1.1.1

theorem ExponentText.noDigit (hasExponent : ExponentText exponent e) (ends : Ends rest) :
    ∀ c ∈ (exponent ++ rest).head?, c.isDigit = false := by
  cases hasExponent with
  | absent => exact ends.noDigit
  | plus | minus => simp

theorem FractionText.noDigit (hasFraction : FractionText fraction ds) (hasExponent : ExponentText exponent e)
    (ends : Ends rest) : ∀ c ∈ (fraction ++ (exponent ++ rest)).head?, c.isDigit = false := by
  cases hasFraction with
  | absent => exact hasExponent.noDigit ends
  | present => simp

theorem ExponentText.noPoint (hasExponent : ExponentText exponent e) (ends : Ends rest) :
    ∀ c ∈ (exponent ++ rest).head?, c ≠ '.' := by
  cases hasExponent with
  | absent =>
    rintro c head rfl
    exact absurd (ends '.' head) (by decide)
  | plus | minus => simp

theorem ExponentText.reads (hasExponent : ExponentText exponent e) (ends : Ends rest) :
    readExponent? (exponent ++ rest) = some (e, rest) := by
  cases hasExponent with
  | absent =>
    cases rest with
    | nil => rfl
    | cons c cs =>
      have stop := ends c rfl
      simp only [goesOn, Bool.or_eq_false_iff, decide_eq_false_iff_not] at stop
      simp [readExponent?, stop]
  | @plus ds digits =>
    have found := digitsOf_append digits.2 ends.noDigit
    obtain ⟨d, ds, rfl⟩ := List.exists_cons_of_ne_nil digits.1
    have digit : d.isDigit = true := digits.2 d List.mem_cons_self
    have unsigned : d ≠ '+' ∧ d ≠ '-' := by
      constructor <;> rintro rfl <;> exact absurd digit (by decide)
    simp [readExponent?, unsigned] at found ⊢
    rw [found]
  | @minus ds digits =>
    have found := digitsOf_append digits.2 ends.noDigit
    obtain ⟨d, ds, rfl⟩ := List.exists_cons_of_ne_nil digits.1
    simp [readExponent?] at found ⊢
    rw [found]

theorem FractionText.reads (hasFraction : FractionText fraction ds) (hasExponent : ExponentText exponent e)
    (ends : Ends rest) : readFraction? (fraction ++ (exponent ++ rest)) = some (ds, exponent ++ rest) := by
  cases hasFraction with
  | absent =>
    have stop := hasExponent.noPoint ends
    rw [List.nil_append]
    generalize exponent ++ rest = tail at stop
    unfold readFraction?
    split
    · exact absurd rfl (stop '.' rfl)
    · rfl
  | present digits =>
    simp only [List.cons_append, readFraction?, digitsOf_append digits.2 (hasExponent.noDigit ends)]
    obtain ⟨d, ds, rfl⟩ := List.exists_cons_of_ne_nil digits.1
    rfl

def numberOf? (negative : Bool) (whole ds : List Char) (e : Option Int) : Option Json :=
  let n := natOfDigits whole
  if whole.head? = some '0' ∧ 1 < whole.length then none
  else if ds.isEmpty ∧ e.isNone ∧ !negative ∧ n < wordBound then some (.int n)
  else if ds.isEmpty ∧ e.isNone ∧ negative ∧ 0 < n ∧ 2 * n ≤ wordBound then some (.int (-n))
  else readReal? negative whole ds (e.getD 0)

theorem readNumber?_signed (negative : Bool) {d : Char} {tail : List Char} (unsigned : d ≠ '-')
    (found : digitsOf (d :: cs) = (d :: whole, tail))
    (fractionRead : readFraction? tail = some (ds, exponent))
    (exponentRead : readExponent? exponent = some (e, rest)) :
    readNumber? (signOf negative ++ d :: cs) = (numberOf? negative (d :: whole) ds e).map (·, rest) := by
  let n := natOfDigits (d :: whole)
  have value : (numberOf? negative (d :: whole) ds e).map (·, rest) =
      if d = '0' ∧ whole ≠ [] then none
      else if ds.isEmpty ∧ e.isNone ∧ !negative ∧ n < wordBound then some (.int n, rest)
      else if ds.isEmpty ∧ e.isNone ∧ negative ∧ 0 < n ∧ 2 * n ≤ wordBound then some (.int (-n), rest)
      else (readReal? negative (d :: whole) ds (e.getD 0)).bind fun v => some (v, rest) := by
    simp only [numberOf?, List.head?_cons, Option.some.injEq, List.length_cons, Nat.lt_add_left_iff_pos,
      List.length_pos_iff]
    split_ifs <;> first | rfl | exact Option.map_eq_bind
  rw [value]
  unfold readNumber?
  by_cases zero : d = '0'
  · obtain rfl := zero
    cases whole with
    | nil => cases negative <;> simp [signOf, found, fractionRead, exponentRead, n]
    | cons => cases negative <;> simp [signOf, found]
  · cases negative <;> simp [signOf, unsigned, zero, found, fractionRead, exponentRead, n]

theorem readNumber?_parts (negative : Bool) (digits : AllDigits whole)
    (hasFraction : FractionText fraction ds) (hasExponent : ExponentText exponent e) (ends : Ends rest) :
    readNumber? (signOf negative ++ (whole ++ (fraction ++ exponent)) ++ rest) =
      (numberOf? negative whole ds e).map (·, rest) := by
  have found := digitsOf_append digits.2 (hasFraction.noDigit hasExponent ends)
  obtain ⟨d, whole, rfl⟩ := List.exists_cons_of_ne_nil digits.1
  have unsigned : d ≠ '-' := by
    rintro rfl
    exact absurd (digits.2 '-' List.mem_cons_self) (by decide)
  have read := readNumber?_signed negative unsigned found (hasFraction.reads hasExponent ends)
    (hasExponent.reads ends)
  simpa using read

theorem readNumber?_append (number : NumberText cs) (ends : Ends rest) :
    readNumber? (cs ++ rest) = (readNumber? cs).map fun p => (p.1, rest) := by
  obtain ⟨negative, digits, hasFraction, hasExponent⟩ := number
  have alone := readNumber?_parts negative digits hasFraction hasExponent Ends.nil
  rw [List.append_nil] at alone
  rw [readNumber?_parts negative digits hasFraction hasExponent ends, alone, Option.map_map]
  rfl

theorem allDigits_toDigits (n : Nat) : AllDigits (Nat.toDigits 10 n) :=
  ⟨Nat.toDigits_ne_nil, fun _ => Text.isDigit_toDigits⟩

theorem toList_toString_int (n : Int) :
    (toString n).toList = signOf (decide (n < 0)) ++ Nat.toDigits 10 n.natAbs := by
  rw [Int.toString_eq_repr, Int.repr_eq_if]
  by_cases negative : n < 0
  · have magnitude : (-n).toNat = n.natAbs := by omega
    have below : ¬ 0 ≤ n := by omega
    simp [signOf, negative, below, magnitude, Nat.toList_repr]
  · have magnitude : n.toNat = n.natAbs := by omega
    have above : 0 ≤ n := by omega
    simp [signOf, negative, above, magnitude, Nat.toList_repr]

theorem numberText_int (n : Int) : NumberText (toString n).toList := by
  rw [toList_toString_int]
  simpa using NumberText.mk _ (allDigits_toDigits n.natAbs) .absent .absent

theorem AllDigits.append (digits : AllDigits ds) {more : List Char} (rest : ∀ c ∈ more, c.isDigit = true) :
    AllDigits (ds ++ more) := by
  refine ⟨by simp [digits.1], fun c mem => ?_⟩
  exact (List.mem_append.mp mem).elim (digits.2 c) (rest c)

theorem isDigit_zeros {n : Nat} : ∀ c ∈ List.replicate n '0', c.isDigit = true := by
  intro c mem
  rw [(List.mem_replicate.mp mem).2]
  rfl

theorem allDigits_zero : AllDigits ['0'] :=
  ⟨List.cons_ne_nil _ _, List.forall_mem_singleton.mpr rfl⟩

theorem exponentText_int (n : Int) : ∃ e, ExponentText ('e' :: (toString n).toList) e := by
  rw [toList_toString_int]
  by_cases negative : n < 0
  · exact ⟨_, by simpa [signOf, negative] using .minus (allDigits_toDigits n.natAbs)⟩
  · exact ⟨_, by simpa [signOf, negative] using .plus (allDigits_toDigits n.natAbs)⟩

theorem layoutDigits_parts (k : Int) (digits : AllDigits ds) :
    ∃ whole fraction gs exponent e, Binary64.layoutDigits ds k = whole ++ (fraction ++ exponent) ∧
      AllDigits whole ∧ FractionText fraction gs ∧ ExponentText exponent e := by
  have nonempty : 0 < ds.length := List.length_pos_iff.mpr digits.1
  unfold Binary64.layoutDigits
  dsimp only
  split_ifs with integral inside below
  · exact ⟨ds ++ List.replicate k.toNat '0', ['.', '0'], _, [], _, by simp, digits.append isDigit_zeros,
      .present allDigits_zero, .absent⟩
  · have cut : (ds.length + k).toNat < ds.length := by omega
    have cut' : 0 < (ds.length + k).toNat := by omega
    refine ⟨ds.take (ds.length + k).toNat, '.' :: ds.drop (ds.length + k).toNat, _, [], _, by simp,
      ⟨?_, fun c mem => ?_⟩, .present ⟨?_, fun c mem => ?_⟩, .absent⟩
    · simp only [ne_eq, List.take_eq_nil_iff, digits.1, or_false]
      omega
    · exact digits.2 c (List.mem_of_mem_take mem)
    · simp only [ne_eq, List.drop_eq_nil_iff]
      omega
    · exact digits.2 c (List.mem_of_mem_drop mem)
  · refine ⟨['0'], '.' :: (List.replicate (-(ds.length + k)).toNat '0' ++ ds), _, [], _, by simp,
      allDigits_zero, .present ⟨by simp [digits.1], fun c mem => ?_⟩, .absent⟩
    exact (List.mem_append.mp mem).elim (isDigit_zeros c) (digits.2 c)
  · obtain ⟨e, hasExponent⟩ := exponentText_int (ds.length + k - 1)
    obtain ⟨d, rest, rfl⟩ := List.exists_cons_of_ne_nil digits.1
    have first : AllDigits [d] := ⟨by simp, by simpa using digits.2 d List.mem_cons_self⟩
    cases rest with
    | nil => exact ⟨[d], [], [], _, e, rfl, first, .absent, hasExponent⟩
    | cons d' rest =>
      have others : AllDigits (d' :: rest) := ⟨by simp, fun c mem => digits.2 c (List.mem_cons_of_mem d mem)⟩
      exact ⟨[d], '.' :: d' :: rest, _, _, e, by simp, first, .present others, hasExponent⟩

theorem numberText_real (x : Binary64) : NumberText x.text.toList := by
  obtain ⟨whole, fraction, gs, exponent, e, layout, digits, hasFraction, hasExponent⟩ :=
    layoutDigits_parts x.digits.2 (allDigits_toDigits x.digits.1)
  have text : x.text.toList = signOf x.isNegative ++ (whole ++ (fraction ++ exponent)) := by
    rw [← layout]
    cases negative : x.isNegative <;> simp [Binary64.text, signOf, negative]
  rw [text]
  exact .mk _ digits hasFraction hasExponent

theorem readNumber?_nat {n : Nat} (fits : n < wordBound) :
    readNumber? (toString (n : Int)).toList = some (.nat n, []) := by
  have text : (toString (n : Int)).toList = Nat.toDigits 10 n := by
    rw [toList_toString_int]
    simp [signOf]
  have value : natOfDigits (Nat.toDigits 10 n) = n := Nat.ofDigitChars_ten_toDigits
  have plain : ¬ ((Nat.toDigits 10 n).head? = some '0' ∧ 1 < (Nat.toDigits 10 n).length) := by
    rintro ⟨zero, long⟩
    by_cases positive : 0 < n
    · exact Text.head_toDigits positive zero
    · obtain rfl : n = 0 := by omega
      simp at long
  have read := readNumber?_parts false (allDigits_toDigits n) .absent .absent Ends.nil
  rw [text]
  simpa [signOf, numberOf?, plain, value, fits, nat] using read

end FleetOps.Json
