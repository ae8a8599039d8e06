import FleetOps.Cron.Weekday
import FleetOps.Proofs.Lists
import FleetOps.Proofs.Text.Numeral

set_option autoImplicit false

namespace FleetOps

theorem Text.pieces_eq_splitOnP (stop : Char → Bool) (cs : List Char) :
    Text.pieces stop cs = cs.splitOnP stop := by
  induction cs with
  | nil => rfl
  | cons c rest ih =>
    rw [List.splitOnP_cons_eq_if_modifyHead, Text.pieces, ih]
    split
    · rfl
    · cases whole : rest.splitOnP stop with
      | nil => exact absurd whole (List.splitOnP_ne_nil _ _)
      | cons p ps => rfl

namespace Cron.Weekday

open Text

variable {cs ds : List Char} {n : Nat}

inductive Days where
  | every
  | one (day : Nat)
  | between (first last : Nat)

inductive Days.Written : Days → List Char → Prop where
  | every : Written .every ['*']
  | one {cs : List Char} {day : Nat} (number : Decimal cs day) (week : day ≤ 7) : Written (.one day) cs
  | between {cs ds : List Char} {first last : Nat} (start : Decimal cs first) (stop : Decimal ds last)
      (ordered : first ≤ last) (week : last ≤ 7) : Written (.between first last) (cs ++ '-' :: ds)

structure Part where
  days : Days
  step : Option Nat

inductive Part.Written : Part → List Char → Prop where
  | plain {days : Days} {cs : List Char} (range : days.Written cs) : Written ⟨days, none⟩ cs
  | stepped {days : Days} {cs ds : List Char} {step : Nat} (range : days.Written cs)
      (number : Decimal ds step) (positive : 1 ≤ step) (word : step < 4294967296) :
      Written ⟨days, some step⟩ (cs ++ '/' :: ds)

-- A single day with a step goes on to the end of the week.
def Part.Selects : Part → Nat → Prop
  | ⟨.every, step⟩, n => ∃ i, n = i * step.getD 1 ∧ n ≤ 6
  | ⟨.one day, none⟩, n => n = day
  | ⟨.one day, some step⟩, n => ∃ i, n = day + i * step ∧ n ≤ max 6 day
  | ⟨.between first last, step⟩, n => ∃ i, n = first + i * step.getD 1 ∧ n ≤ last

def Days.bounds (stepped : Bool) : Days → Nat × Nat
  | .every => (0, 6)
  | .one day => (day, if stepped then max 6 day else day)
  | .between first last => (first, last)

def Part.span (p : Part) : Span :=
  { first := (p.days.bounds p.step.isSome).1, last := (p.days.bounds p.step.isSome).2,
    step := p.step.getD 1 }

theorem Span.selects_iff (s : Span) (n : Nat) :
    s.selects n = true ↔ ∃ i, n = s.first + i * s.step ∧ n ≤ s.last := by
  simp only [selects, Bool.and_eq_true, decide_eq_true_eq, ← Nat.dvd_iff_mod_eq_zero]
  constructor
  · rintro ⟨⟨low, high⟩, i, gap⟩
    rw [Nat.mul_comm] at gap
    exact ⟨i, by omega, high⟩
  · rintro ⟨i, rfl, high⟩
    exact ⟨⟨by omega, high⟩, i, by rw [Nat.mul_comm]; omega⟩

theorem Part.selects_span (p : Part) (n : Nat) : p.span.selects n = true ↔ p.Selects n := by
  rw [Span.selects_iff]
  obtain ⟨days, step⟩ := p
  cases days with
  | every => simp [span, Days.bounds, Selects]
  | between first last => rfl
  | one day =>
    cases step with
    | some step => rfl
    | none =>
      simp only [span, Days.bounds, Selects, Option.isSome_none, Option.getD_none]
      constructor
      · rintro ⟨i, rfl, high⟩
        have high : day + i * 1 ≤ day := high
        omega
      · rintro rfl
        exact ⟨0, by simp, by simp⟩

theorem Part.Written.selects_le {p : Part} (written : p.Written cs) (selects : p.Selects n) : n ≤ 7 := by
  have last : p.span.last ≤ 7 := by
    cases written with
    | plain range | stepped range =>
      cases range <;> simp [span, Days.bounds] <;> omega
  rw [← selects_span, Span.selects_iff] at selects
  obtain ⟨-, -, high⟩ := selects
  omega

theorem cut_append {mark : Char} (absent : mark ∉ cs) (ds : List Char) :
    cut mark (cs ++ mark :: ds) = some (cs, ds) := by
  have before : ∀ c ∈ cs, (!decide (c = mark)) = true := by
    intro c mem
    simpa using ne_of_mem_of_not_mem mem absent
  simp [cut, List.takeWhile_append_of_pos before, List.dropWhile_append_of_pos before]

theorem cut_eq_none {mark : Char} : cut mark cs = none ↔ mark ∉ cs := by
  simp [cut]

theorem cut_eq_some {mark : Char} {es : List Char} :
    cut mark cs = some (ds, es) ↔ cs = ds ++ mark :: es ∧ mark ∉ ds := by
  constructor
  · intro found
    have mem : mark ∈ cs := by
      by_contra absent
      simp [cut_eq_none.mpr absent] at found
    obtain ⟨before, after, rfl, absent⟩ := List.eq_append_cons_of_mem mem
    rw [cut_append absent] at found
    cases found
    exact ⟨rfl, absent⟩
  · rintro ⟨rfl, absent⟩
    exact cut_append absent es

theorem not_mem_decimal {c : Char} (decimal : Decimal cs n) (other : c ≠ '+' ∧ c.isDigit = false) :
    c ∉ cs := by
  intro mem
  obtain rfl | digit := decimal.mem mem
  · exact other.1 rfl
  · simp [other.2] at digit

-- So the first slash of a part ends its range.
theorem Days.Written.slash_not_mem {days : Days} (written : days.Written cs) : '/' ∉ cs := by
  cases written with
  | every => decide
  | one number => exact not_mem_decimal number (by decide)
  | between start stop =>
    have first := not_mem_decimal start (c := '/') (by decide)
    have last := not_mem_decimal stop (c := '/') (by decide)
    simp [first, last]

theorem readDay_eq_ok : readDay cs = .ok n ↔ Decimal cs n ∧ n ≤ 7 := by
  have read := @numeral?_eq_some n (lastNumber + 1) (String.ofList cs)
  rw [String.toList_ofList] at read
  have week : n ≤ 7 ↔ n < lastNumber + 1 := Nat.lt_succ_iff.symm
  rw [week, ← read, readDay]
  cases numeral? (lastNumber + 1) (String.ofList cs) <;> simp

theorem readStep_eq_ok : readStep cs = .ok n ↔ Decimal cs n ∧ 1 ≤ n ∧ n < 4294967296 := by
  have read := @numeral?_eq_some n stepBound (String.ofList cs)
  rw [String.toList_ofList] at read
  have found : readStep cs = .ok n ↔ numeral? stepBound (String.ofList cs) = some n ∧ 1 ≤ n := by
    unfold readStep
    split
    · next unread => simp [unread]
    · next zero =>
      simp only [zero, reduceCtorEq, Option.some.injEq, false_iff, not_and]
      omega
    · next m nonzero found =>
      have positive : 1 ≤ m := Nat.pos_of_ne_zero nonzero
      simp only [found, Except.ok.injEq, Option.some.injEq]
      omega
  rw [found, read, and_assoc, and_comm (a := 1 ≤ n)]
  rfl

theorem readRange_eq_ok {stepped : Bool} {b : Nat × Nat} :
    readRange cs stepped = .ok b ↔ ∃ days : Days, days.Written cs ∧ days.bounds stepped = b := by
  constructor
  · intro read
    unfold readRange at read
    by_cases star : cs = ['*']
    · subst star
      exact ⟨.every, .every, Except.ok.inj read⟩
    · rw [if_neg star] at read
      split at read
      · next first last halves =>
        obtain ⟨rfl, -⟩ := cut_eq_some.mp halves
        obtain ⟨a, start, read⟩ := bind_eq_ok.mp read
        obtain ⟨z, stop, read⟩ := bind_eq_ok.mp read
        obtain ⟨start, -⟩ := readDay_eq_ok.mp start
        obtain ⟨stop, week⟩ := readDay_eq_ok.mp stop
        have ordered : a ≤ z := by
          by_contra reversed
          rw [if_pos (by omega)] at read
          cases read
        rw [if_neg (by omega)] at read
        exact ⟨.between a z, .between start stop ordered week, Except.ok.inj read⟩
      · obtain ⟨day, number, read⟩ := bind_eq_ok.mp read
        obtain ⟨number, week⟩ := readDay_eq_ok.mp number
        exact ⟨.one day, .one number week, Except.ok.inj read⟩
  · rintro ⟨days, written, rfl⟩
    unfold readRange
    cases written with
    | every => rfl
    | one number week =>
      have star : cs ≠ ['*'] := by
        rintro rfl
        exact not_mem_decimal number (c := '*') (by decide) List.mem_cons_self
      have whole := cut_eq_none.mpr (not_mem_decimal number (c := '-') (by decide))
      rw [if_neg star, whole]
      exact bind_eq_ok.mpr ⟨_, readDay_eq_ok.mpr ⟨number, week⟩, rfl⟩
    | between start stop ordered week =>
      have star {cs ds : List Char} : cs ++ '-' :: ds ≠ ['*'] := by
        intro same
        have dash : '-' ∈ ['*'] := same ▸ by simp
        simp at dash
      have halves := cut_append (not_mem_decimal start (c := '-') (by decide))
      rw [if_neg star, halves]
      refine bind_eq_ok.mpr ⟨_, readDay_eq_ok.mpr ⟨start, by omega⟩, ?_⟩
      refine bind_eq_ok.mpr ⟨_, readDay_eq_ok.mpr ⟨stop, week⟩, ?_⟩
      rw [if_neg (by omega)]
      rfl

theorem readSpan_eq_ok {s : Span} : readSpan cs = .ok s ↔ ∃ p : Part, p.Written cs ∧ p.span = s := by
  constructor
  · intro read
    unfold readSpan at read
    split at read
    · next range step halves =>
      obtain ⟨rfl, -⟩ := cut_eq_some.mp halves
      obtain ⟨step, number, read⟩ := bind_eq_ok.mp read
      obtain ⟨bounds, range, read⟩ := bind_eq_ok.mp read
      obtain ⟨number, positive, word⟩ := readStep_eq_ok.mp number
      obtain ⟨days, written, rfl⟩ := readRange_eq_ok.mp range
      exact ⟨⟨days, some step⟩, .stepped written number positive word, Except.ok.inj read⟩
    · obtain ⟨bounds, range, read⟩ := bind_eq_ok.mp read
      obtain ⟨days, written, rfl⟩ := readRange_eq_ok.mp range
      exact ⟨⟨days, none⟩, .plain written, Except.ok.inj read⟩
  · rintro ⟨p, written, rfl⟩
    unfold readSpan
    cases written with
    | plain range =>
      rw [cut_eq_none.mpr range.slash_not_mem]
      exact bind_eq_ok.mpr ⟨_, readRange_eq_ok.mpr ⟨_, range, rfl⟩, rfl⟩
    | stepped range number positive word =>
      rw [cut_append range.slash_not_mem]
      refine bind_eq_ok.mpr ⟨_, readStep_eq_ok.mpr ⟨number, positive, word⟩, ?_⟩
      exact bind_eq_ok.mpr ⟨_, readRange_eq_ok.mpr ⟨_, range, rfl⟩, rfl⟩

theorem selected_iff {spans : List Span} {w : Nat} :
    selected spans w = true ↔ ∃ s ∈ spans, ∃ n ≤ 7, n % 7 = w ∧ s.selects n = true := by
  simp [selected, lastNumber, Nat.lt_succ_iff]

theorem selectedNames_sublist (spans : List Span) : (selectedNames spans).Sublist names := by
  have all : (List.range 7).filterMap (names[·]?) = names := by decide
  have chosen : selectedNames spans = ((List.range 7).filter (selected spans)).filterMap (names[·]?) := by
    rw [List.filterMap_filter]
    rfl
  rw [chosen, ← all]
  exact List.filter_sublist.filterMap _

theorem mem_selectedNames {spans : List Span} {w : Nat} {name : String} (known : names[w]? = some name) :
    name ∈ selectedNames spans ↔ selected spans w = true := by
  obtain ⟨low, -⟩ := List.getElem?_eq_some_iff.mp known
  rw [selectedNames, List.mem_filterMap]
  constructor
  · rintro ⟨d, -, here⟩
    split at here
    · next chosen =>
      have once : names.Nodup := by decide
      obtain rfl := (List.getElem?_inj low once).mp (known.trans here.symm)
      exact chosen
    · cases here
  · intro chosen
    exact ⟨w, List.mem_range.mpr low, by rw [if_pos chosen, known]⟩

def parts (field : String) : List (List Char) :=
  field.toList.splitOn ','

def numbered (field : String) : List (List Char) :=
  (parts field).filter (!hasLetter ·)

def named (field : String) : List String :=
  ((parts field).filter hasLetter).map String.ofList

def Chosen (field : String) (w : Nat) : Prop :=
  ∃ cs ∈ numbered field, ∃ p : Part, p.Written cs ∧ ∃ n, p.Selects n ∧ n % 7 = w

theorem exists_readSpan_ok : (∃ s, readSpan cs = .ok s) ↔ ∃ p : Part, p.Written cs := by
  simp only [readSpan_eq_ok]
  exact ⟨fun ⟨_, p, written, _⟩ => ⟨p, written⟩, fun ⟨p, written⟩ => ⟨_, p, written, rfl⟩⟩

theorem selected_iff_chosen {field : String} {w : Nat} :
    selected ((numbered field).filterMap fun cs => (readSpan cs).toOption) w = true ↔ Chosen field w := by
  have span (cs : List Char) (s : Span) :
      (readSpan cs).toOption = some s ↔ ∃ p : Part, p.Written cs ∧ p.span = s := by
    rw [← readSpan_eq_ok]
    cases readSpan cs <;> simp [Except.toOption]
  simp only [selected_iff, List.mem_filterMap, span]
  constructor
  · rintro ⟨_, ⟨cs, mem, p, written, rfl⟩, n, -, same, selects⟩
    exact ⟨cs, mem, p, written, n, (p.selects_span n).mp selects, same⟩
  · rintro ⟨cs, mem, p, written, n, selects, same⟩
    exact ⟨p.span, ⟨cs, mem, p, written, rfl⟩, n, written.selects_le selects, same,
      (p.selects_span n).mpr selects⟩

theorem spelled_eq_ok {field out : String} (list : field ≠ "*" ∧ field ≠ "?") :
    spelled field = .ok out ↔ (∀ cs ∈ numbered field, ∃ p : Part, p.Written cs) ∧
      out = ",".intercalate
        (selectedNames ((numbered field).filterMap fun cs => (readSpan cs).toOption) ++ named field) := by
  have unfolded : spelled field = (numbered field).mapM readSpan >>= fun spans =>
      .ok (",".intercalate (selectedNames spans ++ named field)) := by
    simp only [spelled, list, or_self, if_false, Text.pieces_eq_splitOnP]
    rfl
  rw [unfolded, bind_eq_ok]
  simp only [mapM_eq_ok, exists_readSpan_ok, Except.ok.injEq]
  constructor
  · rintro ⟨_, ⟨all, rfl⟩, rfl⟩
    exact ⟨all, rfl⟩
  · rintro ⟨all, rfl⟩
    exact ⟨_, ⟨all, rfl⟩, rfl⟩

/-- The field reads if all parts in numbers are written well, and names the days that they choose. -/
theorem spelled_weekdays {field : String} (list : field ≠ "*" ∧ field ≠ "?") :
    ((∃ out, spelled field = .ok out) ↔ ∀ cs ∈ numbered field, ∃ p : Part, p.Written cs) ∧
    ∀ out, spelled field = .ok out → ∃ days : List String, days.Sublist names ∧
      (∀ w name, names[w]? = some name → (name ∈ days ↔ Chosen field w)) ∧
      out = ",".intercalate (days ++ named field) := by
  constructor
  · constructor
    · rintro ⟨out, read⟩
      exact ((spelled_eq_ok list).mp read).1
    · exact fun all => ⟨_, (spelled_eq_ok list).mpr ⟨all, rfl⟩⟩
  · intro out read
    obtain ⟨-, rfl⟩ := (spelled_eq_ok list).mp read
    refine ⟨_, selectedNames_sublist _, ?_, rfl⟩
    intro w name known
    rw [mem_selectedNames known, selected_iff_chosen]

theorem mixed_spelled :
    spelled "5-7,+1/2,Fri" = .ok "Sun,Mon,Wed,Fri,Sat,Fri" ∧
    (∀ cs ∈ numbered "5-7,+1/2,Fri", ∃ p : Part, p.Written cs) ∧
    ∃ days : List String, days.Sublist names ∧
      (∀ w name, names[w]? = some name → (name ∈ days ↔ Chosen "5-7,+1/2,Fri" w)) ∧
      "Sun,Mon,Wed,Fri,Sat,Fri" = ",".intercalate (days ++ named "5-7,+1/2,Fri") := by
  have meaning := @spelled_weekdays "5-7,+1/2,Fri" (by decide)
  have read : spelled "5-7,+1/2,Fri" = .ok "Sun,Mon,Wed,Fri,Sat,Fri" := by decide +kernel
  exact ⟨read, meaning.1.mp ⟨_, read⟩, meaning.2 _ read⟩

end Cron.Weekday

end FleetOps
