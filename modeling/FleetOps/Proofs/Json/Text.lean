import FleetOps.Proofs.Json.Number

set_option autoImplicit false

namespace FleetOps.Json

variable {rest : List Char}

theorem hexUnit?_control {n : Nat} (control : n < 0x20) (cs : List Char) :
    hexUnit? ('0' :: '0' :: hexChar (n / 16) :: hexChar (n % 16) :: cs) = some (n, cs) := by
  have digits : ∀ k < 0x20, hexDigit? (hexChar (k / 16)) = some (k / 16) ∧
      hexDigit? (hexChar (k % 16)) = some (k % 16) := by decide
  have zero : hexDigit? '0' = some 0 := rfl
  have split : n / 16 * 16 + n % 16 = n := by omega
  simp [hexUnit?, digits n control, zero, split]

theorem escape?_control {c : Char} (control : c.toNat < 0x20) (cs : List Char) :
    escape? ('u' :: '0' :: '0' :: hexChar (c.toNat / 16) :: hexChar (c.toNat % 16) :: cs) = some (c, cs) := by
  have low : ¬ (0xdc00 ≤ c.toNat ∧ c.toNat ≤ 0xdfff) := by omega
  have high : ¬ (0xd800 ≤ c.toNat ∧ c.toNat ≤ 0xdbff) := by omega
  simp [escape?, unicodeEscape?, hexUnit?_control control, low, high]

theorem readString?_escaped (c : Char) (fuel : Nat) (done cs : List Char) :
    readString? (fuel + 1) done (escapeChar c ++ cs) = readString? fuel (c :: done) cs := by
  unfold escapeChar
  split_ifs with quote backslash backspace feed line carriage tab control
  · subst quote; rfl
  · subst backslash; rfl
  · subst backspace; rfl
  · subst feed; rfl
  · subst line; rfl
  · subst carriage; rfl
  · subst tab; rfl
  · simp [readString?, escape?_control control]
  · simp [readString?, quote, backslash, control]

theorem readString?_body (s : List Char) (fuel : Nat) (done : List Char) (enough : s.length < fuel) :
    readString? fuel done (s.flatMap escapeChar ++ '"' :: rest) =
      some (String.ofList (done.reverse ++ s), rest) := by
  induction s generalizing fuel done with
  | nil =>
    obtain ⟨fuel, rfl⟩ := Nat.exists_eq_succ_of_ne_zero (Nat.ne_of_gt enough)
    simp [readString?]
  | cons c s ih =>
    obtain ⟨fuel, rfl⟩ := Nat.exists_eq_succ_of_ne_zero (Nat.ne_of_gt (Nat.zero_lt_of_lt enough))
    have left : s.length < fuel := by simpa using enough
    rw [List.flatMap_cons, List.append_assoc, readString?_escaped, ih fuel (c :: done) left]
    simp

theorem length_le_escaped (s : List Char) : s.length ≤ (s.flatMap escapeChar).length := by
  induction s with
  | nil => simp
  | cons c s ih =>
    have nonempty : 0 < (escapeChar c).length := by
      unfold escapeChar
      split_ifs <;> simp
    simp only [List.flatMap_cons, List.length_cons, List.length_append]
    omega

theorem toList_quote (s : String) : (quote s).toList = '"' :: (s.toList.flatMap escapeChar ++ ['"']) := by
  simp [quote]

theorem readString?_quoted (s : String) :
    readString? ((s.toList.flatMap escapeChar ++ '"' :: rest).length + 1) []
      (s.toList.flatMap escapeChar ++ '"' :: rest) = some (s, rest) := by
  have bound := length_le_escaped s.toList
  rw [readString?_body _ _ _ (by simp only [List.length_append]; omega)]
  simp

mutual
def reread : Json → Option Json
  | .null => some .null
  | .bool b => some (.bool b)
  | .int n => (readNumber? (toString n).toList).map (·.1)
  | .real x => (readNumber? x.text.toList).map (·.1)
  | .str s => some (.str s)
  | .arr items => (rereadItems items).map .arr
  | .obj members => (rereadMembers members).map .obj

def rereadItems : List Json → Option (List Json)
  | [] => some []
  | v :: rest => (reread v).bind fun v => (rereadItems rest).map (v :: ·)

def rereadMembers : List (String × Json) → Option (List (String × Json))
  | [] => some []
  | (k, v) :: rest => (reread v).bind fun v => (rereadMembers rest).map ((k, v) :: ·)
end

theorem skipSpace_append {spaces : List Char} (blank : ∀ c ∈ spaces, isSpace c = true) (cs : List Char) :
    skipSpace (spaces ++ cs) = skipSpace cs :=
  List.dropWhile_append_of_pos blank

theorem skipSpace_cons {c : Char} (visible : isSpace c = false) (cs : List Char) :
    skipSpace (c :: cs) = c :: cs := by
  simp [skipSpace, visible]

theorem readValue?_space (fuel : Nat) {spaces : List Char} (blank : ∀ c ∈ spaces, isSpace c = true)
    (cs : List Char) : readValue? fuel (spaces ++ cs) = readValue? fuel cs := by
  cases fuel with
  | zero => rfl
  | succ fuel => simp only [readValue?, skipSpace_append blank]

theorem readValue?_blank (fuel : Nat) (cs : List Char) : readValue? fuel (' ' :: cs) = readValue? fuel cs :=
  readValue?_space fuel (List.forall_mem_singleton.mpr rfl) cs

theorem readItems?_space (fuel : Nat) {spaces : List Char} (blank : ∀ c ∈ spaces, isSpace c = true)
    (cs : List Char) : readItems? fuel (spaces ++ cs) = readItems? fuel cs := by
  cases fuel with
  | zero => rfl
  | succ fuel => simp only [readItems?, readValue?_space fuel blank]

theorem readMembers?_space (fuel : Nat) {spaces : List Char} (blank : ∀ c ∈ spaces, isSpace c = true)
    (cs : List Char) : readMembers? fuel (spaces ++ cs) = readMembers? fuel cs := by
  cases fuel with
  | zero => rfl
  | succ fuel => simp only [readMembers?, skipSpace_append blank]

def newlineChars (indent : Nat) : List Char :=
  '\n' :: List.replicate (2 * indent) ' '

theorem toList_newline (indent : Nat) : (newline indent).toList = newlineChars indent := by
  simp [newline, newlineChars]

theorem newline_blank (indent : Nat) : ∀ c ∈ newlineChars indent, isSpace c = true := by
  intro c mem
  rcases List.mem_cons.mp mem with rfl | mem
  · rfl
  · rw [(List.mem_replicate.mp mem).2]
    rfl

theorem NumberText.start {cs : List Char} (number : NumberText cs) :
    ∃ c tail, cs = c :: tail ∧ (c.isDigit = true ∨ c = '-') := by
  obtain ⟨negative, digits, -, -⟩ := number
  rename_i whole fraction ds exponent e
  obtain ⟨d, whole, rfl⟩ := List.exists_cons_of_ne_nil digits.1
  cases negative with
  | true => exact ⟨'-', _, rfl, .inr rfl⟩
  | false => exact ⟨d, _, rfl, .inl (digits.2 d List.mem_cons_self)⟩

theorem start_ne {c c' : Char} (start : c.isDigit = true ∨ c = '-') (no : c'.isDigit = false) (no' : c' ≠ '-') :
    c ≠ c' := by
  rintro rfl
  rcases start with digit | minus
  · simp [no] at digit
  · exact no' minus

theorem isSpace_start {c : Char} (start : c.isDigit = true ∨ c = '-') : isSpace c = false := by
  have other (c' : Char) := @start_ne c c' start
  simp [isSpace, other ' ' rfl (by decide), other '\n' rfl (by decide), other '\t' rfl (by decide),
    other '\r' rfl (by decide)]

theorem readValue?_number {c : Char} (start : c.isDigit = true ∨ c = '-') (fuel : Nat) (cs : List Char) :
    readValue? (fuel + 1) (c :: cs) = readNumber? (c :: cs) := by
  have other (c' : Char) := @start_ne c c' start
  simp [readValue?, skipSpace_cons (isSpace_start start), other 'n' rfl (by decide), other 't' rfl (by decide),
    other 'f' rfl (by decide), other '"' rfl (by decide), other '[' rfl (by decide),
    other '\x7b' rfl (by decide)]

theorem readValue?_numberText {cs : List Char} (number : NumberText cs) (ends : Ends rest) (fuel : Nat) :
    readValue? (fuel + 1) (cs ++ rest) = ((readNumber? cs).map (·.1)).map (·, rest) := by
  have read := readNumber?_append number ends
  obtain ⟨c, tail, rfl, start⟩ := number.start
  rw [List.cons_append, readValue?_number start, ← List.cons_append, read, Option.map_map]
  rfl

theorem NumberText.visible {cs : List Char} (number : NumberText cs) :
    ∃ c tail, cs = c :: tail ∧ isSpace c = false ∧ c ≠ ']' := by
  obtain ⟨c, tail, rfl, start⟩ := number.start
  exact ⟨c, tail, rfl, isSpace_start start, start_ne start rfl (by decide)⟩

theorem ends_of {c : Char} (stop : goesOn c = false) (cs : List Char) : Ends (c :: cs) := by
  simpa [Ends] using stop

theorem ends_newline (n : Nat) (cs : List Char) : Ends (newlineChars n ++ cs) :=
  ends_of rfl _

section

-- The equations of the printer are made here once, not by every proof that opens it.
attribute [local simp] write writeItems writeMembers

theorem toList_writeNull (i : Option Nat) : (write i .null).toList = ['n', 'u', 'l', 'l'] := by
  simp

theorem toList_writeTrue (i : Option Nat) : (write i (.bool true)).toList = ['t', 'r', 'u', 'e'] := by
  simp

theorem toList_writeFalse (i : Option Nat) :
    (write i (.bool false)).toList = ['f', 'a', 'l', 's', 'e'] := by
  simp

theorem toList_writeNil (i : Option Nat) : (write i (.arr [])).toList = ['[', ']'] := by
  simp

theorem toList_writeEmpty (i : Option Nat) : (write i (.obj [])).toList = ['\x7b', '\x7d'] := by
  simp [openBrace, closeBrace]

theorem toList_writeArr (n : Nat) (v : Json) (items : List Json) :
    (write (some n) (.arr (v :: items))).toList = '[' :: (newlineChars (n + 1) ++
      ((writeItems (some (n + 1)) (v :: items)).toList ++ (newlineChars n ++ [']']))) := by
  simp [toList_newline]

theorem toList_writeObj (n : Nat) (m : String × Json) (members : List (String × Json)) :
    (write (some n) (.obj (m :: members))).toList = '\x7b' :: (newlineChars (n + 1) ++
      ((writeMembers (some (n + 1)) (m :: members)).toList ++ (newlineChars n ++ ['\x7d']))) := by
  simp [toList_newline, openBrace, closeBrace]

theorem toList_writeItems_cons (n : Nat) (v w : Json) (items : List Json) :
    (writeItems (some n) (v :: w :: items)).toList = (write (some n) v).toList ++
      ',' :: (newlineChars n ++ (writeItems (some n) (w :: items)).toList) := by
  simp [toList_newline]

theorem toList_writeMembers_one (n : Nat) (k : String) (v : Json) :
    (writeMembers (some n) [(k, v)]).toList =
      '"' :: (k.toList.flatMap escapeChar ++ '"' :: ':' :: ' ' :: (write (some n) v).toList) := by
  simp [toList_quote]

theorem toList_writeMembers_cons (n : Nat) (k : String) (v : Json) (m : String × Json)
    (members : List (String × Json)) :
    (writeMembers (some n) ((k, v) :: m :: members)).toList =
      '"' :: (k.toList.flatMap escapeChar ++ '"' :: ':' :: ' ' :: ((write (some n) v).toList ++
        ',' :: (newlineChars n ++ (writeMembers (some n) (m :: members)).toList))) := by
  simp [toList_quote, toList_newline]

end

theorem write_start (n : Nat) (v : Json) :
    ∃ c tail, (write (some n) v).toList = c :: tail ∧ isSpace c = false ∧ c ≠ ']' := by
  cases v with
  | null => exact ⟨'n', _, toList_writeNull _, rfl, by decide⟩
  | bool b =>
    cases b with
    | true => exact ⟨'t', _, toList_writeTrue _, rfl, by decide⟩
    | false => exact ⟨'f', _, toList_writeFalse _, rfl, by decide⟩
  | int n => exact (numberText_int n).visible
  | real x => exact (numberText_real x).visible
  | str s => exact ⟨'"', _, toList_quote s, rfl, by decide⟩
  | arr items =>
    cases items with
    | nil => exact ⟨'[', _, toList_writeNil _, rfl, by decide⟩
    | cons v rest => exact ⟨'[', _, toList_writeArr n v rest, rfl, by decide⟩
  | obj members =>
    cases members with
    | nil => exact ⟨'\x7b', _, toList_writeEmpty _, rfl, by decide⟩
    | cons m rest => exact ⟨'\x7b', _, toList_writeObj n m rest, rfl, by decide⟩

theorem writeItems_start (n : Nat) (v : Json) (items : List Json) :
    ∃ c tail, (writeItems (some n) (v :: items)).toList = c :: tail ∧ isSpace c = false ∧ c ≠ ']' := by
  obtain ⟨c, tail, text, visible, inside⟩ := write_start n v
  cases items with
  | nil => exact ⟨c, tail, by simpa [writeItems] using text, visible, inside⟩
  | cons w items => exact ⟨c, _, by rw [toList_writeItems_cons, text]; rfl, visible, inside⟩

theorem writeMembers_start (n : Nat) (m : String × Json) (members : List (String × Json)) :
    ∃ tail, (writeMembers (some n) (m :: members)).toList = '"' :: tail := by
  cases members with
  | nil => exact ⟨_, toList_writeMembers_one n m.1 m.2⟩
  | cons m' members => exact ⟨_, toList_writeMembers_cons n m.1 m.2 m' members⟩

/-- The text of the value is read as `reread` says, wherever it stands. -/
def Legible (v : Json) : Prop :=
  ∀ (n fuel : Nat) (rest : List Char), Ends rest → 2 * (write (some n) v).toList.length ≤ fuel →
    readValue? fuel ((write (some n) v).toList ++ rest) = (reread v).map (·, rest)

def LegibleItems (items : List Json) : Prop :=
  ∀ (n m fuel : Nat) (rest : List Char), 2 * (writeItems (some n) items).toList.length + 1 ≤ fuel →
    readItems? fuel ((writeItems (some n) items).toList ++ (newlineChars m ++ ']' :: rest)) =
      (rereadItems items).map (·, rest)

def LegibleMembers (members : List (String × Json)) : Prop :=
  ∀ (n m fuel : Nat) (rest : List Char), 2 * (writeMembers (some n) members).toList.length + 1 ≤ fuel →
    readMembers? fuel ((writeMembers (some n) members).toList ++ (newlineChars m ++ '\x7d' :: rest)) =
      (rereadMembers members).map (·, rest)

theorem Legible.of_succ {v : Json}
    (reads : ∀ (n fuel : Nat) (rest : List Char), Ends rest →
      2 * (write (some n) v).toList.length ≤ fuel + 1 →
      readValue? (fuel + 1) ((write (some n) v).toList ++ rest) = (reread v).map (·, rest)) : Legible v := by
  intro n fuel rest ends enough
  have fueled : fuel ≠ 0 := by
    obtain ⟨c, tail, text, -, -⟩ := write_start n v
    rw [text, List.length_cons] at enough
    omega
  obtain ⟨fuel, rfl⟩ := Nat.exists_eq_succ_of_ne_zero fueled
  exact reads n fuel rest ends enough

theorem legible_null : Legible .null := by
  refine .of_succ fun n fuel rest _ _ => ?_
  rw [toList_writeNull]
  rfl

theorem legible_bool (b : Bool) : Legible (.bool b) := by
  refine .of_succ fun n fuel rest _ _ => ?_
  cases b with
  | true =>
    rw [toList_writeTrue]
    rfl
  | false =>
    rw [toList_writeFalse]
    rfl

theorem legible_int (i : Int) : Legible (.int i) := by
  refine .of_succ fun n fuel rest ends _ => ?_
  rw [write, reread]
  exact readValue?_numberText (numberText_int i) ends fuel

theorem legible_real (x : Binary64) : Legible (.real x) := by
  refine .of_succ fun n fuel rest ends _ => ?_
  rw [write, reread]
  exact readValue?_numberText (numberText_real x) ends fuel

theorem legible_str (s : String) : Legible (.str s) := by
  refine .of_succ fun n fuel rest _ _ => ?_
  have text : (write (some n) (.str s)).toList ++ rest =
      '"' :: (s.toList.flatMap escapeChar ++ '"' :: rest) := by
    simp [write, toList_quote]
  have visible : isSpace '"' = false := rfl
  rw [text]
  simp only [readValue?, skipSpace_cons visible, readString?_quoted, Option.map_some, reread]

theorem legible_arr {items : List Json} (legible : items ≠ [] → LegibleItems items) : Legible (.arr items) := by
  refine .of_succ fun n fuel rest _ enough => ?_
  cases items with
  | nil =>
    rw [toList_writeNil]
    rfl
  | cons v items =>
    rw [toList_writeArr] at enough ⊢
    simp only [List.length_cons, List.length_append] at enough
    have read := legible (by simp) (n + 1) n fuel rest (by omega)
    obtain ⟨c, tail, text, shown, inside⟩ := writeItems_start (n + 1) v items
    have inner : skipSpace (newlineChars (n + 1) ++ ((writeItems (some (n + 1)) (v :: items)).toList ++
        (newlineChars n ++ ']' :: rest))) =
          (writeItems (some (n + 1)) (v :: items)).toList ++ (newlineChars n ++ ']' :: rest) := by
      rw [skipSpace_append (newline_blank _), text]
      exact skipSpace_cons shown _
    have visible : isSpace '[' = false := rfl
    simp only [List.cons_append, List.append_assoc, List.nil_append, readValue?, skipSpace_cons visible, inner]
    split
    · next closed =>
      rw [text] at closed
      exact absurd (List.cons.inj closed).1 inside
    · rw [read, reread, Option.map_map, Option.map_map]
      rfl

theorem legible_obj {members : List (String × Json)} (legible : members ≠ [] → LegibleMembers members) :
    Legible (.obj members) := by
  refine .of_succ fun n fuel rest _ enough => ?_
  cases members with
  | nil =>
    rw [toList_writeEmpty]
    rfl
  | cons m members =>
    rw [toList_writeObj] at enough ⊢
    simp only [List.length_cons, List.length_append] at enough
    have read := legible (by simp) (n + 1) n fuel rest (by omega)
    obtain ⟨tail, text⟩ := writeMembers_start (n + 1) m members
    have quoted : isSpace '"' = false := rfl
    have inner : skipSpace (newlineChars (n + 1) ++ ((writeMembers (some (n + 1)) (m :: members)).toList ++
        (newlineChars n ++ '\x7d' :: rest))) =
          (writeMembers (some (n + 1)) (m :: members)).toList ++ (newlineChars n ++ '\x7d' :: rest) := by
      rw [skipSpace_append (newline_blank _), text]
      exact skipSpace_cons quoted _
    have visible : isSpace '\x7b' = false := rfl
    simp only [List.cons_append, List.append_assoc, List.nil_append, readValue?, skipSpace_cons visible, inner]
    split
    · next closed =>
      rw [text] at closed
      exact absurd (List.cons.inj closed).1 (by decide)
    · rw [read, reread, Option.map_map, Option.map_map]
      rfl

theorem legibleItems_cons {v : Json} {items : List Json} (legible : Legible v)
    (others : items ≠ [] → LegibleItems items) : LegibleItems (v :: items) := by
  intro n m fuel rest enough
  obtain ⟨fuel, rfl⟩ := Nat.exists_eq_succ_of_ne_zero (Nat.ne_of_gt (Nat.zero_lt_of_lt enough))
  cases items with
  | nil =>
    have text : (writeItems (some n) [v]).toList = (write (some n) v).toList := by simp [writeItems]
    rw [text] at enough ⊢
    have read := legible n fuel _ (ends_newline m (']' :: rest)) (by omega)
    have close : skipSpace (newlineChars m ++ ']' :: rest) = ']' :: rest := by
      rw [skipSpace_append (newline_blank m)]
      rfl
    simp only [readItems?, read, rereadItems]
    cases reread v with
    | none => rfl
    | some v => simp [close]
  | cons w items =>
    rw [toList_writeItems_cons] at enough ⊢
    simp only [List.length_cons, List.length_append] at enough
    have comma : isSpace ',' = false := rfl
    have read := legible n fuel (',' :: (newlineChars n ++ ((writeItems (some n) (w :: items)).toList ++
      (newlineChars m ++ ']' :: rest)))) (ends_of rfl _) (by omega)
    have more := others (by simp) n m fuel rest (by omega)
    simp only [List.cons_append, List.append_assoc, readItems?, read]
    rw [rereadItems]
    cases reread v with
    | none => rfl
    | some v =>
      simp only [Option.map_some, skipSpace_cons comma, readItems?_space _ (newline_blank n), more,
        Option.map_map, Option.bind_some]
      rfl

section Member

variable {k : String} {fuel : Nat} {cs tail : List Char} {o : Option Json}

theorem readMembers?_last (read : readValue? fuel cs = o.map (·, tail)) (close : skipSpace tail = '\x7d' :: rest) :
    readMembers? (fuel + 1) ('"' :: (k.toList.flatMap escapeChar ++ '"' :: ':' :: ' ' :: cs)) =
      o.map fun v => ([(k, v)], rest) := by
  have quoted : isSpace '"' = false := rfl
  have colon : isSpace ':' = false := rfl
  simp only [readMembers?, skipSpace_cons quoted, readString?_quoted, skipSpace_cons colon, readValue?_blank, read]
  cases o with
  | none => rfl
  | some v => simp only [Option.map_some, close]

theorem readMembers?_more (read : readValue? fuel cs = o.map (·, ',' :: tail)) :
    readMembers? (fuel + 1) ('"' :: (k.toList.flatMap escapeChar ++ '"' :: ':' :: ' ' :: cs)) =
      o.bind fun v => (readMembers? fuel tail).map fun found => ((k, v) :: found.1, found.2) := by
  have quoted : isSpace '"' = false := rfl
  have colon : isSpace ':' = false := rfl
  have comma : isSpace ',' = false := rfl
  simp only [readMembers?, skipSpace_cons quoted, readString?_quoted, skipSpace_cons colon, readValue?_blank, read]
  cases o with
  | none => rfl
  | some v => simp only [Option.map_some, skipSpace_cons comma, Option.bind_some]

end Member

theorem legibleMembers_cons {k : String} {v : Json} {members : List (String × Json)} (legible : Legible v)
    (others : members ≠ [] → LegibleMembers members) : LegibleMembers ((k, v) :: members) := by
  intro n m fuel rest enough
  obtain ⟨fuel, rfl⟩ := Nat.exists_eq_succ_of_ne_zero (Nat.ne_of_gt (Nat.zero_lt_of_lt enough))
  cases members with
  | nil =>
    rw [toList_writeMembers_one] at enough ⊢
    simp only [List.length_cons, List.length_append] at enough
    have read := legible n fuel _ (ends_newline m ('\x7d' :: rest)) (by omega)
    have close : skipSpace (newlineChars m ++ '\x7d' :: rest) = '\x7d' :: rest := by
      rw [skipSpace_append (newline_blank m)]
      rfl
    simp only [List.cons_append, List.append_assoc, readMembers?_last read close, rereadMembers]
    cases reread v <;> rfl
  | cons m' members =>
    rw [toList_writeMembers_cons] at enough ⊢
    simp only [List.length_cons, List.length_append] at enough
    have read := legible n fuel (',' :: (newlineChars n ++ ((writeMembers (some n) (m' :: members)).toList ++
      (newlineChars m ++ '\x7d' :: rest)))) (ends_of rfl _) (by omega)
    have more := others (by simp) n m fuel rest (by omega)
    simp only [List.cons_append, List.append_assoc, readMembers?_more read]
    rw [rereadMembers]
    cases reread v with
    | none => rfl
    | some v =>
      simp only [readMembers?_space _ (newline_blank n), more, Option.map_map, Option.bind_some]
      rfl

-- By recursion on the value. The fuel is no measure here: it only has to cover what is left of the text.
mutual
theorem legible (v : Json) : Legible v := by
  cases v with
  | null => exact legible_null
  | bool b => exact legible_bool b
  | int n => exact legible_int n
  | real x => exact legible_real x
  | str s => exact legible_str s
  | arr items => exact legible_arr fun _ => legibleItems items ‹_›
  | obj members => exact legible_obj fun _ => legibleMembers members ‹_›

theorem legibleItems (items : List Json) (nonempty : items ≠ []) : LegibleItems items := by
  cases items with
  | nil => exact absurd rfl nonempty
  | cons v items => exact legibleItems_cons (legible v) (legibleItems items)

theorem legibleMembers (members : List (String × Json)) (nonempty : members ≠ []) :
    LegibleMembers members := by
  cases members with
  | nil => exact absurd rfl nonempty
  | cons m members => exact legibleMembers_cons (legible m.2) (legibleMembers members)
end

theorem read?_write (v : Json) :
    read? (write (some 0) v) = (reread v).bind fun w => if depth w ≤ depthLimit then some w else none := by
  have read := legible v 0 (2 * (write (some 0) v).toList.length + 1) [] Ends.nil (by omega)
  rw [List.append_nil] at read
  rw [read?, readChars?, read]
  cases reread v with
  | none => rfl
  | some w => simp [skipSpace]

end FleetOps.Json
