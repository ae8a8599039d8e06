import FleetOps.Proofs.Lists
import FleetOps.Settings.Loading
import Mathlib.Data.List.Basic
import Mathlib.Data.List.Infix
import Mathlib.Data.List.TakeWhile

set_option autoImplicit false

/-!
References to environment variables. A text is meant to have each of its references replaced by a value,
once, and everything between them left as it is. Replacing the references one after the other, wherever
they stand in the text built so far, comes to the same unless a reference shows up that was not one of the
text: within another reference, or in what the values make together with the text around them.
-/

namespace FleetOps.Expansion

variable {c : Char} {cs rest old new out : List Char} {name : List Char}

theorem replaceAll_skipped (skipped rest : List Char) :
    replaceAll old new skipped.length (skipped ++ rest) = replaceAll old new 0 rest := by
  induction skipped with
  | nil => rfl
  | cons c skipped ih => exact ih

theorem replaceAll_word (filled : old ≠ []) (rest : List Char) :
    replaceAll old new 0 (old ++ rest) = new ++ replaceAll old new 0 rest := by
  cases old with
  | nil => exact absurd rfl filled
  | cons c cs =>
    have here : (c :: cs).isPrefixOf (c :: (cs ++ rest)) = true := by simp
    simp only [List.cons_append, replaceAll, here, if_true, List.length_cons, Nat.add_sub_cancel,
      replaceAll_skipped]

theorem replaceAll_stretch {stretch : List Char}
    (clear : ∀ left, left <:+ stretch → left ≠ [] → ¬ old <+: left ++ rest) :
    replaceAll old new 0 (stretch ++ rest) = stretch ++ replaceAll old new 0 rest := by
  induction stretch with
  | nil => rfl
  | cons c stretch ih =>
    have away : old.isPrefixOf (c :: (stretch ++ rest)) = false := by
      rw [← Bool.not_eq_true, List.isPrefixOf_iff_prefix]
      exact clear _ List.suffix_rfl (List.cons_ne_nil c stretch)
    rw [List.cons_append, replaceAll, away, if_neg Bool.false_ne_true,
      ih fun left ends => clear left (ends.trans (List.suffix_cons c stretch))]
    rfl

theorem takeWhile_unbraced {inner : List Char} (unbraced : '}' ∉ inner) (rest : List Char) :
    (inner ++ '}' :: rest).takeWhile (· ≠ '}') = inner := by
  have passes : ∀ c ∈ inner, decide (c ≠ '}') = true := fun c mem =>
    decide_eq_true fun same => unbraced (same ▸ mem)
  rw [List.takeWhile_append_of_pos passes]
  simp

def Closed (word : List Char) : Prop :=
  ∃ inner, '}' ∉ inner ∧ word = inner ++ ['}']

theorem closed_written (unbraced : '}' ∉ name) : Closed (written name) :=
  ⟨'$' :: '{' :: name, by simp [unbraced], rfl⟩

theorem Closed.of_suffix {word left : List Char} (closed : Closed word) (ends : left <:+ word)
    (filled : left ≠ []) : Closed left := by
  obtain ⟨inner, unbraced, rfl⟩ := closed
  obtain ⟨before, split⟩ := ends
  have parted := left.dropLast_append_getLast filled
  rw [← parted, ← List.append_assoc] at split
  obtain ⟨same, last⟩ := List.append_inj' split rfl
  refine ⟨left.dropLast, fun mem => unbraced (same ▸ List.mem_append_right before mem), ?_⟩
  rw [← last, parted]

theorem Closed.eq_of_begins {word word' : List Char} (closed : Closed word) (closed' : Closed word')
    (begins : word <+: word' ++ rest) : word = word' := by
  obtain ⟨inner, unbraced, rfl⟩ := closed
  obtain ⟨inner', unbraced', rfl⟩ := closed'
  obtain ⟨after, split⟩ := begins
  rw [List.append_assoc, List.append_assoc] at split
  have same : inner = inner' := by
    rw [← takeWhile_unbraced unbraced after, ← takeWhile_unbraced unbraced' rest]
    exact congrArg _ split
  rw [same]

theorem written_append (name rest : List Char) :
    written name ++ rest = '$' :: '{' :: (name ++ '}' :: rest) := by
  simp [written]

theorem reference?_eq_some :
    reference? cs = some name ↔ name ≠ [] ∧ '}' ∉ name ∧ ∃ rest, cs = written name ++ rest := by
  unfold reference?
  split
  · next after =>
    simp only [List.cons.injEq, true_and, written_append]
    by_cases braced : '}' ∈ after
    · obtain ⟨inner, rest, rfl, unbraced⟩ := List.eq_append_cons_of_mem braced
      rw [takeWhile_unbraced unbraced]
      constructor
      · intro found
        split at found
        · cases found
        · next usable =>
          obtain rfl := Option.some.inj found
          exact ⟨by rintro rfl; simp at usable, unbraced, rest, rfl⟩
      · rintro ⟨filled, unbraced', rest', parted⟩
        obtain rfl : inner = name := by
          rw [← takeWhile_unbraced unbraced rest, parted, takeWhile_unbraced unbraced']
        exact if_neg (by simp [filled])
    · have whole : after.takeWhile (· ≠ '}') = after := by
        rw [List.takeWhile_eq_self_iff]
        exact fun c mem => decide_eq_true fun same => braced (same ▸ mem)
      rw [whole]
      constructor
      · simp
      · rintro ⟨-, -, rest, rfl⟩
        simp at braced
  · next other =>
    constructor
    · nofun
    · rintro ⟨-, -, rest, rfl⟩
      exact absurd rfl (other _)

theorem references_skipped (skipped rest : List Char) :
    references skipped.length (skipped ++ rest) = references 0 rest := by
  induction skipped with
  | nil => rfl
  | cons c skipped ih => exact ih

theorem references_written (filled : name ≠ []) (unbraced : '}' ∉ name) (rest : List Char) :
    references 0 (written name ++ rest) = name :: references 0 rest := by
  have found := reference?_eq_some.mpr ⟨filled, unbraced, rest, rfl⟩
  have skipped := references_skipped ('{' :: name ++ ['}']) rest
  rw [written_append] at found ⊢
  rw [references, found]
  simpa using skipped

theorem references_char (plain : reference? (c :: cs) = none) :
    references 0 (c :: cs) = references 0 cs := by
  rw [references, plain]

/-- From the left, each reference is replaced by its value, and what follows it is looked at next; a
character at which no reference begins stays. -/
inductive Substitutes (vs : Variables) : List Char → List Char → Prop where
  | done : Substitutes vs [] []
  | reference {name rest out : List Char} {value : String} (filled : name ≠ []) (unbraced : '}' ∉ name)
      (set : vs.value? (String.ofList name) = some value) (others : Substitutes vs rest out) :
      Substitutes vs (written name ++ rest) (value.toList ++ out)
  | char {c : Char} {rest out : List Char}
      (plain : ∀ name after, name ≠ [] → '}' ∉ name → c :: rest ≠ written name ++ after)
      (others : Substitutes vs rest out) : Substitutes vs (c :: rest) (c :: out)

variable {vs : Variables}

theorem reference?_eq_none :
    reference? cs = none ↔ ∀ name after, name ≠ [] → '}' ∉ name → cs ≠ written name ++ after := by
  simp only [Option.eq_none_iff_forall_ne_some, ne_eq, reference?_eq_some, not_and, not_exists]
  exact ⟨fun unreferenced name after filled unbraced => unreferenced name filled unbraced after,
    fun plain name filled unbraced after => plain name after filled unbraced⟩

theorem exists_substitutes
    (set : ∀ name ∈ references 0 cs, ∃ value, vs.value? (String.ofList name) = some value) :
    ∃ out, Substitutes vs cs out := by
  induction length : cs.length using Nat.strong_induction_on generalizing cs with
  | _ n ih =>
    cases cs with
    | nil => exact ⟨[], .done⟩
    | cons c cs =>
      cases found : reference? (c :: cs) with
      | none =>
        rw [references_char found] at set
        obtain ⟨out, others⟩ := ih cs.length (by simp [← length]) set rfl
        exact ⟨c :: out, .char (reference?_eq_none.mp found) others⟩
      | some name =>
        obtain ⟨filled, unbraced, rest, split⟩ := reference?_eq_some.mp found
        rw [split, references_written filled unbraced] at set
        obtain ⟨⟨value, own⟩, set⟩ := List.forall_mem_cons.mp set
        obtain ⟨out, others⟩ := ih rest.length (by simp [← length, split, written]; omega) set rfl
        rw [split]
        exact ⟨value.toList ++ out, .reference filled unbraced own others⟩

theorem Substitutes.unique {out' : List Char} (one : Substitutes vs cs out) (other : Substitutes vs cs out') :
    out = out' := by
  induction one generalizing out' with
  | done =>
    cases other
    rfl
  | @reference name rest out value filled unbraced set others ih =>
    generalize text : written name ++ rest = cs at other
    cases other with
    | done => cases text
    | @reference name' rest' _ value' filled' unbraced' set' others' =>
      have text : name ++ '}' :: rest = name' ++ '}' :: rest' := by simpa [written_append] using text
      obtain rfl : name = name' := by
        rw [← takeWhile_unbraced unbraced rest, text, takeWhile_unbraced unbraced']
      obtain rfl : rest = rest' := by simpa using text
      obtain rfl := Option.some.inj (set.symm.trans set')
      rw [ih others']
    | char plain => exact absurd text.symm (plain name rest filled unbraced)
  | @char c rest out plain others ih =>
    generalize text : c :: rest = cs at other
    cases other with
    | done => cases text
    | reference filled unbraced => exact absurd text (plain _ _ filled unbraced)
    | char _ others' =>
      obtain ⟨rfl, rfl⟩ := List.cons.inj text
      rw [ih others']

inductive Piece where
  | char (c : Char)
  | reference (name : List Char)

def Piece.laid (put : List Char → List Char) : Piece → List Char
  | .char c => [c]
  | .reference name => put name

def laid (put : List Char → List Char) (ps : List Piece) : List Char :=
  ps.flatMap (Piece.laid put)

def names : List Piece → List (List Char)
  | [] => []
  | .char _ :: ps => names ps
  | .reference name :: ps => name :: names ps

def valueOf (vs : Variables) (name : List Char) : List Char :=
  ((vs.value? (String.ofList name)).getD "").toList

theorem Substitutes.pieces (meant : Substitutes vs cs out) :
    ∃ ps, laid written ps = cs ∧ laid (valueOf vs) ps = out ∧ names ps = references 0 cs ∧
      ∀ name ∈ names ps, '}' ∉ name := by
  induction meant with
  | done => exact ⟨[], rfl, rfl, rfl, nofun⟩
  | @reference name rest out value filled unbraced set others ih =>
    obtain ⟨ps, text, result, named, closed⟩ := ih
    refine ⟨.reference name :: ps, ?_, ?_, ?_, List.forall_mem_cons.mpr ⟨unbraced, closed⟩⟩
    · rw [← text]
      rfl
    · rw [← result]
      simp [laid, Piece.laid, valueOf, set]
    · rw [references_written filled unbraced, ← named]
      rfl
  | @char c rest out plain others ih =>
    obtain ⟨ps, text, result, named, closed⟩ := ih
    refine ⟨.char c :: ps, ?_, ?_, ?_, closed⟩
    · rw [← text]
      rfl
    · rw [← result]
      rfl
    · rw [references_char (reference?_eq_none.mpr plain), ← named]
      rfl

variable {value : List Char → List Char} {done : List (List Char)} {ps : List Piece}

def partly (value : List Char → List Char) (done : List (List Char)) (name : List Char) : List Char :=
  if name ∈ done then value name else written name

/-- A reference that shows nowhere but at its own places: it is no part of another one, none is a part of
it, and it is not in the text of the values. -/
structure Clear (value : List Char → List Char) (name : List Char) (ps : List Piece) : Prop where
  unbraced : '}' ∉ name
  closed : ∀ m ∈ names ps, '}' ∉ m
  apart : ∀ m ∈ names ps, m ≠ name → ¬ written m <:+: written name ∧ ¬ written name <:+: written m
  unseen : ¬ written name <:+: laid value ps

namespace Clear

theorem tail {p : Piece} (clear : Clear value name (p :: ps)) : Clear value name ps := by
  have later : ∀ m ∈ names ps, m ∈ names (p :: ps) := by
    cases p with
    | char c => exact fun m mem => mem
    | reference n => exact fun m mem => List.mem_cons_of_mem n mem
  exact ⟨clear.unbraced, fun m mem => clear.closed m (later m mem), fun m mem => clear.apart m (later m mem),
    fun there => clear.unseen (there.trans (List.suffix_append _ _).isInfix)⟩

theorem reaches (clear : Clear value name ps) {left : List Char} (ends : left <:+ written name)
    (filled : left ≠ []) (begins : left <+: laid (partly value done) ps) :
    left <+: laid value ps ∨ left = written name := by
  induction ps generalizing left with
  | nil => exact absurd (List.prefix_nil.mp begins) filled
  | cons p ps ih =>
    -- A block that is in both texts is passed, and what is left goes on behind it.
    have passed {block : List Char} (begins : left <+: block ++ laid (partly value done) ps) :
        left <+: block ++ laid value ps ∨ left = written name := by
      rcases prefix_append_cases begins with here | ⟨left', rfl, onward⟩
      · exact .inl (List.prefix_append_of_prefix here)
      · by_cases spent : left' = []
        · exact .inl (by simp [spent])
        · obtain there | whole := ih clear.tail ((List.suffix_append block left').trans ends) spent onward
          · exact .inl ((List.prefix_append_right_inj block).mpr there)
          · refine .inr (ends.eq_of_length_le ?_)
            rw [whole]
            exact (List.suffix_append block _).length_le
    cases p with
    | char c => exact passed begins
    | reference m =>
      by_cases member : m ∈ done
      · have begins : left <+: value m ++ laid (partly value done) ps := by
          simpa [laid, Piece.laid, partly, member] using begins
        simpa [laid, Piece.laid] using passed begins
      · have begins : left <+: written m ++ laid (partly value done) ps := by
          simpa [laid, Piece.laid, partly, member] using begins
        have closed := (closed_written clear.unbraced).of_suffix ends filled
        have same := closed.eq_of_begins (closed_written (clear.closed m List.mem_cons_self)) begins
        by_cases own : m = name
        · exact .inr (own ▸ same)
        · exact absurd (same ▸ ends).isInfix (clear.apart m List.mem_cons_self own).1

theorem misses (clear : Clear value name ps) {block : List Char}
    (unseen : ¬ written name <:+: block ++ laid value ps) :
    ∀ left, left <:+ block → left ≠ [] → ¬ written name <+: left ++ laid (partly value done) ps := by
  intro left ends filled begins
  have within : left ++ laid value ps <:+: block ++ laid value ps := by
    obtain ⟨before, rfl⟩ := ends
    exact ⟨before, [], by simp⟩
  rcases prefix_append_cases begins with here | ⟨rest, split, begins⟩
  · exact unseen ((List.prefix_append_of_prefix here).isInfix.trans within)
  · by_cases spent : rest = []
    · rw [spent, List.append_nil] at split
      exact unseen (split ▸ (List.prefix_append left _).isInfix.trans within)
    · obtain there | whole := clear.reaches ⟨left, split.symm⟩ spent begins
      · refine unseen (List.IsInfix.trans ?_ within)
        rw [split]
        exact ((List.prefix_append_right_inj left).mpr there).isInfix
      · rw [whole] at split
        exact filled (List.self_eq_append_left.mp split)

theorem replaced (clear : Clear value name ps) :
    replaceAll (written name) (value name) 0 (laid (partly value done) ps) =
      laid (partly value (name :: done)) ps := by
  induction ps with
  | nil => rfl
  | cons p ps ih =>
    have rest := ih clear.tail
    -- A block in which the reference does not begin stays, whatever follows it.
    have stays {block : List Char}
        (away : ∀ left, left <:+ block → left ≠ [] →
          ¬ written name <+: left ++ laid (partly value done) ps) :
        replaceAll (written name) (value name) 0 (block ++ laid (partly value done) ps) =
          block ++ laid (partly value (name :: done)) ps := by
      rw [replaceAll_stretch away, rest]
    cases p with
    | char c =>
      exact stays (clear.tail.misses clear.unseen)
    | reference m =>
      by_cases member : m ∈ done
      · have unseen : ¬ written name <:+: value m ++ laid value ps := by
          simpa [laid, Piece.laid] using clear.unseen
        simpa [laid, Piece.laid, partly, member] using stays (clear.tail.misses unseen)
      · by_cases own : m = name
        · subst own
          have word : replaceAll (written m) (value m) 0 (written m ++ laid (partly value done) ps) =
              value m ++ laid (partly value (m :: done)) ps := by
            rw [replaceAll_word (by simp [written]), rest]
          simpa [laid, Piece.laid, partly, member] using word
        · have closed := closed_written (clear.closed m List.mem_cons_self)
          have away : ∀ left, left <:+ written m → left ≠ [] →
              ¬ written name <+: left ++ laid (partly value done) ps := by
            intro left ends filled begins
            have same := (closed_written clear.unbraced).eq_of_begins (closed.of_suffix ends filled) begins
            exact (clear.apart m List.mem_cons_self own).2 (same ▸ ends).isInfix
          simpa [laid, Piece.laid, partly, member, own] using stays away

end Clear

theorem laid_congr {put put' : List Char → List Char} (same : ∀ name ∈ names ps, put name = put' name) :
    laid put ps = laid put' ps := by
  induction ps with
  | nil => rfl
  | cons p ps ih =>
    cases p with
    | char c => exact congrArg ([c] ++ ·) (ih same)
    | reference m =>
      obtain ⟨own, same⟩ := List.forall_mem_cons.mp same
      exact congrArg₂ (· ++ ·) own (ih same)

theorem foldlM_replaceReference {order : List (List Char)}
    (usable : ∀ name ∈ order, (∃ value, vs.value? (String.ofList name) = some value) ∧
      Clear (valueOf vs) name ps) :
    order.foldlM (replaceReference vs) (laid (partly (valueOf vs) done) ps) =
      .ok (laid (partly (valueOf vs) (order.reverse ++ done)) ps) := by
  induction order generalizing done with
  | nil => rfl
  | cons name order ih =>
    obtain ⟨⟨⟨value, set⟩, clear⟩, usable⟩ := List.forall_mem_cons.mp usable
    have step : replaceReference vs (laid (partly (valueOf vs) done) ps) name =
        .ok (laid (partly (valueOf vs) (name :: done)) ps) := by
      have own : valueOf vs name = value.toList := by simp only [valueOf, set, Option.getD_some]
      simp only [replaceReference, set, ← own, clear.replaced]
    rw [List.foldlM_cons, step]
    exact (ih usable).trans (by simp)

/-- No reference of the text is a part of another one, or of the text that is meant. -/
structure Undisturbed (text meant : List Char) : Prop where
  apart : ∀ m ∈ references 0 text, ∀ n ∈ references 0 text, m ≠ n → ¬ written m <:+: written n
  unseen : ∀ n ∈ references 0 text, ¬ written n <:+: meant

/-- Where every reference is set, there is one text that is meant. It is what the expansion gives, and what
the references give in any other order, if it and the references are undisturbed by them. -/
theorem expand_meant (vs : Variables) (text : String)
    (set : ∀ name ∈ references 0 text.toList, ∃ value, vs.value? (String.ofList name) = some value) :
    ∃ meant, Substitutes vs text.toList meant ∧
      (∀ other, Substitutes vs text.toList other → other = meant) ∧
      (Undisturbed text.toList meant → expand vs text = .ok (String.ofList meant) ∧
        ∀ order : List (List Char), order.Perm (references 0 text.toList) →
          order.foldlM (replaceReference vs) text.toList = .ok meant) := by
  obtain ⟨meant, substitutes⟩ := exists_substitutes set
  refine ⟨meant, substitutes, fun other also => also.unique substitutes, fun undisturbed => ?_⟩
  obtain ⟨ps, joined, result, named, closed⟩ := substitutes.pieces
  have clear (name : List Char) (mem : name ∈ references 0 text.toList) : Clear (valueOf vs) name ps := by
    constructor
    · exact closed name (named ▸ mem)
    · exact closed
    · intro m there other
      rw [named] at there
      exact ⟨undisturbed.apart m there name mem other, undisturbed.apart name mem m there other.symm⟩
    · rw [result]
      exact undisturbed.unseen name mem
  have start : laid (partly (valueOf vs) []) ps = text.toList := by
    rw [← joined]
    exact laid_congr fun name _ => by simp [partly]
  have any (order : List (List Char)) (perm : order.Perm (references 0 text.toList)) :
      order.foldlM (replaceReference vs) text.toList = .ok meant := by
    have usable : ∀ name ∈ order, (∃ value, vs.value? (String.ofList name) = some value) ∧
        Clear (valueOf vs) name ps := fun name mem =>
      ⟨set name (perm.mem_iff.mp mem), clear name (perm.mem_iff.mp mem)⟩
    rw [← start, foldlM_replaceReference usable, ← result]
    refine congrArg _ (laid_congr fun name mem => ?_)
    have processed : name ∈ order := perm.mem_iff.mpr (named ▸ mem)
    simp [partly, processed]
  refine ⟨?_, any⟩
  rw [expand, any _ (.refl _)]
  rfl

def secrets : Variables :=
  [("A", "p$w"), ("B", String.ofList ('}' :: written ['C']))]

def secretText : List Char :=
  '$' :: written ['A'] ++ written ['B'] ++ written ['A']

def secretMeant : List Char :=
  "$p$w\x7d".toList ++ written ['C'] ++ "p$w".toList

theorem secrets_meant : Substitutes secrets secretText secretMeant := by
  have a : secrets.value? (String.ofList ['A']) = some "p$w" := by simp [secrets, Variables.value?]
  have b : secrets.value? (String.ofList ['B']) = some (String.ofList ('}' :: written ['C'])) := by
    simp [secrets, Variables.value?]
  have last := Substitutes.reference (by simp) (by simp) a .done
  have text := Substitutes.reference (by simp) (by simp) a (.reference (by simp) (by simp) b last)
  rw [String.toList_ofList] at text
  exact .char (reference?_eq_none.mp (by decide +kernel)) text

theorem secrets_expand :
    Undisturbed secretText secretMeant ∧
      expand secrets (String.ofList secretText) = .ok (String.ofList secretMeant) := by
  have named : references 0 secretText = [['A'], ['B'], ['A']] := by decide +kernel
  have undisturbed : Undisturbed secretText secretMeant := by
    constructor <;> rw [named] <;> decide +kernel
  refine ⟨undisturbed, ?_⟩
  obtain ⟨meant, -, unique, expands⟩ := expand_meant secrets (String.ofList secretText) (by
    rw [String.toList_ofList, named]
    simp [secrets, Variables.value?])
  rw [String.toList_ofList] at unique expands
  obtain rfl := unique secretMeant secrets_meant
  exact (expands undisturbed).1

def nested : Variables :=
  [("A", String.ofList (written ['B'])), ("B", "deep")]

def nestedText : List Char :=
  written ['A'] ++ written ['B']

theorem nested_expanded :
    ∃ meant, Substitutes nested nestedText meant ∧ String.ofList meant ≠ "deepdeep" ∧
      expand nested (String.ofList nestedText) = .ok "deepdeep" ∧
      (references 0 nestedText).reverse.foldlM (replaceReference nested) nestedText = .ok meant := by
  have a : nested.value? (String.ofList ['A']) = some (String.ofList (written ['B'])) := by
    simp [nested, Variables.value?]
  have b : nested.value? (String.ofList ['B']) = some "deep" := by simp [nested, Variables.value?]
  have named : references 0 nestedText = [['A'], ['B']] := by decide +kernel
  refine ⟨written ['B'] ++ "deep".toList, ?_, by decide, ?_, ?_⟩
  · have last := Substitutes.reference (by simp) (by simp) b .done
    have text := Substitutes.reference (by simp) (by simp) a last
    rwa [String.toList_ofList] at text
  · simp only [expand, String.toList_ofList, named, List.foldlM_cons, replaceReference, a, b]
    decide +kernel
  · have turned : (references 0 nestedText).reverse = [['B'], ['A']] := by decide +kernel
    simp only [turned, List.foldlM_cons, replaceReference, a, b]
    decide +kernel

end FleetOps.Expansion
