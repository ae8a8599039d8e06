import FleetOps.Proofs.Lists
import FleetOps.Proofs.Text.Numeral
import FleetOps.Schedule.Error
import Mathlib.Algebra.Group.Nat.Defs

set_option autoImplicit false

namespace FleetOps

namespace ScheduleId

variable {s t : String} {n : Nat} {id : ScheduleId}

theorem isNumber_iff : isNumber t = true ↔ t ≠ "" ∧ ∀ c ∈ t.toList, c.isDigit = true := by
  simp [isNumber]

theorem parse_eq_ok : parse s = .ok id ↔ parse? s = some id := by
  unfold parse
  cases parse? s <;> simp

theorem toList_text_numeric (n : Nat) : (numeric n).text.toList = Nat.toDigits 10 n := by
  simp [text, toString, Nat.repr]

structure SpellsNumber (t : String) (n : Nat) : Prop where
  nonempty : t ≠ ""
  digits : ∀ c ∈ t.toList, c.isDigit = true
  value : Text.digitsValue t.toList = n
  fits : n < 2 ^ 64

structure SpellsName (t : String) : Prop where
  chars : ∀ c ∈ t.toList, c.isLower = true ∨ c.isDigit = true ∨ c = '_' ∨ c = '-'
  other : ∃ c ∈ t.toList, c.isDigit = false

theorem isNameChar_iff {c : Char} :
    isNameChar c = true ↔ c.isLower = true ∨ c.isDigit = true ∨ c = '_' ∨ c = '-' := by
  simp [isNameChar, or_assoc]

theorem spellsNumber_iff : SpellsNumber t n ↔ isNumber t = true ∧ Text.numeral? Text.idBound t = some n := by
  rw [isNumber_iff, Text.numeral?_eq_some]
  constructor
  · rintro ⟨nonempty, digits, value, fits⟩
    exact ⟨⟨nonempty, digits⟩, ⟨t.toList, .inl rfl, by simpa using nonempty, digits, value⟩, fits⟩
  · rintro ⟨⟨nonempty, digits⟩, decimal, fits⟩
    have unsigned : t.toList.head? ≠ some '+' := fun signed =>
      absurd (digits '+' (List.mem_of_mem_head? signed)) (by decide)
    exact ⟨nonempty, digits, ((Text.decimal_unsigned unsigned).mp decimal).2.2, fits⟩

theorem spellsName_iff : SpellsName t ↔ isNumber t = false ∧ isName t = true := by
  rw [← Bool.not_eq_true, isNumber_iff, isName, Bool.and_eq_true, List.all_eq_true]
  simp only [isNameChar_iff]
  constructor
  · rintro ⟨chars, c, mem, other⟩
    have nonempty : t ≠ "" := by
      rintro rfl
      simp at mem
    exact ⟨fun number => by simp [number.2 c mem] at other, by simpa using nonempty, chars⟩
  · rintro ⟨other, nonempty, chars⟩
    have nonempty : t ≠ "" := by simpa using nonempty
    exact ⟨chars, by simpa using fun digits => other ⟨nonempty, digits⟩⟩

theorem parse?_eq_some : parse? s = some id ↔
    (∃ n, id = .numeric n ∧ SpellsNumber (Text.trim s) n) ∨
      id = .named (Text.trim s) ∧ SpellsName (Text.trim s) := by
  simp only [spellsNumber_iff, spellsName_iff]
  unfold parse? ofName?
  dsimp only
  cases isNumber (Text.trim s) with
  | true =>
    simp only [if_true, Option.map_eq_some_iff, true_and, Bool.true_eq_false, false_and, and_false, or_false]
    exact exists_congr fun n => ⟨fun ⟨read, own⟩ => ⟨own.symm, read⟩, fun ⟨own, read⟩ => ⟨read, own.symm⟩⟩
  | false =>
    cases isName (Text.trim s) with
    | true => simp [eq_comm]
    | false => simp

theorem parse_eq_error {e : SchedulerError} :
    parse s = .error e ↔ parse? s = none ∧ e = .invalidScheduleId (Text.trim s) := by
  unfold parse
  cases parse? s <;> simp [eq_comm]

theorem SpellsNumber.read_text (spells : SpellsNumber t n) : parse (numeric n).text = .ok (.numeric n) := by
  have digits : ∀ c ∈ (numeric n).text.toList, c.isDigit = true := by
    rw [toList_text_numeric]
    exact fun c => Text.isDigit_toDigits
  have bare : Text.trim (numeric n).text = (numeric n).text :=
    Text.trim_eq_self fun c mem => Text.isBlank_digit (digits c mem)
  have own : SpellsNumber (numeric n).text n := by
    refine ⟨?_, digits, ?_, spells.fits⟩
    · rw [ne_eq, ← String.toList_eq_nil_iff, toList_text_numeric]
      exact Nat.toDigits_ne_nil
    · rw [toList_text_numeric, Text.digitsValue_toDigits]
  exact parse_eq_ok.mpr (parse?_eq_some.mpr (.inl ⟨n, rfl, bare.symm ▸ own⟩))

theorem isBlank_nameChar {c : Char} (char : c.isLower = true ∨ c.isDigit = true ∨ c = '_' ∨ c = '-') :
    Text.isBlank c = false := by
  rcases char with lower | digit | rfl | rfl
  · obtain ⟨least, most⟩ := Bool.and_eq_true_iff.mp lower
    have low : 97 ≤ c.toNat := of_decide_eq_true least
    have high : c.toNat ≤ 122 := of_decide_eq_true most
    exact Text.isBlank_graphic (by omega) (by omega)
  · exact Text.isBlank_digit digit
  · rfl
  · rfl

theorem SpellsName.read_text (spells : SpellsName t) : parse (named t).text = .ok (.named t) := by
  have bare : Text.trim t = t := Text.trim_eq_self fun c mem => isBlank_nameChar (spells.chars c mem)
  exact parse_eq_ok.mpr (parse?_eq_some.mpr (.inr ⟨congrArg named bare.symm, bare.symm ▸ spells⟩))

theorem parse_text (read : parse s = .ok id) : parse id.text = .ok id := by
  rcases parse?_eq_some.mp (parse_eq_ok.mp read) with ⟨n, rfl, spells⟩ | ⟨rfl, spells⟩
  · exact spells.read_text
  · exact spells.read_text

end ScheduleId

theorem ScheduleKind.name_inj {k l : ScheduleKind} : k.name = l.name ↔ k = l := by
  cases k <;> cases l <;> decide

theorem ScheduleKind.colon_not_mem_name (k : ScheduleKind) : ':' ∉ k.name.toList := by
  cases k <;> decide

theorem ScheduleKey.text_inj {a b : ScheduleKey} : a.text = b.text ↔ a.kind = b.kind ∧ a.id.text = b.id.text := by
  have parts (k : ScheduleKey) : k.text.toList = k.kind.name.toList ++ ':' :: k.id.text.toList := by
    simp [text]
  rw [← String.toList_inj, parts, parts,
    append_cons_inj a.kind.colon_not_mem_name b.kind.colon_not_mem_name, String.toList_inj,
    String.toList_inj, ScheduleKind.name_inj]

namespace ScheduleId

/-- Between blanks, digits are a number of 64 bits and any other text of small letters, digits, underscores
and hyphens is a name; nothing else is an id. What was read is read again from its text, and a key whose id
was read is told by its text. -/
theorem reads_text :
    (∀ s n, parse s = .ok (.numeric n) ↔ ∃ t, Text.Trimmed s t ∧ SpellsNumber t n) ∧
      (∀ s t, parse s = .ok (.named t) ↔ Text.Trimmed s t ∧ SpellsName t) ∧
      (∀ s e, parse s = .error e ↔ ∃ t, Text.Trimmed s t ∧ e = .invalidScheduleId t ∧
        (∀ n, ¬ SpellsNumber t n) ∧ ¬ SpellsName t) ∧
      (∀ s id, parse s = .ok id → parse id.text = .ok id) ∧
      ∀ (a b : ScheduleKey) (s s' : String), parse s = .ok a.id → parse s' = .ok b.id →
        (a.text = b.text ↔ a = b) := by
  simp only [Text.trimmed_iff]
  refine ⟨fun s n => ?_, fun s t => ?_, fun s e => ?_, fun s id => parse_text, fun a b s s' read read' => ?_⟩
  · simp [parse_eq_ok, parse?_eq_some]
  · rw [parse_eq_ok, parse?_eq_some]
    constructor
    · rintro (⟨n, number, -⟩ | ⟨name, spells⟩)
      · cases number
      · obtain rfl := named.inj name
        exact ⟨rfl, spells⟩
    · rintro ⟨rfl, spells⟩
      exact .inr ⟨rfl, spells⟩
  · have refused : parse? s = none ↔ (∀ n, ¬ SpellsNumber (Text.trim s) n) ∧ ¬ SpellsName (Text.trim s) := by
      rw [← Option.not_isSome_iff_eq_none, Option.isSome_iff_exists]
      simp only [parse?_eq_some]
      grind
    rw [parse_eq_error, refused]
    grind
  · rw [ScheduleKey.text_inj]
    constructor
    · rintro ⟨kind, shown⟩
      have same : a.id = b.id := Except.ok.inj ((parse_text read).symm.trans (shown ▸ parse_text read'))
      cases a
      cases b
      simp_all
    · rintro rfl
      exact ⟨rfl, rfl⟩

theorem padded_reads_text :
    parse "\u3000007\t" = .ok (.numeric 7) ∧ parse (numeric 7).text = .ok (.numeric 7) ∧
      parse "07-web" = .ok (.named "07-web") ∧
      (⟨.containerUpdate, .numeric 7⟩ : ScheduleKey).text ≠ (⟨.containerUpdate, .named "07-web"⟩ : ScheduleKey).text := by
  obtain ⟨-, -, -, again, told⟩ := reads_text
  have number : parse "\u3000007\t" = .ok (.numeric 7) := by decide +kernel
  have name : parse "07-web" = .ok (.named "07-web") := by decide +kernel
  exact ⟨number, again _ _ number, name, fun same => by cases (told _ _ _ _ number name).mp same⟩

end ScheduleId

end FleetOps
