import FleetOps.Text.Blank
import Mathlib.Data.List.Basic
import Mathlib.Data.List.TakeWhile

set_option autoImplicit false

namespace FleetOps.Text

variable {cs : List Char} {s t : String}

theorem isBlank_graphic {c : Char} (low : 33 ≤ c.toNat) (high : c.toNat ≤ 126) : isBlank c = false := by
  simp [isBlank, blankRanges]
  omega

theorem dropWhile_visible (first : ∀ c ∈ cs.head?, isBlank c = false) : cs.dropWhile isBlank = cs := by
  cases cs with
  | nil => rfl
  | cons c rest => simp [first c rfl]

theorem trimLeft_visible {c : Char} (visible : isBlank c = false) (rest : List Char) :
    trimLeft (c :: rest) = c :: rest :=
  dropWhile_visible (by simpa using visible)

theorem trimChars_eq_self (visible : ∀ c ∈ cs, isBlank c = false) : trimChars cs = cs := by
  have first : ∀ c ∈ cs.head?, isBlank c = false := fun c head => visible c (List.mem_of_mem_head? head)
  have last : ∀ c ∈ cs.reverse.head?, isBlank c = false := fun c head =>
    visible c (List.mem_reverse.mp (List.mem_of_mem_head? head))
  rw [trimChars, trimLeft, trimRight, dropWhile_visible first, dropWhile_visible last, List.reverse_reverse]

theorem trim_eq_self (visible : ∀ c ∈ t.toList, isBlank c = false) : trim t = t := by
  rw [trim, trimChars_eq_self visible, String.ofList_toList]

structure Trimmed (s t : String) : Prop where
  around : ∃ before after, s.toList = before ++ (t.toList ++ after) ∧ ∀ c ∈ before ++ after, isBlank c = true
  first : ∀ c ∈ t.toList.head?, isBlank c = false
  last : ∀ c ∈ t.toList.getLast?, isBlank c = false

theorem head?_dropWhile (cs : List Char) : ∀ c ∈ (cs.dropWhile isBlank).head?, isBlank c = false := by
  intro c head
  have stops := List.head?_dropWhile_not isBlank cs
  rw [Option.mem_def] at head
  simpa [head] using stops

theorem trimRight_append (blank : ∀ c ∈ cs, isBlank c = true) (kept : List Char)
    (last : ∀ c ∈ kept.getLast?, isBlank c = false) : trimRight (kept ++ cs) = kept := by
  rw [trimRight, List.reverse_append, List.dropWhile_append_of_pos (by simpa using blank),
    dropWhile_visible (by simpa using last), List.reverse_reverse]

theorem trimmed_trim (s : String) : Trimmed s (trim s) := by
  let cs := s.toList
  let rest := trimLeft cs
  let after := (rest.reverse.takeWhile isBlank).reverse
  have kept : (trim s).toList = trimRight rest := by simp [trim, trimChars, rest, cs]
  have split : trimRight rest ++ after = rest := by
    simp only [trimRight, after]
    rw [← List.reverse_append, List.takeWhile_append_dropWhile, List.reverse_reverse]
  refine ⟨⟨cs.takeWhile isBlank, after, ?_, ?_⟩, ?_, ?_⟩
  · rw [kept, split]
    exact List.takeWhile_append_dropWhile.symm
  · intro c mem
    rcases List.mem_append.mp mem with before | later
    · exact List.mem_takeWhile_imp before
    · exact List.mem_takeWhile_imp (List.mem_reverse.mp later)
  · intro c head
    rw [kept] at head
    refine head?_dropWhile cs c ?_
    change c ∈ rest.head?
    rw [← split, List.head?_append, head]
    rfl
  · intro c final
    rw [kept, trimRight, List.getLast?_reverse] at final
    exact head?_dropWhile _ c final

theorem trimmed_iff : Trimmed s t ↔ t = trim s := by
  constructor
  · rintro ⟨⟨before, after, split, blank⟩, first, last⟩
    obtain ⟨blankBefore, blankAfter⟩ := List.forall_mem_append.mp blank
    rw [← String.toList_inj, trim, String.toList_ofList, trimChars, trimLeft, split,
      List.dropWhile_append_of_pos blankBefore]
    rcases kept : t.toList with _ | ⟨c, rest⟩
    · -- Nothing visible is there, and the blanks are all cut off from the left.
      have gone : after.dropWhile isBlank = [] := List.dropWhile_eq_nil_iff.mpr blankAfter
      rw [List.nil_append, gone]
      rfl
    · rw [kept] at first last
      rw [dropWhile_visible (by simpa using first), trimRight_append blankAfter _ last]
  · rintro rfl
    exact trimmed_trim s

end FleetOps.Text
