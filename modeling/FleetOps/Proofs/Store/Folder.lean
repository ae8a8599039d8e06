import FleetOps.Proofs.Lists
import FleetOps.Proofs.Text.Numeral
import FleetOps.Store.Files
import Mathlib.Data.List.TakeWhile
import Mathlib.Data.String.Basic

set_option autoImplicit false

namespace FleetOps

theorem takeWhile_plain {cs : List Char} (plain : '.' ∉ cs) (rest : List Char) :
    (cs ++ '.' :: rest).takeWhile (· ≠ '.') = cs := by
  have all : ∀ c ∈ cs, decide (c ≠ '.') = true := by
    intro c mem
    exact decide_eq_true fun same => plain (same ▸ mem)
  rw [List.takeWhile_append_of_pos all]
  simp

theorem stemOf_eq_some {extension : List Char} {name stem : String} (plain : '.' ∉ extension) :
    stemOf extension name = some stem ↔ name.toList = stem.toList ++ '.' :: extension ∧ stem.toList ≠ [] := by
  simp only [stemOf, Option.ite_none_right_eq_some, Option.some.injEq]
  constructor
  · rintro ⟨⟨tail, shorter, nonempty⟩, rfl⟩
    have dot : '.' ∈ name.toList.reverse := by
      by_contra dotless
      have all : name.toList.reverse.takeWhile (· ≠ '.') = name.toList.reverse :=
        List.takeWhile_eq_self_iff.mpr fun c mem => decide_eq_true fun same => dotless (same ▸ mem)
      rw [all, List.length_reverse] at shorter
      exact Nat.lt_irrefl _ shorter
    obtain ⟨last, rest, split, first⟩ := List.eq_append_cons_of_mem dot
    rw [split, takeWhile_plain first] at tail nonempty ⊢
    rw [String.toList_ofList]
    refine ⟨?_, nonempty⟩
    rw [← List.reverse_reverse name.toList, split, ← tail]
    simp
  · rintro ⟨split, nonempty⟩
    have back : name.toList.reverse = extension.reverse ++ '.' :: stem.toList.reverse := by simp [split]
    have tail := takeWhile_plain (by simpa using plain : '.' ∉ extension.reverse) stem.toList.reverse
    have rest : (extension.reverse ++ '.' :: stem.toList.reverse).drop (extension.reverse.length + 1) =
        stem.toList.reverse := by simp [List.drop_append]
    have longer : extension.reverse.length < name.toList.length := by
      rw [split, List.length_append, List.length_cons, List.length_reverse]
      omega
    simp only [back, tail, rest, List.reverse_reverse, String.ofList_toList]
    exact ⟨⟨trivial, longer, nonempty⟩, trivial⟩

theorem toList_recordName (id : ExecutionId) :
    (recordName id).toList = Text.paddedDigits 20 id ++ ['.', 'j', 's', 'o', 'n'] := by
  simp [recordName, Text.toList_padded]

theorem recordName_inj {a b : ExecutionId} (same : recordName a = recordName b) : a = b := by
  have chars := congrArg String.toList same
  rw [toList_recordName, toList_recordName, List.append_left_inj, ← Text.toList_padded,
    ← Text.toList_padded, String.toList_inj] at chars
  exact Text.padded_inj chars

theorem sideName_ne_recordName (a b : ExecutionId) : sideName a ≠ recordName b := by
  intro same
  have ends := congrArg (fun s : String => s.toList.getLast?) same
  simp [sideName, toList_recordName] at ends

def Numbered (name : String) (n : Nat) : Prop :=
  ∃ stem, name.toList = stem ++ ['.', 'j', 's', 'o', 'n'] ∧ Text.Decimal stem n ∧ n < Text.idBound

theorem numberOfName_eq_some {name : String} {n : Nat} : numberOfName name = some n ↔ Numbered name n := by
  have plain : '.' ∉ "json".toList := by decide
  rw [numberOfName, Option.bind_eq_some_iff]
  constructor
  · rintro ⟨stem, found, read⟩
    exact ⟨stem.toList, ((stemOf_eq_some plain).mp found).1, Text.numeral?_eq_some.mp read⟩
  · rintro ⟨stem, named, decimal, below⟩
    have nonempty : stem ≠ [] := by
      obtain ⟨ds, rfl | rfl, present, -⟩ := decimal
      · exact present
      · exact List.cons_ne_nil _ _
    refine ⟨String.ofList stem, (stemOf_eq_some plain).mpr ?_, Text.numeral?_eq_some.mpr ?_⟩
    · rw [String.toList_ofList]
      exact ⟨named, nonempty⟩
    · rw [String.toList_ofList]
      exact ⟨decimal, below⟩

theorem numberOfName_recordName {id : ExecutionId} (fits : id < Text.idBound) :
    numberOfName (recordName id) = some id := by
  have decimal : Text.Decimal (Text.paddedDigits 20 id) id :=
    ⟨_, .inl rfl, Text.paddedDigits_ne_nil 20 id, fun _ => Text.isDigit_padded, Text.digitsValue_padded 20 id⟩
  exact numberOfName_eq_some.mpr ⟨_, toList_recordName id, decimal, fits⟩

theorem Numbered.recordName {id : ExecutionId} {n : Nat} (numbered : Numbered (recordName id) n) : n = id := by
  obtain ⟨stem, named, decimal, -⟩ := numbered
  rw [toList_recordName, List.append_left_inj] at named
  obtain ⟨ds, rfl | rfl, -, -, value⟩ := decimal
  · rw [← value, ← named, Text.digitsValue_padded]
  · have digit : Char.isDigit '+' = true :=
      Text.isDigit_padded (named ▸ List.mem_cons_self : '+' ∈ Text.paddedDigits 20 id)
    cases digit

theorem isSome_numberOfName_recordName {id : ExecutionId} :
    (numberOfName (recordName id)).isSome = true ↔ id < Text.idBound := by
  constructor
  · intro named
    obtain ⟨n, read⟩ := Option.isSome_iff_exists.mp named
    have numbered := numberOfName_eq_some.mp read
    obtain rfl := numbered.recordName
    exact numbered.choose_spec.2.2
  · intro fits
    rw [numberOfName_recordName fits]
    rfl

theorem numberOfName_sideName (id : ExecutionId) : numberOfName (sideName id) = none := by
  rw [Option.eq_none_iff_forall_ne_some]
  intro n read
  obtain ⟨stem, named, -⟩ := numberOfName_eq_some.mp read
  have ends := congrArg List.getLast? named
  simp [sideName, toList_recordName] at ends

namespace Folder

variable {f : Folder} {name : String} {e : FolderEntry} {p : String × FolderEntry}

theorem insertByName_eq (name : String) (e : FolderEntry) (entries : List (String × FolderEntry)) :
    insertByName name e entries = insertKeyed name e entries := by
  induction entries with
  | nil => rfl
  | cons p rest ih => simp only [insertByName, insertKeyed, ih]

theorem mem_names : name ∈ f.names ↔ f.find? name ≠ none := by
  simp [names, find?]

theorem find?_insert (f : Folder) (name : String) (e : FolderEntry) (other : String) :
    (f.insert name e).find? other = if other = name then some e else f.find? other := by
  unfold insert find?
  dsimp only
  induction f.entries with
  | nil => simp [insertByName, eq_comm]
  | cons head rest ih =>
    simp only [insertByName]
    split_ifs <;> grind

theorem find?_erase (f : Folder) (name other : String) :
    (f.erase name).find? other = if other = name then none else f.find? other := by
  unfold erase find?
  dsimp only
  induction f.entries with
  | nil => simp
  | cons head rest ih => grind

def Sorted (f : Folder) : Prop :=
  SortedByKey f.entries

theorem find?_eq_some (sorted : f.Sorted) : f.find? name = some e ↔ (name, e) ∈ f.entries := by
  rw [find?, Option.map_eq_some_iff]
  simp only [find?_eq_some_of_nodup sorted.nodup_keys]
  constructor
  · rintro ⟨p, ⟨mem, rfl⟩, rfl⟩
    exact mem
  · intro mem
    exact ⟨_, ⟨mem, rfl⟩, rfl⟩

theorem find?_eq_none (sorted : f.Sorted) : f.find? name = none ↔ ∀ e, (name, e) ∉ f.entries := by
  rw [Option.eq_none_iff_forall_ne_some]
  simp only [ne_eq, find?_eq_some sorted]

theorem Sorted.insert (sorted : f.Sorted) (name : String) (e : FolderEntry) : (f.insert name e).Sorted := by
  rw [Sorted, Folder.insert, insertByName_eq]
  exact sorted_insertKeyed sorted

theorem mem_insert (sorted : f.Sorted) :
    p ∈ (f.insert name e).entries ↔ p = (name, e) ∨ p ∈ f.entries ∧ p.1 ≠ name := by
  rw [Folder.insert, insertByName_eq]
  exact mem_insertKeyed sorted

theorem Sorted.erase (sorted : f.Sorted) (name : String) : (f.erase name).Sorted :=
  sorted.filter _

theorem mem_erase : p ∈ (f.erase name).entries ↔ p ∈ f.entries ∧ p.1 ≠ name := by
  simp [Folder.erase]

end Folder

end FleetOps
