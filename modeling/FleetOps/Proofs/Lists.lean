import Mathlib.Data.List.Nodup
import Mathlib.Order.Lattice
import Mathlib.Tactic.SplitIfs
import Mathlib.Tactic.Tauto

set_option autoImplicit false

namespace FleetOps

variable {α κ : Type} {l : List α}

theorem find?_eq_some_of_nodup [DecidableEq κ] {key : α → κ} (once : (l.map key).Nodup) {k : κ} {x : α} :
    (l.find? fun y => key y = k) = some x ↔ x ∈ l ∧ key x = k := by
  constructor
  · intro found
    exact ⟨List.mem_of_find?_eq_some found, by simpa using List.find?_some found⟩
  · rintro ⟨mem, rfl⟩
    cases found : l.find? fun y => key y = key x with
    | none => simpa using List.find?_eq_none.mp found x mem
    | some y =>
      have same : key y = key x := by simpa using List.find?_some found
      rw [List.inj_on_of_nodup_map once (List.mem_of_find?_eq_some found) mem same]

theorem find?_reverse_eq_some {p : α → Bool} {x : α} : l.reverse.find? p = some x ↔
    p x = true ∧ ∃ before after, l = before ++ x :: after ∧ ∀ y ∈ after, p y = false := by
  rw [List.find?_eq_some_iff_append]
  refine and_congr_right fun _ => ?_
  constructor
  · rintro ⟨after, before, split, others⟩
    refine ⟨before.reverse, after.reverse, ?_, by simpa using others⟩
    rw [← l.reverse_reverse, split]
    simp
  · rintro ⟨before, after, rfl, others⟩
    exact ⟨after.reverse, before.reverse, by simp, by simpa using others⟩

theorem find?_filter_of_nodup [DecidableEq κ] {key : α → κ} (once : (l.map key).Nodup) (p : α → Bool)
    (k : κ) : ((l.filter p).find? fun y => key y = k) = (l.find? fun y => key y = k).filter p := by
  ext x
  rw [Option.filter_eq_some_iff, find?_eq_some_of_nodup once,
    find?_eq_some_of_nodup (once.sublist (List.filter_sublist.map key)), List.mem_filter]
  tauto

theorem forall_split_cons {x y : α} {Q : List α → List α → Prop} :
    (∀ before after, x :: l = before ++ y :: after → Q before after) ↔
      (x = y → Q [] l) ∧ ∀ before after, l = before ++ y :: after → Q (x :: before) after := by
  constructor
  · intro all
    refine ⟨?_, ?_⟩
    · rintro rfl
      exact all [] l rfl
    · rintro before after rfl
      exact all (x :: before) after rfl
  · rintro ⟨head, tail⟩ before after split
    cases before with
    | nil =>
      obtain ⟨here, rfl⟩ := List.cons.inj split
      exact head here
    | cons z before =>
      obtain ⟨rfl, others⟩ := List.cons.inj split
      exact tail before after others

theorem exists_place_cons {x : α} {Q : Nat → α → Prop} : (∃ i y, (x :: l)[i]? = some y ∧ Q i y) ↔
    Q 0 x ∨ ∃ i y, l[i]? = some y ∧ Q (i + 1) y := by
  constructor
  · rintro ⟨i, y, there, holds⟩
    cases i with
    | zero =>
      obtain rfl := Option.some.inj there
      exact .inl holds
    | succ i => exact .inr ⟨i, y, there, holds⟩
  · rintro (holds | ⟨i, y, there, holds⟩)
    · exact ⟨0, x, rfl, holds⟩
    · exact ⟨i + 1, y, there, holds⟩

theorem length_filter_le_one {p : α → Bool}
    (alone : ∀ (i j : Nat) (a b : α), l[i]? = some a → l[j]? = some b → p a = true → p b = true → i = j) :
    (l.filter p).length ≤ 1 := by
  induction l with
  | nil => simp
  | cons a rest ih =>
    by_cases here : p a = true
    · have others : ∀ b ∈ rest, ¬ p b = true := by
        intro b mem there
        obtain ⟨j, found⟩ := List.mem_iff_getElem?.mp mem
        exact absurd (alone 0 (j + 1) a b (by simp) (by simpa using found) here there) (by simp)
      simp [here, List.filter_eq_nil_iff.mpr others]
    · rw [List.filter_cons_of_neg here]
      refine ih fun i j a b hi hj pa pb => ?_
      simpa using alone (i + 1) (j + 1) a b (by simpa using hi) (by simpa using hj) pa pb

theorem countP_add_filter (p q : α → Prop) [DecidablePred p] [DecidablePred q] (l : List α) :
    (l.countP fun x => p x) + (l.filter fun x => ¬ p x).countP (fun x => q x) =
      l.countP fun x => p x ∨ q x := by
  induction l with
  | nil => rfl
  | cons x rest ih =>
    by_cases first : p x <;> simp [List.countP_cons, first] at ih ⊢ <;> omega

theorem prefix_append_cases {l' rest : List α} (begins : l' <+: l ++ rest) :
    l' <+: l ∨ ∃ left, l' = l ++ left ∧ left <+: rest := by
  rcases List.prefix_or_prefix_of_prefix begins (List.prefix_append l rest) with here | ⟨left, rfl⟩
  · exact .inl here
  · exact .inr ⟨left, rfl, (List.prefix_append_right_inj l).mp begins⟩

theorem append_cons_inj {x : α} {before before' after after' : List α} (first : x ∉ before) (first' : x ∉ before') :
    before ++ x :: after = before' ++ x :: after' ↔ before = before' ∧ after = after' := by
  constructor
  · intro same
    rcases List.append_eq_append_iff.mp same with ⟨left, rfl, rest⟩ | ⟨left, rfl, rest⟩
    · cases left with
      | nil => exact ⟨(List.append_nil _).symm, (List.cons.inj rest).2⟩
      | cons y left => simp [(List.cons.inj rest).1] at first'
    · cases left with
      | nil => exact ⟨List.append_nil _, (List.cons.inj rest).2.symm⟩
      | cons y left => simp [(List.cons.inj rest).1] at first
  · rintro ⟨rfl, rfl⟩
    rfl

section Reading

variable {β ε : Type} {f : α → Except ε β} {ys : List β} {e : ε}

theorem bind_eq_ok {x : Except ε α} {y : β} : x >>= f = .ok y ↔ ∃ a, x = .ok a ∧ f a = .ok y := by
  cases x <;> simp [bind, Except.bind]

theorem bind_eq_error {x : Except ε α} :
    x >>= f = .error e ↔ x = .error e ∨ ∃ a, x = .ok a ∧ f a = .error e := by
  cases x <;> simp [bind, Except.bind]

theorem mapM_eq_ok : l.mapM f = .ok ys ↔
    (∀ x ∈ l, ∃ y, f x = .ok y) ∧ ys = l.filterMap fun x => (f x).toOption := by
  induction l generalizing ys with
  | nil => simp [pure, Except.pure, eq_comm]
  | cons x rest ih =>
    rw [List.mapM_cons, List.forall_mem_cons]
    simp only [bind_eq_ok, ih]
    constructor
    · rintro ⟨y, head, _, ⟨all, rfl⟩, same⟩
      obtain rfl := Except.ok.inj same
      exact ⟨⟨⟨y, head⟩, all⟩, by simp [head, Except.toOption]⟩
    · rintro ⟨⟨⟨y, head⟩, all⟩, rfl⟩
      exact ⟨y, head, _, ⟨all, rfl⟩, by simp [head, Except.toOption, pure, Except.pure]⟩

theorem exists_of_mapM_eq_error (failed : l.mapM f = .error e) : ∃ x ∈ l, f x = .error e := by
  induction l with
  | nil => simp [pure, Except.pure] at failed
  | cons x rest ih =>
    rw [List.mapM_cons] at failed
    obtain head | ⟨y, -, failed⟩ := bind_eq_error.mp failed
    · exact ⟨x, List.mem_cons_self, head⟩
    · obtain tail | ⟨zs, -, failed⟩ := bind_eq_error.mp failed
      · obtain ⟨x', mem, own⟩ := ih tail
        exact ⟨x', List.mem_cons_of_mem x mem, own⟩
      · cases failed

end Reading

section Keyed

variable [LinearOrder κ] {k : κ} {a : α} {t : List (κ × α)} {p : κ × α}

def SortedByKey (t : List (κ × α)) : Prop :=
  t.Pairwise fun p q => p.1 < q.1

def insertKeyed (k : κ) (a : α) : List (κ × α) → List (κ × α)
  | [] => [(k, a)]
  | (n, b) :: rest =>
    if k < n then (k, a) :: (n, b) :: rest
    else if k = n then (k, a) :: rest
    else (n, b) :: insertKeyed k a rest

theorem SortedByKey.nodup_keys (sorted : SortedByKey t) : (t.map (·.1)).Nodup := by
  rw [List.Nodup, List.pairwise_map]
  exact sorted.imp ne_of_lt

theorem mem_insertKeyed (sorted : SortedByKey t) :
    p ∈ insertKeyed k a t ↔ p = (k, a) ∨ p ∈ t ∧ p.1 ≠ k := by
  induction t with
  | nil => simp [insertKeyed]
  | cons head rest ih =>
    obtain ⟨n, b⟩ := head
    obtain ⟨after, sorted⟩ := List.pairwise_cons.mp sorted
    have later : ∀ q ∈ rest, k ≤ n → q.1 ≠ k := fun q mem le => (lt_of_le_of_lt le (after q mem)).ne'
    simp only [insertKeyed]
    split_ifs with less same
    · have others : p ∈ (n, b) :: rest → p.1 ≠ k := by
        intro mem
        rcases List.mem_cons.mp mem with rfl | mem
        · exact less.ne'
        · exact later p mem less.le
      rw [List.mem_cons]
      exact or_congr_right ⟨fun mem => ⟨mem, others mem⟩, And.left⟩
    · subst same
      have others : p ∈ rest → p.1 ≠ k := fun mem => later p mem le_rfl
      rw [List.mem_cons, List.mem_cons]
      constructor
      · rintro (rfl | mem)
        · exact .inl rfl
        · exact .inr ⟨.inr mem, others mem⟩
      · rintro (rfl | ⟨rfl | mem, other⟩)
        · exact .inl rfl
        · exact absurd rfl other
        · exact .inr mem
    · have other : (n, b).1 ≠ k := fun equal => same equal.symm
      rw [List.mem_cons, ih sorted, List.mem_cons]
      constructor
      · rintro (rfl | rfl | ⟨mem, away⟩)
        · exact .inr ⟨.inl rfl, other⟩
        · exact .inl rfl
        · exact .inr ⟨.inr mem, away⟩
      · rintro (rfl | ⟨rfl | mem, away⟩)
        · exact .inr (.inl rfl)
        · exact .inl rfl
        · exact .inr (.inr ⟨mem, away⟩)

theorem sorted_insertKeyed (sorted : SortedByKey t) : SortedByKey (insertKeyed k a t) := by
  induction t with
  | nil => simp [insertKeyed, SortedByKey]
  | cons head rest ih =>
    obtain ⟨n, b⟩ := head
    obtain ⟨after, tail⟩ := List.pairwise_cons.mp sorted
    simp only [insertKeyed]
    split_ifs with less same
    · refine List.pairwise_cons.mpr ⟨fun q mem => ?_, sorted⟩
      rcases List.mem_cons.mp mem with rfl | mem
      · exact less
      · exact less.trans (after q mem)
    · subst same
      exact List.pairwise_cons.mpr ⟨after, tail⟩
    · refine List.pairwise_cons.mpr ⟨fun q mem => ?_, ih tail⟩
      rcases (mem_insertKeyed tail).mp mem with rfl | ⟨mem, -⟩
      · exact lt_of_le_of_ne (not_lt.mp less) (Ne.symm same)
      · exact after q mem

end Keyed

end FleetOps
