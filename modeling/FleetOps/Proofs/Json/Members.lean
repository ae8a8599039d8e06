import FleetOps.Json.Fields
import FleetOps.Proofs.Json.Text
import FleetOps.Proofs.Lists
import Mathlib.Data.String.Basic

set_option autoImplicit false

namespace FleetOps.Json

variable {name k : String} {v : Json} {members members' table : List (String × Json)}

def reprinted (v : Json) : Option Json :=
  reread v.canonical

@[simp] theorem reprinted_null : reprinted .null = some .null := by
  simp [reprinted, canonical, reread]

@[simp] theorem reprinted_str (s : String) : reprinted (.str s) = some (.str s) := by
  simp [reprinted, canonical, reread]

theorem reprinted_nat {n : Nat} (fits : n < wordBound) : reprinted (.nat n) = some (.nat n) := by
  have value : reread (.int n) = some (.nat n) := by
    rw [reread, readNumber?_nat fits]
    rfl
  simpa [reprinted, canonical, nat] using value

theorem insertMember_eq (k : String) (v : Json) (table : List (String × Json)) :
    insertMember k v table = insertKeyed k v table := by
  induction table with
  | nil => rfl
  | cons m rest ih =>
    simp only [insertMember, insertKeyed, ih]

theorem member?_eq_some (once : (members.map (·.1)).Nodup) :
    member? name members = some v ↔ (name, v) ∈ members := by
  induction members generalizing v with
  | nil => simp [member?]
  | cons m rest ih =>
    obtain ⟨k, w⟩ := m
    rw [List.map_cons, List.nodup_cons] at once
    have ih (v : Json) : member? name rest = some v ↔ (name, v) ∈ rest := ih once.2
    rw [member?, List.mem_cons, Prod.mk.injEq]
    by_cases here : k = name
    · subst here
      have absent : ∀ u, (k, u) ∉ rest := fun u mem => once.1 (List.mem_map.mpr ⟨_, mem, rfl⟩)
      have missing : member? k rest = none := by
        cases later : member? k rest with
        | none => rfl
        | some u => exact absurd ((ih u).mp later) (absent u)
      simp [missing, absent, eq_comm]
    · cases later : member? name rest <;> simp_all [Ne.symm here]

theorem member?_insertMember (sorted : SortedByKey table) :
    member? name (insertMember k v table) = if name = k then some v else member? name table := by
  rw [insertMember_eq]
  ext w
  rw [member?_eq_some (sorted_insertKeyed sorted).nodup_keys, mem_insertKeyed sorted]
  split_ifs with same
  · simp [same, eq_comm]
  · simp [same, member?_eq_some sorted.nodup_keys]

theorem sorted_canonicalMembers (members : List (String × Json)) (sorted : SortedByKey table) :
    SortedByKey (canonicalMembers members table) := by
  induction members generalizing table with
  | nil => simpa [canonicalMembers] using sorted
  | cons m rest ih =>
    rw [canonicalMembers, insertMember_eq]
    exact ih (sorted_insertKeyed sorted)

theorem member?_canonicalMembers (name : String) (members : List (String × Json))
    (sorted : SortedByKey table) :
    member? name (canonicalMembers members table) =
      ((member? name members).map canonical).or (member? name table) := by
  induction members generalizing table with
  | nil => simp [canonicalMembers, member?]
  | cons m rest ih =>
    obtain ⟨k, v⟩ := m
    have sorted' : SortedByKey (insertMember k v.canonical table) := by
      rw [insertMember_eq]
      exact sorted_insertKeyed sorted
    rw [canonicalMembers, ih sorted', member?_insertMember sorted, member?]
    cases member? name rest with
    | some w => rfl
    | none =>
      by_cases same : k = name
      · simp [same]
      · simp [same, Ne.symm same]

theorem mem_of_member? (found : member? name members = some v) : (name, v) ∈ members := by
  induction members with
  | nil => simp [member?] at found
  | cons m rest ih =>
    rw [member?] at found
    cases later : member? name rest with
    | some w => exact List.mem_cons_of_mem m (ih (by simpa [later] using found))
    | none =>
      simp only [later, Option.ite_none_right_eq_some, Option.some.injEq] at found
      obtain ⟨rfl, rfl⟩ := found
      exact List.mem_cons_self

theorem mem_canonicalMembers (mem : (k, v) ∈ canonicalMembers members []) :
    ∃ w, (k, w) ∈ members ∧ w.canonical = v := by
  have sorted : SortedByKey ([] : List (String × Json)) := List.Pairwise.nil
  have found := (member?_eq_some (sorted_canonicalMembers members sorted).nodup_keys).mpr mem
  rw [member?_canonicalMembers k members sorted, member?, Option.or_none, Option.map_eq_some_iff] at found
  obtain ⟨w, found, canonical⟩ := found
  exact ⟨w, mem_of_member? found, canonical⟩

theorem rereadMembers_of (each : ∀ m ∈ members, ∃ w, reread m.2 = some w) :
    ∃ members', rereadMembers members = some members' := by
  induction members with
  | nil => exact ⟨[], by simp [rereadMembers]⟩
  | cons m rest ih =>
    obtain ⟨w, read⟩ := each m List.mem_cons_self
    obtain ⟨rest', others⟩ := ih fun m mem => each m (List.mem_cons_of_mem _ mem)
    exact ⟨(m.1, w) :: rest', by simp [rereadMembers, read, others]⟩

theorem rereadMembers_cons (read : rereadMembers ((k, v) :: members) = some members') :
    ∃ w rest', reread v = some w ∧ rereadMembers members = some rest' ∧ members' = (k, w) :: rest' := by
  simp only [rereadMembers, Option.bind_eq_some_iff, Option.map_eq_some_iff] at read
  obtain ⟨w, value, rest', others, rfl⟩ := read
  exact ⟨w, rest', value, others, rfl⟩

theorem names_rereadMembers (read : rereadMembers members = some members') :
    members'.map (·.1) = members.map (·.1) := by
  induction members generalizing members' with
  | nil =>
    obtain rfl : members' = [] := by simpa [rereadMembers, eq_comm] using read
    rfl
  | cons m rest ih =>
    obtain ⟨w, rest', -, others, rfl⟩ := rereadMembers_cons read
    rw [List.map_cons, List.map_cons, ih others]

theorem mem_rereadMembers (read : rereadMembers members = some members') {w : Json} :
    (name, w) ∈ members' ↔ ∃ v, (name, v) ∈ members ∧ reread v = some w := by
  induction members generalizing members' with
  | nil =>
    obtain rfl : members' = [] := by simpa [rereadMembers, eq_comm] using read
    simp
  | cons m rest ih =>
    obtain ⟨k, v⟩ := m
    obtain ⟨u, rest', value, others, rfl⟩ := rereadMembers_cons read
    rw [List.mem_cons, ih others]
    constructor
    · rintro (here | ⟨v', mem, value'⟩)
      · obtain ⟨rfl, rfl⟩ := Prod.mk.inj here
        exact ⟨v, List.mem_cons_self, value⟩
      · exact ⟨v', List.mem_cons_of_mem _ mem, value'⟩
    · rintro ⟨v', mem, value'⟩
      rcases List.mem_cons.mp mem with here | mem
      · obtain ⟨rfl, rfl⟩ := Prod.mk.inj here
        exact .inl (by rw [Option.some.inj (value'.symm.trans value)])
      · exact .inr ⟨v', mem, value'⟩

theorem depthMembers_lt {n : Nat} (positive : 0 < n) (each : ∀ m ∈ members, depth m.2 < n) :
    depthMembers members < n := by
  induction members with
  | nil => simpa [depthMembers] using positive
  | cons m rest ih =>
    obtain ⟨here, others⟩ := List.forall_mem_cons.mp each
    rw [depthMembers]
    exact Nat.max_lt.mpr ⟨here, ih others⟩

theorem member?_rereadMembers (read : rereadMembers (canonicalMembers members []) = some members') :
    (members'.map (·.1)).Nodup ∧
      ∀ name, member? name members' = (member? name members).bind reprinted := by
  have sorted : SortedByKey ([] : List (String × Json)) := List.Pairwise.nil
  have once := (sorted_canonicalMembers members sorted).nodup_keys
  have once' : (members'.map (·.1)).Nodup := by rwa [names_rereadMembers read]
  refine ⟨once', fun name => ?_⟩
  ext w
  rw [member?_eq_some once', mem_rereadMembers read]
  simp only [← member?_eq_some once, member?_canonicalMembers name members sorted, member?, Option.or_none]
  cases member? name members <;> simp [reprinted]

theorem read?_pretty_obj (each : ∀ m ∈ members, ∃ w, reprinted m.2 = some w ∧ depth w < depthLimit) :
    ∃ members', read? (pretty (.obj members)) = some (.obj members') ∧ (members'.map (·.1)).Nodup ∧
      ∀ name, member? name members' = (member? name members).bind reprinted := by
  have entry : ∀ k v, (k, v) ∈ canonicalMembers members [] → ∃ w, reread v = some w ∧ depth w < depthLimit := by
    intro k v mem
    obtain ⟨u, given, rfl⟩ := mem_canonicalMembers mem
    exact each (k, u) given
  obtain ⟨members', read⟩ := rereadMembers_of fun m mem =>
    (entry m.1 m.2 mem).imp fun _ value => value.1
  -- The object itself is one level more, so each member has to stay below the limit.
  have shallow : depthMembers members' < depthLimit := by
    refine depthMembers_lt (by decide) fun m mem => ?_
    obtain ⟨v, mem, value⟩ := (mem_rereadMembers read).mp mem
    obtain ⟨w, value', bound⟩ := entry m.1 v mem
    obtain rfl : w = m.2 := Option.some.inj (value'.symm.trans value)
    exact bound
  have value : reread (.obj (canonicalMembers members [])) = some (.obj members') := by
    simp [reread, read]
  refine ⟨members', ?_, member?_rereadMembers read⟩
  rw [pretty, canonical, read?_write, value, Option.bind_some, depth]
  exact if_pos (Nat.succ_le_of_lt shallow)

theorem obj_of_read?_pretty (read : read? (pretty (.obj members)) = some v) :
    ∃ members', v = .obj members' ∧ (members'.map (·.1)).Nodup ∧
      ∀ name, member? name members' = (member? name members).bind reprinted := by
  rw [pretty, canonical, read?_write, Option.bind_eq_some_iff] at read
  obtain ⟨w, value, shallow⟩ := read
  obtain ⟨-, rfl⟩ : depth w ≤ depthLimit ∧ w = v := by simpa using shallow
  cases others : rereadMembers (canonicalMembers members []) with
  | none => simp [reread, others] at value
  | some members' =>
    obtain rfl : .obj members' = w := by simpa [reread, others] using value
    exact ⟨members', rfl, member?_rereadMembers others⟩

structure Steady (v : Json) : Prop where
  value : v.reprinted = some v
  shallow : depth v < depthLimit

theorem steady_null : Steady .null :=
  ⟨reprinted_null, by decide⟩

theorem steady_str (s : String) : Steady (.str s) :=
  ⟨reprinted_str s, by simp [depth, depthLimit]⟩

theorem steady_nat {n : Nat} (fits : n < wordBound) : Steady (.nat n) :=
  ⟨reprinted_nat fits, by simp [nat, depth, depthLimit]⟩

/-- The value comes back as it was from the text of an object that has it for this member. -/
def SurvivesAs (name : String) (v : Json) : Prop :=
  read? (pretty (.obj [(name, v)])) = some (.obj [(name, v)])

theorem survivesAs_iff : v.SurvivesAs name ↔ Steady v := by
  have sorted : canonical (.obj [(name, v)]) = .obj [(name, v.canonical)] := by
    simp [canonical, canonicalMembers, insertMember]
  have value : reread (.obj [(name, v.canonical)]) = v.reprinted.map fun w => .obj [(name, w)] := by
    cases read : v.canonical.reread <;> simp [reread, rereadMembers, reprinted, read]
  have bound (w : Json) : depth (.obj [(name, w)]) ≤ depthLimit ↔ depth w < depthLimit := by
    simp only [depth, depthMembers, Nat.max_zero]
    exact Nat.succ_le_iff
  rw [SurvivesAs, pretty, sorted, read?_write, value]
  constructor
  · intro survives
    cases read : v.reprinted with
    | none => simp [read] at survives
    | some w =>
      simp only [read, Option.map_some, Option.bind_some, bound, Option.ite_none_right_eq_some,
        Option.some.injEq, Json.obj.injEq, List.cons.injEq, Prod.mk.injEq, true_and, and_true] at survives
      obtain ⟨shallow, rfl⟩ := survives
      exact ⟨read, shallow⟩
  · intro steady
    rw [steady.value, Option.map_some, Option.bind_some, if_pos ((bound v).mpr steady.shallow)]

theorem read?_pretty_steady (each : ∀ m ∈ members, Steady m.2) :
    ∃ members', read? (pretty (.obj members)) = some (.obj members') ∧ (members'.map (·.1)).Nodup ∧
      ∀ name, member? name members' = member? name members := by
  obtain ⟨members', read, once, values⟩ :=
    read?_pretty_obj fun m mem => ⟨m.2, (each m mem).value, (each m mem).shallow⟩
  refine ⟨members', read, once, fun name => ?_⟩
  rw [values]
  cases found : member? name members with
  | none => rfl
  | some v => exact (each _ (mem_of_member? found)).value

theorem of?_obj (names : List String) (once : (members.map (·.1)).Nodup) :
    Fields.of? names (.obj members) = some ⟨true, members⟩ := by
  have single : ∀ n ∈ names, Fields.countName n members ≤ 1 := by
    intro n _
    have count := List.nodup_iff_count_le_one.mp once n
    rw [List.count, List.countP_map, List.countP_eq_length_filter] at count
    exact count
  simpa [Fields.of?] using single

theorem names_ofMembers {fields : List (String × Option Json)} (once : (fields.map (·.1)).Nodup) :
    ((fields.filterMap fun m => m.2.map (m.1, ·)).map (·.1)).Nodup := by
  refine once.sublist ?_
  clear once
  induction fields with
  | nil => exact .slnil
  | cons m rest ih =>
    obtain ⟨k, v⟩ := m
    cases v with
    | none => exact ih.cons k
    | some v => exact ih.cons_cons k

theorem member?_ofMembers {fields : List (String × Option Json)} (once : (fields.map (·.1)).Nodup)
    (name : String) : member? name (fields.filterMap fun m => m.2.map (m.1, ·)) =
      (fields.find? (·.1 = name)).bind (·.2) := by
  ext v
  rw [member?_eq_some (names_ofMembers once), Option.bind_eq_some_iff]
  simp only [find?_eq_some_of_nodup once, List.mem_filterMap, Option.map_eq_some_iff, Prod.mk.injEq]
  constructor
  · rintro ⟨m, mem, w, value, here, rfl⟩
    exact ⟨m, ⟨mem, here⟩, value⟩
  · rintro ⟨m, ⟨mem, here⟩, value⟩
    exact ⟨m, mem, v, value, here, rfl⟩

namespace Fields

variable {α : Type} {f : Fields} {read : Json → Option α}

theorem required_of (found : f.find? name = some v) : f.required name read = read v := by
  rw [required, found, Option.bind_some]

theorem withDefault_of {default : α} (found : f.find? name = some v) :
    f.withDefault name read default = read v := by
  rw [withDefault, found]

theorem optional_of (found : f.find? name = some v) : f.optional name read = nullable read v :=
  withDefault_of found

theorem optional_absent (absent : f.find? name = none) : f.optional name read = some none := by
  rw [optional, withDefault, absent]

theorem nullable_ofOption {write : α → Json} {o : Option α} (visible : ∀ a ∈ o, write a ≠ .null)
    (back : ∀ a ∈ o, read (write a) = some a) : nullable read (.ofOption write o) = some o := by
  cases o with
  | none => rfl
  | some a =>
    have other := visible a rfl
    have value := back a rfl
    rw [Json.ofOption]
    cases shown : write a <;> simp_all [nullable]

theorem optional_ofOption {write : α → Json} {o : Option α} (found : f.find? name = some (.ofOption write o))
    (visible : ∀ a ∈ o, write a ≠ .null) (back : ∀ a ∈ o, read (write a) = some a) :
    f.optional name read = some o := by
  rw [optional_of found, nullable_ofOption visible back]

end Fields

theorem list?_map {α : Type} {read : Json → Option α} {write : α → Json} {l : List α}
    (back : ∀ a ∈ l, read (write a) = some a) : list? read (.arr (l.map write)) = some l := by
  rw [list?, arr?, Option.bind_some]
  induction l with
  | nil => rfl
  | cons a rest ih =>
    obtain ⟨here, others⟩ := List.forall_mem_cons.mp back
    rw [List.map_cons, List.mapM_cons, here, ih others]
    rfl

end FleetOps.Json
