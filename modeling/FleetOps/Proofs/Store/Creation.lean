import FleetOps.Proofs.Store.Reopening

set_option autoImplicit false

namespace FleetOps

variable {d : Folder} {f : FileStore} {r : ExecutionRecord} {name path : String} {place : Place} {n : Nat}
  {a : FileAct} {history : List FileAct}

theorem not_numbered_sideName (id : ExecutionId) : ¬ Numbered (sideName id) n := by
  rw [← numberOfName_eq_some, numberOfName_sideName]
  simp

namespace Folder

def placed (d : Folder) (r : ExecutionRecord) : Folder :=
  ((d.insert (sideName r.id) (.file r.content)).erase (sideName r.id)).insert (recordName r.id)
    (.file r.content)

theorem find?_placed (d : Folder) (r : ExecutionRecord) (name : String) :
    (d.placed r).find? name =
      if name = recordName r.id then some (.file r.content)
      else if name = sideName r.id then none
      else d.find? name := by
  rw [placed, find?_insert, find?_erase, find?_insert]
  split_ifs <;> rfl

theorem names_placed (mem : name ∈ (d.placed r).names) : name = recordName r.id ∨ name ∈ d.names := by
  rw [mem_names, find?_placed] at mem
  split_ifs at mem with here aside
  · exact .inl here
  · exact absurd rfl mem
  · exact .inr (mem_names.mpr mem)

theorem names_insert {e : FolderEntry} {other : String} (mem : name ∈ (d.insert other e).names) :
    name = other ∨ name ∈ d.names := by
  rw [mem_names, find?_insert] at mem
  split_ifs at mem with here
  · exact .inl here
  · exact .inr (mem_names.mpr mem)

theorem names_erase {other : String} (mem : name ∈ (d.erase other).names) : name ∈ d.names := by
  rw [mem_names, find?_erase] at mem
  split_ifs at mem
  · exact absurd rfl mem
  · exact mem_names.mpr mem

theorem names_removeEach {old : List ExecutionRecord}
    (mem : name ∈ (FileStore.removeEach d old).2.names) : name ∈ d.names := by
  induction old generalizing d with
  | nil => exact mem
  | cons r rest ih =>
    rw [FileStore.removeEach, Folder.removeFile] at mem
    cases found : d.find? (recordName r.id) with
    | none => simpa [found] using mem
    | some e =>
      cases e with
      | folder => simpa [found] using mem
      | file => exact names_erase (ih (by simpa [found] using mem))

end Folder

namespace FileStore

theorem write_outcome (place : f.place = .folder d) (r : ExecutionRecord) :
    (d.find? (sideName r.id) = some .folder ∧ ∃ e, f.write r = (.error e, f)) ∨
    (d.find? (recordName r.id) = some .folder ∧ ∃ e, f.write r =
      (.error e, { f with place := .folder (d.insert (sideName r.id) (.file r.content)) })) ∨
    (d.find? (sideName r.id) ≠ some .folder ∧ d.find? (recordName r.id) ≠ some .folder ∧
      f.write r = (.ok (), { f with place := .folder (d.placed r) })) := by
  have side := Folder.find?_insert d (sideName r.id) (.file r.content) (sideName r.id)
  have target := Folder.find?_insert d (sideName r.id) (.file r.content) (recordName r.id)
  rw [if_pos rfl] at side
  rw [if_neg (sideName_ne_recordName r.id r.id).symm] at target
  by_cases blocked : d.find? (sideName r.id) = some .folder
  · refine .inl ⟨blocked, ?_⟩
    simp [write, place, Place.folder?, Except.bind, Folder.write, blocked]
  · have beside : d.write (sideName r.id) r.content = .ok (d.insert (sideName r.id) (.file r.content)) := by
      unfold Folder.write
      split
      · next there => exact absurd there blocked
      · rfl
    by_cases taken : d.find? (recordName r.id) = some .folder
    · refine .inr (.inl ⟨taken, ?_⟩)
      simp [write, place, Place.folder?, Except.bind, beside, Folder.rename, side, target, taken]
    · have moved : (d.insert (sideName r.id) (.file r.content)).rename (sideName r.id) (recordName r.id) =
          .ok (d.placed r) := by
        rw [Folder.rename, side, target]
        cases there : d.find? (recordName r.id) with
        | none => rfl
        | some e =>
          cases e with
          | file => rfl
          | folder => exact absurd there taken
      refine .inr (.inr ⟨blocked, taken, ?_⟩)
      simp only [write, place, Place.folder?, Except.bind, beside, moved]

/-- The store stands in a folder, and no number in a name there is past the last id. -/
structure Covers (f : FileStore) (d : Folder) : Prop where
  place : f.place = .folder d
  above : ∀ name ∈ d.names, ∀ n, Numbered name n → n ≤ f.lastId

theorem highestNumber_bounds {names : List String} (mem : name ∈ names) (numbered : Numbered name n) :
    n ≤ highestNumber names :=
  (highestNumber_spec names).1 n (List.mem_filterMap.mpr ⟨name, mem, numberOfName_eq_some.mpr numbered⟩)

theorem Covers.of_open (opened : openAt path place = .ok f) :
    (∃ d, f.Covers d ∧ d.names = place.names) ∧ f.lastId = highestNumber place.names := by
  cases place with
  | file => cases opened
  | missing =>
    obtain rfl := Except.ok.inj opened
    exact ⟨⟨.empty, ⟨rfl, by simp [Folder.empty, Folder.names]⟩, rfl⟩, rfl⟩
  | folder d =>
    obtain rfl := Except.ok.inj opened
    exact ⟨⟨d, ⟨rfl, fun _ mem _ => highestNumber_bounds mem⟩, rfl⟩, rfl⟩

namespace Covers

theorem grow {d' : Folder} {lastId : ExecutionId} (covers : f.Covers d) (le : f.lastId ≤ lastId) {extra : String}
    (within : ∀ n, Numbered extra n → n ≤ lastId) (names : ∀ name ∈ d'.names, name = extra ∨ name ∈ d.names) :
    Covers { f with place := .folder d', lastId } d' where
  place := rfl
  above := by
    intro name mem n numbered
    rcases names name mem with rfl | old
    · exact within n numbered
    · exact Nat.le_trans (covers.above name old n numbered) le

theorem placed (covers : f.Covers d) {lastId : ExecutionId} (le : f.lastId ≤ lastId) (r : ExecutionRecord)
    (within : ∀ n, Numbered (recordName r.id) n → n ≤ lastId) :
    Covers { f with place := .folder (d.placed r), lastId } (d.placed r) :=
  covers.grow le within fun _ => Folder.names_placed

theorem fresh (covers : f.Covers d) {id : ExecutionId} (later : f.lastId < id) (fits : id < Text.idBound) :
    recordName id ∉ d.names := by
  intro mem
  have numbered : Numbered (recordName id) id := numberOfName_eq_some.mp (numberOfName_recordName fits)
  exact Nat.not_le.mpr later (covers.above _ mem id numbered)

theorem write_cases (covers : f.Covers d) (r : ExecutionRecord) :
    (∃ e d', f.write r = (.error e, { f with place := .folder d' }) ∧
      Covers { f with place := .folder d' } d' ∧
      (d.find? (sideName r.id) = some .folder ∨ recordName r.id ∈ d.names)) ∨
    (d.find? (sideName r.id) ≠ some .folder ∧
      f.write r = (.ok (), { f with place := .folder (d.placed r) })) := by
  rcases write_outcome covers.place r with ⟨blocked, e, failed⟩ | ⟨taken, e, failed⟩ | ⟨free, -, written⟩
  · refine .inl ⟨e, d, ?_, ?_, .inl blocked⟩ <;> rw [← covers.place]
    · exact failed
    · exact covers
  · have present : recordName r.id ∈ d.names := Folder.mem_names.mpr (by simp [taken])
    refine .inl ⟨e, _, failed, covers.grow (Nat.le_refl _) ?_ fun _ => Folder.names_insert, .inr present⟩
    exact fun n numbered => absurd numbered (not_numbered_sideName r.id)
  · exact .inr ⟨free, written⟩

theorem create_cases (covers : f.Covers d) (new : NewExecution) (now : Instant) :
    (∃ e d', f.create new now = (.error e, { f with place := .folder d' }) ∧
      Covers { f with place := .folder d' } d' ∧
      (d.find? (sideName (f.lastId + 1)) = some .folder ∨ recordName (f.lastId + 1) ∈ d.names)) ∨
    (d.find? (sideName (f.lastId + 1)) ≠ some .folder ∧
      f.create new now = (.ok (.queued (f.lastId + 1) new now),
        { f with place := .folder (d.placed (.queued (f.lastId + 1) new now)), lastId := f.lastId + 1 })) := by
  rcases covers.write_cases (.queued (f.lastId + 1) new now) with ⟨e, d', failed, covers', why⟩ | ⟨free, written⟩
  · exact .inl ⟨e, d', by simp only [FileStore.create, failed], covers', why⟩
  · refine .inr ⟨free, ?_⟩
    simp only [FileStore.create, written]
    rfl

theorem find?_names (place : f.place = .folder d) {id : ExecutionId} (found : f.find? id = .ok (some r)) :
    recordName id ∈ d.names := by
  rw [Folder.mem_names]
  intro absent
  simp [FileStore.find?, entry?, place, absent, bind, Except.bind, pure, Except.pure] at found

theorem update (covers : f.Covers d) (u : ExecutionRecord) :
    (∃ d', (f.update u).2.Covers d') ∧ (f.update u).2.lastId = f.lastId := by
  unfold FileStore.update
  split
  · exact ⟨⟨d, covers⟩, rfl⟩
  · exact ⟨⟨d, covers⟩, rfl⟩
  · next stored found =>
    split
    · exact ⟨⟨d, covers⟩, rfl⟩
    · rcases covers.write_cases u with ⟨e, d', failed, covers', -⟩ | ⟨-, written⟩
      · rw [failed]
        exact ⟨⟨d', covers'⟩, rfl⟩
      · rw [written]
        have within := covers.above _ (find?_names covers.place found)
        exact ⟨⟨_, covers.placed (Nat.le_refl _) u within⟩, rfl⟩

theorem prune (covers : f.Covers d) (listing : Listing) (cutoff : Instant) :
    (∃ d', (f.prune listing cutoff).2.Covers d') ∧ (f.prune listing cutoff).2.lastId = f.lastId := by
  let old := (recordsIn (listing d)).filter (·.finishedBefore cutoff)
  have left : (f.prune listing cutoff).2 = { f with place := .folder (removeEach d old).2 } := by
    simp only [FileStore.prune, covers.place, Place.folder?]
    split <;> next removed => exact congrArg (fun d => { f with place := .folder d }) (congrArg Prod.snd removed).symm
  rw [left]
  refine ⟨⟨_, rfl, fun name mem => covers.above name (Folder.names_removeEach mem)⟩, rfl⟩

theorem act (covers : f.Covers d) (a : FileAct) :
    (∃ d', (f.act a).Covers d') ∧ (f.act a).lastId ≤ f.lastId + (if a.creates then 1 else 0) ∧
      (a ≠ .reopen → f.lastId ≤ (f.act a).lastId) := by
  cases a with
  | create new now =>
    rcases covers.create_cases new now with ⟨e, d', failed, covers', -⟩ | ⟨-, created⟩
    · simp only [FileStore.act, failed]
      exact ⟨⟨d', covers'⟩, Nat.le_add_right _ _, fun _ => Nat.le_refl _⟩
    · simp only [FileStore.act, created]
      have placed := covers.placed (Nat.le_succ f.lastId) (.queued (f.lastId + 1) new now)
        fun n numbered => Nat.le_of_eq numbered.recordName
      exact ⟨⟨_, placed⟩, Nat.le_refl _, fun _ => Nat.le_succ _⟩
  | update u =>
    obtain ⟨covers', last⟩ := covers.update u
    exact ⟨covers', Nat.le_of_eq last, fun _ => Nat.le_of_eq last.symm⟩
  | prune listing cutoff =>
    obtain ⟨covers', last⟩ := covers.prune listing cutoff
    exact ⟨covers', Nat.le_of_eq last, fun _ => Nat.le_of_eq last.symm⟩
  | reopen =>
    have opened : f.act .reopen = { f with lastId := highestNumber d.names } := by
      simp only [FileStore.act, covers.place, openAt, Except.toOption, Option.getD_some]
    have below : highestNumber d.names ≤ f.lastId := by
      rcases (highestNumber_spec d.names).2 with zero | mem
      · exact Nat.le_trans (Nat.le_of_eq zero) (Nat.zero_le _)
      · obtain ⟨name, mem, read⟩ := List.mem_filterMap.mp mem
        exact covers.above name mem _ (numberOfName_eq_some.mp read)
    rw [opened]
    exact ⟨⟨d, covers.place, fun _ mem _ => highestNumber_bounds mem⟩, below, fun stays => absurd rfl stays⟩

theorem acts (covers : f.Covers d) (history : List FileAct) :
    (∃ d', (f.acts history).Covers d') ∧ (f.acts history).lastId ≤ f.lastId + history.countP FileAct.creates ∧
      (.reopen ∉ history → f.lastId ≤ (f.acts history).lastId) := by
  induction history generalizing f d with
  | nil => exact ⟨⟨d, covers⟩, Nat.le_refl _, fun _ => Nat.le_refl _⟩
  | cons a rest ih =>
    obtain ⟨⟨d', covers'⟩, most, least⟩ := covers.act a
    obtain ⟨later, most', least'⟩ := ih covers'
    rw [acts_cons, List.countP_cons]
    refine ⟨later, ?_, fun stays => ?_⟩
    · calc ((f.act a).acts rest).lastId
          ≤ (f.act a).lastId + rest.countP FileAct.creates := most'
        _ ≤ f.lastId + (if a.creates then 1 else 0) + rest.countP FileAct.creates :=
          Nat.add_le_add_right most _
        _ = f.lastId + (rest.countP FileAct.creates + if a.creates then 1 else 0) := by
          rw [Nat.add_assoc, Nat.add_comm (rest.countP _)]
    · obtain ⟨head, tail⟩ := not_or.mp (List.mem_cons.not.mp stays)
      exact Nat.le_trans (least (Ne.symm head)) (least' tail)

end Covers

end FileStore

/-- A folder has got the file of a new record. The side file of that id is gone, all else is as it was. -/
structure Folder.Added (d d' : Folder) (r : ExecutionRecord) : Prop where
  fresh : recordName r.id ∉ d.names
  above : ∀ name ∈ d.names, ∀ n, Numbered name n → n < r.id
  entries : ∀ name, d'.find? name =
    if name = recordName r.id then some (.file r.content)
    else if name = sideName r.id then none
    else d.find? name

namespace FileStore

theorem Covers.added (covers : f.Covers d) (room : f.lastId + 1 < Text.idBound) (next : r.id = f.lastId + 1) :
    d.Added (d.placed r) r where
  fresh := covers.fresh (next ▸ Nat.lt_succ_self f.lastId) (next ▸ room)
  above name mem n numbered := next ▸ Nat.lt_succ_of_le (covers.above name mem n numbered)
  entries := Folder.find?_placed d r

theorem Covers.create (covers : f.Covers d) (room : f.lastId + 1 < Text.idBound) (new : NewExecution)
    (now : Instant) :
    ((∃ r g, f.create new now = (.ok r, g)) ↔ d.find? (sideName (f.lastId + 1)) ≠ some .folder) ∧
      ∀ r g, f.create new now = (.ok r, g) →
        r = .queued (f.lastId + 1) new now ∧ ∃ d', g.place = .folder d' ∧ d.Added d' r := by
  have fresh := covers.fresh (Nat.lt_succ_self f.lastId) room
  rcases covers.create_cases new now with ⟨e, d', failed, -, blocked | taken⟩ | ⟨free, created⟩
  · rw [failed]
    exact ⟨by simp [blocked], by simp⟩
  · exact absurd taken fresh
  · rw [created]
    refine ⟨⟨fun _ => free, fun _ => ⟨_, _, rfl⟩⟩, ?_⟩
    intro r g answer
    obtain ⟨same, rfl⟩ := Prod.mk.inj answer
    obtain rfl := Except.ok.inj same
    exact ⟨rfl, _, rfl, covers.added room rfl⟩

/-- However the names in the folder are spelled at the opening, each create of a history that follows gives
a free name, past every number that stands in one, and leaves all other entries as they are. A create fails
only where a folder stands in the place of its side file. -/
theorem create_adds (path : String) (opened : openAt path place = .ok f)
    (few : history.countP FileAct.creates < Text.idBound)
    (room : ∀ name ∈ place.names, ∀ n, Numbered name n → n + history.countP FileAct.creates < Text.idBound)
    {before after : List FileAct} {new : NewExecution} {now : Instant}
    (split : history = before ++ .create new now :: after) :
    ∃ d, (f.acts before).place = .folder d ∧
      ((∃ r g, (f.acts before).create new now = (.ok r, g)) ↔
        d.find? (sideName ((f.acts before).lastId + 1)) ≠ some .folder) ∧
      ∀ r g, (f.acts before).create new now = (.ok r, g) →
        r = .queued ((f.acts before).lastId + 1) new now ∧
        (∃ d', g.place = .folder d' ∧ d.Added d' r) ∧
        (.reopen ∉ before → ∀ name ∈ place.names, ∀ n, Numbered name n → n < r.id) := by
  obtain ⟨⟨d₀, covers, -⟩, last⟩ := Covers.of_open opened
  obtain ⟨⟨d, covers⟩, most, least⟩ := covers.acts before
  have share : before.countP FileAct.creates + 1 ≤ history.countP FileAct.creates := by
    rw [split, List.countP_append, List.countP_cons_of_pos rfl]
    exact Nat.add_le_add_left (Nat.le_add_left 1 _) _
  have bound : f.lastId + history.countP FileAct.creates < Text.idBound := by
    rw [last]
    rcases (highestNumber_spec place.names).2 with zero | mem
    · rwa [zero, Nat.zero_add]
    · obtain ⟨name, mem, read⟩ := List.mem_filterMap.mp mem
      exact room name mem _ (numberOfName_eq_some.mp read)
  have fits : (f.acts before).lastId + 1 < Text.idBound :=
    calc (f.acts before).lastId + 1
        ≤ f.lastId + (before.countP FileAct.creates + 1) := Nat.add_le_add_right most 1
      _ ≤ f.lastId + history.countP FileAct.creates := Nat.add_le_add_left share _
      _ < Text.idBound := bound
  obtain ⟨succeeds, adds⟩ := covers.create fits new now
  refine ⟨d, covers.place, succeeds, fun r g created => ?_⟩
  obtain ⟨rfl, added⟩ := adds r g created
  refine ⟨rfl, added, fun stays name mem n numbered => ?_⟩
  calc n ≤ highestNumber place.names := highestNumber_bounds mem numbered
    _ = f.lastId := last.symm
    _ ≤ (f.acts before).lastId := least stays
    _ < (f.acts before).lastId + 1 := Nat.lt_succ_self _

def cluttered : Folder :=
  ⟨[("+7.json", .file .empty), (sideName 8, .file .empty), ("3.json", .folder), ("notes.txt", .file .empty)]⟩

theorem cluttered_added :
    ∃ f g d', openAt "/data/executions" (.folder cluttered) = .ok f ∧
      f.create dailyUpdate ⟨1700000000, 0⟩ = (.ok (shortRun 8), g) ∧ g.place = .folder d' ∧
      cluttered.Added d' (shortRun 8) := by
  have numbers : cluttered.names.filterMap numberOfName = [7, 3] := by decide
  let f : FileStore := { path := "/data/executions", place := .folder cluttered, lastId := 7 }
  have opened : openAt "/data/executions" (.folder cluttered) = .ok f := by
    simp only [openAt, highestNumber, numbers]
    rfl
  let history : List FileAct := [.create dailyUpdate ⟨1700000000, 0⟩]
  have few : history.countP FileAct.creates < Text.idBound := by decide
  have room : ∀ name ∈ (Place.folder cluttered).names, ∀ n, Numbered name n →
      n + history.countP FileAct.creates < Text.idBound := by
    intro name mem n numbered
    have listed : n ∈ cluttered.names.filterMap numberOfName :=
      List.mem_filterMap.mpr ⟨name, mem, numberOfName_eq_some.mpr numbered⟩
    rw [numbers] at listed
    have small : n = 7 ∨ n = 3 := by simpa using listed
    rcases small with rfl | rfl <;> decide
  have split : history = [] ++ .create dailyUpdate ⟨1700000000, 0⟩ :: [] := rfl
  obtain ⟨d, place, succeeds, adds⟩ := create_adds "/data/executions" opened few room split
  obtain rfl := Place.folder.inj place
  have beside : cluttered.find? (sideName 8) = some (.file .empty) := by rfl
  have free : cluttered.find? (sideName 8) ≠ some .folder := by simp [beside]
  obtain ⟨r, g, created⟩ := succeeds.mpr free
  obtain ⟨rfl, ⟨d', place', added⟩, -⟩ := adds r g created
  exact ⟨f, g, d', opened, created, place', added⟩

end FileStore

end FleetOps
