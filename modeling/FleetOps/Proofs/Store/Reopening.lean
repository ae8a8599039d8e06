import FleetOps.Proofs.Store.Refinement

set_option autoImplicit false

namespace FleetOps

inductive FileAct where
  | create (new : NewExecution) (now : Instant)
  | update (r : ExecutionRecord)
  | prune (listing : Listing) (cutoff : Instant)
  | reopen

namespace FileAct

def creates : FileAct → Bool
  | .create _ _ => true
  | _ => false

def Complete : FileAct → Prop
  | .prune listing _ => listing.Complete
  | _ => True

end FileAct

namespace FileStore

def act (f : FileStore) : FileAct → FileStore
  | .create new now => (f.create new now).2
  | .update r => (f.update r).2
  | .prune listing cutoff => (f.prune listing cutoff).2
  | .reopen => (openAt f.path f.place).toOption.getD f

def newId? (f : FileStore) : FileAct → Option ExecutionId
  | .create new now => (f.create new now).1.toOption.map (·.id)
  | _ => none

def acts (f : FileStore) (history : List FileAct) : FileStore :=
  history.foldl act f

def given : FileStore → List FileAct → List ExecutionId
  | _, [] => []
  | f, a :: rest => (f.newId? a).toList ++ given (f.act a) rest

end FileStore

theorem highestNumber_spec (names : List String) :
    (∀ n ∈ names.filterMap numberOfName, n ≤ highestNumber names) ∧
      (highestNumber names = 0 ∨ highestNumber names ∈ names.filterMap numberOfName) := by
  have greatest : highestNumber names = (names.filterMap numberOfName).max?.getD 0 := by
    rw [highestNumber, List.foldl_max, Nat.zero_max]
  rw [greatest]
  cases found : (names.filterMap numberOfName).max? with
  | none => simp [List.max?_eq_none_iff.mp found]
  | some n =>
    obtain ⟨mem, bounds⟩ := List.max?_eq_some_iff.mp found
    exact ⟨bounds, .inr mem⟩

namespace FileStore.Holds

variable {f : FileStore} {rs : List ExecutionRecord}

theorem reopen (holds : f.Holds rs) (room : f.lastId < Text.idBound) :
    (f.act .reopen).Holds rs ∧
      ((f.act .reopen).lastId = 0 ∨ ∃ r ∈ rs, r.id = (f.act .reopen).lastId) := by
  obtain ⟨d, place, same⟩ := holds.folder
  have opened : f.act .reopen = { f with lastId := highestNumber d.names } := by
    simp only [act, place, openAt, Except.toOption, Option.getD_some]
  have names : ∀ id, id ∈ d.names.filterMap numberOfName ↔ ∃ r ∈ rs, r.id = id := by
    intro id
    simp only [List.mem_filterMap, Folder.names, List.mem_map]
    constructor
    · rintro ⟨_, ⟨p, listed, rfl⟩, number⟩
      obtain ⟨r, mem, rfl⟩ := same.mem_iff.mp listed
      refine ⟨r, mem, ?_⟩
      exact Option.some.inj ((numberOfName_recordName (holds.fits room r mem)).symm.trans number)
    · rintro ⟨r, mem, rfl⟩
      exact ⟨_, ⟨r.file, same.mem_iff.mpr ⟨r, mem, rfl⟩, rfl⟩,
        numberOfName_recordName (holds.fits room r mem)⟩
  obtain ⟨bounds, attained⟩ := highestNumber_spec d.names
  rw [opened]
  refine ⟨⟨⟨d, place, same⟩, ?_⟩, attained.imp_right (names _).mp⟩
  exact fun r mem => bounds r.id ((names r.id).mpr ⟨r, mem, rfl⟩)

theorem find?_ne_none (holds : f.Holds rs) (id : ExecutionId) :
    f.find? id ≠ .ok none ↔ ∃ r ∈ rs, r.id = id := by
  rw [Ne, holds.find?_eq_none, List.find?_eq_none]
  simp

end FileStore.Holds

namespace FileStore

variable {f g : FileStore} {rs : List ExecutionRecord} {a : FileAct} {rest history : List FileAct}
  {last : Option Nat} {id n : Nat}

structure Recovers (f : FileStore) (n : Nat) : Prop where
  standing : n = 0 ∨ f.find? n ≠ .ok none
  greatest : ∀ id, f.find? id ≠ .ok none → id ≤ n
  below : n ≤ f.lastId

/-- What an action makes of the ids: a create gives the next one, and only an opening may fall back. -/
inductive Counts (f : FileStore) : FileAct → Option Nat → Nat → Prop where
  | created (new : NewExecution) (now : Instant) :
      Counts f (.create new now) (some (f.lastId + 1)) (f.lastId + 1)
  | kept {a : FileAct} (creates : a.creates = false) (stays : a ≠ .reopen) : Counts f a none f.lastId
  | reopened {n : Nat} (recovers : f.Recovers n) : Counts f .reopen none n

theorem Holds.counts (holds : f.Holds rs) (room : f.lastId < Text.idBound) (complete : a.Complete) :
    (∃ rs', (f.act a).Holds rs') ∧ f.Counts a (f.newId? a) (f.act a).lastId := by
  cases a with
  | create new now =>
    obtain ⟨f', created, holds', last⟩ := holds.create new now
    have counts := Counts.created (f := f) new now
    simp only [act, newId?, created, Except.toOption, Option.map_some]
    exact ⟨⟨_, holds'⟩, last ▸ counts⟩
  | update r =>
    obtain ⟨e, refused⟩ | ⟨_, f', -, -, updated, holds', last⟩ := holds.update r
    · simp only [act, refused]
      exact ⟨⟨_, holds⟩, .kept rfl (by simp)⟩
    · simp only [act, updated]
      exact ⟨⟨_, holds'⟩, last ▸ .kept rfl (by simp)⟩
  | prune listing cutoff =>
    obtain ⟨f', pruned, holds', last⟩ := holds.prune room complete cutoff
    simp only [act, pruned]
    exact ⟨⟨_, holds'⟩, last ▸ .kept rfl (by simp)⟩
  | reopen =>
    obtain ⟨holds', recovered⟩ := holds.reopen room
    have present (id : ExecutionId) := holds.find?_ne_none id
    refine ⟨⟨_, holds'⟩, .reopened ⟨recovered.imp_right (present _).mpr, ?_, ?_⟩⟩
    · intro id found
      obtain ⟨r, mem, rfl⟩ := (present id).mp found
      exact holds'.given r mem
    · rcases recovered with zero | ⟨r, mem, same⟩
      · exact zero ▸ Nat.zero_le _
      · exact same ▸ holds.given r mem

theorem given_idle (idle : history.any FileAct.creates = false) : f.given history = [] := by
  induction history generalizing f with
  | nil => rfl
  | cons a rest ih =>
    rw [List.any_cons, Bool.or_eq_false_iff] at idle
    have silent : f.newId? a = none := by
      cases a with
      | create => cases idle.1
      | update | prune | reopen => rfl
    rw [given, silent, ih idle.2]
    rfl

theorem Counts.room {new : Option Nat} (counts : f.Counts a new n)
    (room : (a :: rest).countP FileAct.creates + f.lastId < Text.idBound) :
    rest.countP FileAct.creates + n < Text.idBound := by
  rw [List.countP_cons] at room
  cases counts with
  | created => simp only [FileAct.creates, if_true] at room; omega
  | kept => omega
  | reopened recovers =>
    have below : n ≤ (f.lastId : Nat) := recovers.below
    omega

theorem Holds.repeats (holds : f.Holds rs) (complete : ∀ a ∈ history, a.Complete)
    (room : history.countP FileAct.creates + f.lastId < Text.idBound) {top : Nat} (below : f.lastId < top)
    (more : history.any FileAct.creates = true) : ∃ id ∈ f.given history, id ≤ top := by
  induction history generalizing f rs with
  | nil => cases more
  | cons a rest ih =>
    obtain ⟨here, later⟩ := List.forall_mem_cons.mp complete
    obtain ⟨⟨rs', holds'⟩, counts⟩ := holds.counts (Nat.lt_of_le_of_lt (Nat.le_add_left _ _) room) here
    have further := ih holds' later (counts.room room)
    rw [FileStore.given]
    generalize f.newId? a = new, (f.act a).lastId = n at counts further
    cases counts with
    | created new now => exact ⟨f.lastId + 1, by simp, below⟩
    | kept creates stays =>
      have more : rest.any FileAct.creates = true := by simpa [creates] using more
      simpa using further below more
    | reopened recovers =>
      have more : rest.any FileAct.creates = true := by simpa [FileAct.creates] using more
      simpa using further (Nat.lt_of_le_of_lt recovers.below below) more

theorem acts_cons (f : FileStore) (a : FileAct) (before : List FileAct) :
    f.acts (a :: before) = (f.act a).acts before :=
  rfl

def Recalls (f : FileStore) : Option Nat → Prop
  | none => f.lastId = 0
  | some id => f.lastId = id ∧ 0 < id

theorem Recalls.reopened (recalls : f.Recalls last) (recovers : f.Recovers g.lastId)
    (found : ∀ id ∈ last, f.find? id ≠ .ok none) : g.Recalls last := by
  cases last with
  | none =>
    have zero : f.lastId = 0 := recalls
    exact Nat.le_zero.mp (zero ▸ recovers.below)
  | some id =>
    obtain ⟨same, positive⟩ := recalls
    have above := recovers.greatest id (found id rfl)
    exact ⟨Nat.le_antisymm (same ▸ recovers.below) above, positive⟩

theorem Recalls.falls_back (recalls : f.Recalls (some id)) (recovers : f.Recovers n)
    (gone : f.find? id = .ok none) : n < id := by
  obtain ⟨same, positive⟩ := recalls
  refine Nat.lt_of_le_of_ne (same ▸ recovers.below) ?_
  rintro rfl
  rcases recovers.standing with zero | found
  · exact absurd zero (Nat.ne_of_gt positive)
  · exact found gone

/-- At each opening after which more is created, the record is still there whose id was given last. -/
def Remembers (f : FileStore) (last : Option Nat) (history : List FileAct) : Prop :=
  ∀ before after, history = before ++ .reopen :: after → after.any FileAct.creates = true →
    ∀ id ∈ (last.toList ++ f.given before).getLast?, (f.acts before).find? id ≠ .ok none

theorem remembers_idle (idle : history.any FileAct.creates = false) : f.Remembers last history := by
  rintro before after rfl more
  simp [more] at idle

theorem remembers_create (creates : f.newId? a = some n) (stays : a ≠ .reopen) :
    f.Remembers last (a :: rest) ↔ (f.act a).Remembers (some n) rest := by
  have latest (ids : List Nat) :
      (last.toList ++ ([n] ++ ids)).getLast? = ((some n).toList ++ ids).getLast? := by
    rw [List.singleton_append, List.getLast?_append, List.getLast?_cons, Option.some_or,
      Option.toList_some, List.singleton_append, List.getLast?_cons]
  rw [Remembers, forall_split_cons, and_iff_right fun same => absurd same stays]
  simp only [FileStore.given, creates, Option.toList_some, latest, acts_cons]
  rfl

theorem remembers_keep (silent : f.newId? a = none) (stays : a ≠ .reopen) :
    f.Remembers last (a :: rest) ↔ (f.act a).Remembers last rest := by
  rw [Remembers, forall_split_cons, and_iff_right fun same => absurd same stays]
  simp only [FileStore.given, silent, Option.toList_none, List.nil_append, acts_cons]
  rfl

theorem remembers_reopen : f.Remembers last (.reopen :: rest) ↔
    (rest.any FileAct.creates = true → ∀ id ∈ last, f.find? id ≠ .ok none) ∧
      (f.act .reopen).Remembers last rest := by
  have latest : last.toList.getLast? = last := by cases last <;> rfl
  have silent : f.newId? .reopen = none := rfl
  rw [Remembers, forall_split_cons]
  simp only [FileStore.given, silent, Option.toList_none, List.nil_append, List.append_nil, latest, acts_cons,
    forall_const]
  rfl

theorem pairwise_next {ids : List Nat} (recalls : f.Recalls last) :
    (last.toList ++ (f.lastId + 1) :: ids).Pairwise (· < ·) ↔ ((f.lastId + 1) :: ids).Pairwise (· < ·) := by
  cases last with
  | none => rfl
  | some id =>
    obtain ⟨rfl, -⟩ := recalls
    constructor
    · exact fun rises => (List.pairwise_cons.mp rises).2
    · intro rises
      refine List.pairwise_cons.mpr ⟨fun n mem => ?_, rises⟩
      rcases List.mem_cons.mp mem with rfl | mem
      · exact Nat.lt_succ_self _
      · exact Nat.lt_of_succ_lt ((List.pairwise_cons.mp rises).1 n mem)

theorem Holds.rises_below_iff (holds : f.Holds rs) (complete : ∀ a ∈ history, a.Complete)
    (room : history.countP FileAct.creates + f.lastId < Text.idBound) (below : f.lastId < id) :
    (id :: f.given history).Pairwise (· < ·) ↔ history.any FileAct.creates = false := by
  cases more : history.any FileAct.creates with
  | false => simp [given_idle more]
  | true =>
    obtain ⟨k, mem, low⟩ := holds.repeats complete room below more
    refine iff_of_false ?_ (by simp)
    intro rises
    exact absurd ((List.pairwise_cons.mp rises).1 k mem) (Nat.not_lt.mpr low)

-- The ids rise over a history just where the last one is remembered at each opening. The induction is on the
-- history; an opening that forgets the last id decides both sides at once.
theorem Holds.rises_iff (holds : f.Holds rs) (complete : ∀ a ∈ history, a.Complete)
    (room : history.countP FileAct.creates + f.lastId < Text.idBound) (recalls : f.Recalls last) :
    (last.toList ++ f.given history).Pairwise (· < ·) ↔ f.Remembers last history := by
  induction history generalizing f rs last with
  | nil =>
    rw [iff_true_right (remembers_idle rfl), FileStore.given, List.append_nil]
    cases last <;> simp
  | cons a rest ih =>
    obtain ⟨here, later⟩ := List.forall_mem_cons.mp complete
    obtain ⟨⟨rs', holds'⟩, counts⟩ := holds.counts (Nat.lt_of_le_of_lt (Nat.le_add_left _ _) room) here
    have left := counts.room room
    have ih {last : Option Nat} (recalls : (f.act a).Recalls last) := ih holds' later left recalls
    rw [FileStore.given]
    generalize created : f.newId? a = new, next : (f.act a).lastId = m at counts
    cases counts with
    | created new now =>
      have recalls' : (f.act (.create new now)).Recalls (some (f.lastId + 1)) := ⟨next, Nat.succ_pos _⟩
      rw [remembers_create created (by simp), ← ih recalls']
      exact pairwise_next recalls
    | kept creates stays =>
      have recalls' : (f.act a).Recalls last := by cases last <;> simpa [Recalls, next] using recalls
      rw [remembers_keep created stays, ← ih recalls']
      rfl
    | reopened recovers =>
      rw [remembers_reopen, Option.toList_none, List.nil_append]
      by_cases found : ∀ id ∈ last, f.find? id ≠ .ok none
      · rw [ih (recalls.reopened (next ▸ recovers) found)]
        exact (and_iff_right fun _ => found).symm
      · obtain ⟨id, rfl, gone⟩ : ∃ id, last = some id ∧ f.find? id = .ok none := by simpa using found
        have below := recalls.falls_back recovers gone
        refine (holds'.rises_below_iff later left (next ▸ below)).trans ?_
        constructor
        · intro idle
          exact ⟨fun more => by simp [idle] at more, remembers_idle idle⟩
        · rintro ⟨head, -⟩
          refine Bool.eq_false_of_not_eq_true fun more => ?_
          exact head more id rfl gone

theorem Holds.length_given (holds : f.Holds rs) (complete : ∀ a ∈ history, a.Complete)
    (room : history.countP FileAct.creates + f.lastId < Text.idBound) :
    (f.given history).length = history.countP FileAct.creates := by
  induction history generalizing f rs with
  | nil => rfl
  | cons a rest ih =>
    obtain ⟨here, later⟩ := List.forall_mem_cons.mp complete
    obtain ⟨⟨rs', holds'⟩, counts⟩ := holds.counts (Nat.lt_of_le_of_lt (Nat.le_add_left _ _) room) here
    have further := ih holds' later (counts.room room)
    rw [FileStore.given, List.length_append, further, List.countP_cons, Nat.add_comm]
    generalize f.newId? a = new, (f.act a).lastId = n at counts
    cases counts with
    | created => rfl
    | kept creates => rw [creates]; rfl
    | reopened => rfl

/-- A store that is opened in a folder that is empty or not there yet answers every create with an id. The
ids rise over the whole history just where each opening, after which more is created, still finds the
record of the id given last. -/
theorem ids_rise_iff (path : String) {place : Place} (bare : place = .missing ∨ place = .folder .empty)
    (opened : openAt path place = .ok f) (complete : ∀ a ∈ history, a.Complete)
    (room : history.countP FileAct.creates < Text.idBound) :
    (f.given history).length = history.countP FileAct.creates ∧
      ((f.given history).Pairwise (· < ·) ↔
        ∀ before after, history = before ++ .reopen :: after → after.any FileAct.creates = true →
          ∀ id, (f.given before).getLast? = some id → (f.acts before).find? id ≠ .ok none) := by
  obtain ⟨f', opened', holds, zero⟩ := Holds.of_bare path bare
  obtain rfl : f = f' := Except.ok.inj (opened.symm.trans opened')
  have bound : history.countP FileAct.creates + f.lastId < Text.idBound := by rwa [zero]
  exact ⟨holds.length_given complete bound, holds.rises_iff complete bound (show f.Recalls none from zero)⟩

def relaunched : List FileAct :=
  [.create dailyUpdate ⟨1700000000, 0⟩, .reopen, .create dailyUpdate ⟨1700000100, 0⟩]

theorem relaunched_rises :
    ∃ f, openAt "/data/executions" .missing = .ok f ∧ (f.given relaunched).length = 2 ∧
      (f.given relaunched).Pairwise (· < ·) := by
  obtain ⟨f, opened, mirrors⟩ := openAt_bare "/data/executions" (.inl rfl)
  obtain ⟨f₁, created, mirrors⟩ := mirrors.create dailyUpdate ⟨1700000000, 0⟩ shortRun_storable (by decide)
  have complete : ∀ a ∈ relaunched, a.Complete := by simp [relaunched, FileAct.Complete]
  obtain ⟨all, rises⟩ := ids_rise_iff "/data/executions" (.inl rfl) opened complete (by decide)
  refine ⟨f, opened, all, rises.mpr ?_⟩
  -- The one opening follows the first create, whose record is still there.
  refine forall_split_cons.mpr ⟨by simp, forall_split_cons.mpr ⟨?_, ?_⟩⟩
  · intro _ _ id last
    have first : f.act (.create dailyUpdate ⟨1700000000, 0⟩) = f₁ := congrArg Prod.snd created
    obtain rfl : 1 = id := by
      simpa [given, newId?, created, Except.toOption, MemoryStore.create, MemoryStore.empty,
        ExecutionRecord.queued] using last
    rw [acts_cons, first, acts, List.foldl_nil, mirrors.find? 1]
    intro absent
    cases Except.ok.inj absent
  · exact forall_split_cons.mpr ⟨by simp, by simp⟩

def forgetful : List FileAct :=
  [.create dailyUpdate ⟨1700000000, 0⟩, .update shortRunSkipped, .prune Folder.entries ⟨1700000061, 0⟩,
    .reopen, .create dailyUpdate ⟨1700000100, 0⟩]

theorem forgetful_repeats :
    ∃ f, openAt "/data/executions" .missing = .ok f ∧ f.given forgetful = [1, 1] ∧
      ¬ (f.given forgetful).Pairwise (· < ·) := by
  obtain ⟨f, opened, mirrors⟩ := openAt_bare "/data/executions" (.inl rfl)
  obtain ⟨f₁, created, mirrors⟩ := mirrors.create dailyUpdate ⟨1700000000, 0⟩ shortRun_storable (by decide)
  obtain ⟨answer, f₂, m, updated, updated', mirrors, -⟩ := mirrors.update shortRunSkipped_storable
  obtain ⟨f₃, pruned, mirrors⟩ := mirrors.prune (fun _ => .refl _) ⟨1700000061, 0⟩
  obtain rfl : { records := [shortRunSkipped], lastId := 1 } = m :=
    Store.memory.inj (congrArg Prod.snd updated')
  have empty : f₃.Holds [] := mirrors.holds
  obtain ⟨holds, recovered⟩ := empty.reopen mirrors.room
  have zero : (f₃.act .reopen).lastId = 0 := by simpa using recovered
  obtain ⟨f₅, again, -, -⟩ := holds.create dailyUpdate ⟨1700000100, 0⟩
  have ids : f.given forgetful = [1, 1] := by
    have first : f.act (.create dailyUpdate ⟨1700000000, 0⟩) = f₁ := congrArg Prod.snd created
    have second : f₁.act (.update shortRunSkipped) = f₂ := Store.files.inj (congrArg Prod.snd updated)
    have third : f₂.act (.prune Folder.entries ⟨1700000061, 0⟩) = f₃ := congrArg Prod.snd pruned
    simp only [forgetful, given, first, second, third, newId?, created, again, zero, Except.toOption,
      Option.map_some]
    rfl
  refine ⟨f, opened, ids, ?_⟩
  rw [ids]
  decide

end FileStore

end FleetOps
