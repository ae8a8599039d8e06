import FleetOps.Proofs.Store.Refinement

set_option autoImplicit false

namespace FleetOps

def StoreCall.forgets (c : StoreCall) (r : ExecutionRecord) : Bool :=
  match c with
  | .prune cutoff => r.finishedBefore cutoff
  | _ => false

namespace FileStore.Holds

variable {f f' : FileStore} {rs rs' : List ExecutionRecord} {id : ExecutionId}

theorem find?_congr (holds : f.Holds rs) (holds' : f'.Holds rs')
    (same : rs'.find? (·.id = id) = rs.find? (·.id = id)) : f'.find? id = f.find? id := by
  rw [holds.find?_eq, holds'.find?_eq, same]

theorem find?_insert (holds : f.Holds rs) {r : ExecutionRecord}
    (holds' : f'.Holds (MemoryStore.insertById r rs)) (other : id ≠ r.id) : f'.find? id = f.find? id := by
  refine holds.find?_congr holds' ?_
  have shown := MemoryStore.find?_insert ⟨rs, f.lastId⟩ r id
  rwa [if_neg other] at shown

theorem find?_filter (holds : f.Holds rs) {cutoff : Instant} {seen : Option ExecutionRecord}
    (holds' : f'.Holds (rs.filter fun r => !r.reread?.any (·.finishedBefore cutoff)))
    (found : f.find? id = .ok seen) : f'.find? id = .ok (seen.filter fun r => !r.finishedBefore cutoff) := by
  have left := find?_filter_of_nodup holds.nodup_ids
    (fun r => !r.reread?.any (·.finishedBefore cutoff)) id
  cases seen with
  | none =>
    rw [holds.find?_eq_none.mp found, Option.filter_none] at left
    exact holds'.find?_eq_none.mpr left
  | some r =>
    obtain ⟨t, there, read⟩ := holds.find?_eq_some.mp found
    rw [there, Option.filter_some, read, Option.any_some] at left
    rw [Option.filter_some]
    cases finished : r.finishedBefore cutoff with
    | true =>
      rw [finished] at left
      exact holds'.find?_eq_none.mpr left
    | false =>
      rw [finished] at left
      exact holds'.find?_eq_some.mpr ⟨t, left, read⟩

end FileStore.Holds

namespace Store

variable {s : Store} {listing : Listing} {c : StoreCall} {id : Nat} {r u : ExecutionRecord}

def Sound : Store → Prop
  | .memory m => m.Ordered
  | .files f => ∃ rs, f.Holds rs

theorem update_absent (found : s.find? u.id = .ok none) :
    s.update u = (.error (.executionNotFound u.id), s) := by
  cases s with
  | memory m =>
    have found : m.find? u.id = none := Except.ok.inj found
    simp only [Store.update, MemoryStore.update, found]
  | files f =>
    have found : f.find? u.id = .ok none := found
    simp only [Store.update, FileStore.update, found]

theorem update_ended (found : s.find? u.id = .ok (some r)) (ended : r.status.isTerminal = true) :
    s.update u = (.error (.invalidTransition u.id r.status u.status), s) := by
  have check : r.checkReplacement u = .error (.invalidTransition u.id r.status u.status) := by
    rw [ExecutionRecord.checkReplacement, if_pos ended]
  cases s with
  | memory m =>
    have found : m.find? u.id = some r := Except.ok.inj found
    simp only [Store.update, MemoryStore.update, found, check]
    rfl
  | files f =>
    have found : f.find? u.id = .ok (some r) := found
    simp only [Store.update, FileStore.update, found, check]

structure Serves (s : Store) (c : StoreCall) (s' : Store) : Prop where
  sound : s'.Sound
  lastId : s'.lastId = s.lastId + if c.creates then 1 else 0
  shows : ∀ id seen, id ≤ s.lastId → (∀ r ∈ seen, r.status.isTerminal = true) → s.find? id = .ok seen →
    s'.find? id = .ok (seen.filter fun r => !c.forgets r)

theorem Serves.of_kept {s' : Store} (sound : s'.Sound)
    (lastId : s'.lastId = s.lastId + if c.creates then 1 else 0) (forgets : ∀ r, c.forgets r = false)
    (kept : ∀ id seen, id ≤ s.lastId → (∀ r ∈ seen, r.status.isTerminal = true) → s.find? id = .ok seen →
      s'.find? id = s.find? id) : s.Serves c s' where
  sound := sound
  lastId := lastId
  shows := by
    intro id seen given ended found
    rw [kept id seen given ended found, found]
    cases seen with
    | none => rfl
    | some r =>
      rw [Option.filter_some, forgets]
      rfl

theorem Serves.same (sound : s.Sound) (creates : c.creates = false) (forgets : ∀ r, c.forgets r = false) :
    s.Serves c s :=
  .of_kept sound (by simp [creates]) forgets fun _ _ _ _ _ => rfl

theorem serves_memory {m : MemoryStore} (ordered : m.Ordered) (listing : Listing) (c : StoreCall) :
    (Store.memory m).Serves c ((Store.memory m).serve listing c).2 := by
  have still : (Store.memory m).Sound := ordered
  cases c with
  | get | query => exact .same still rfl fun _ => rfl
  | create new now =>
    refine .of_kept (ordered.create new now) rfl (fun _ => rfl) fun id seen given _ _ => ?_
    have fresh : id ≠ m.lastId + 1 := Nat.ne_of_lt (Nat.lt_succ_of_le given)
    have shown : (m.create new now).2.find? id = m.find? id := by
      rw [MemoryStore.find?_create, if_neg fresh]
    exact congrArg Except.ok shown
  | prune cutoff =>
    refine ⟨ordered.prune cutoff, rfl, fun id seen _ _ found => ?_⟩
    have found : m.find? id = seen := Except.ok.inj found
    have shown := MemoryStore.find?_prune ordered cutoff id
    rw [found] at shown
    exact congrArg Except.ok shown
  | update u =>
    cases updated : m.update u with
    | error e => simpa [serve, Store.update, updated] using .same still rfl fun _ => rfl
    | ok m' =>
      simp only [serve, Store.update, updated, Prod.map_snd, id_eq]
      obtain ⟨stored, known, active, rfl⟩ := MemoryStore.update_eq_ok.mp updated
      refine .of_kept (ordered.update updated) rfl (fun _ => rfl) fun id seen _ ended found => ?_
      have other : id ≠ u.id := by
        rintro rfl
        have same : some stored = seen := known.symm.trans (Except.ok.inj found)
        simp [ended stored same.symm] at active
      have shown : (m.insert u).find? id = m.find? id := by rw [MemoryStore.find?_insert, if_neg other]
      exact congrArg Except.ok shown

theorem serves_files {f : FileStore} {rs : List ExecutionRecord} (holds : f.Holds rs)
    (room : f.lastId < Text.idBound) (complete : listing.Complete) (c : StoreCall) :
    (Store.files f).Serves c ((Store.files f).serve listing c).2 := by
  have still : (Store.files f).Sound := ⟨rs, holds⟩
  cases c with
  | get | query => exact .same still rfl fun _ => rfl
  | create new now =>
    obtain ⟨f', created, holds', last⟩ := holds.create new now
    simp only [serve, Store.create, created, Prod.map_snd, id_eq]
    refine .of_kept ⟨_, holds'⟩ last (fun _ => rfl) fun id seen given _ _ => ?_
    exact holds.find?_insert holds' (Nat.ne_of_lt (Nat.lt_succ_of_le given))
  | prune cutoff =>
    obtain ⟨f', pruned, holds', last⟩ := holds.prune room complete cutoff
    simp only [serve, Store.prune, pruned, Prod.map_snd, id_eq]
    exact ⟨⟨_, holds'⟩, last, fun id seen _ _ found => holds.find?_filter holds' found⟩
  | update u =>
    obtain ⟨e, refused⟩ | ⟨stored, f', known, check, updated, holds', last⟩ := holds.update u
    · simpa [serve, Store.update, refused] using .same still rfl fun _ => rfl
    · simp only [serve, Store.update, updated, Prod.map_snd, id_eq]
      refine .of_kept ⟨_, holds'⟩ last (fun _ => rfl) fun id seen _ ended found => ?_
      have other : id ≠ u.id := by
        rintro rfl
        have same : some stored = seen := Except.ok.inj (known.symm.trans found)
        simp [ExecutionRecord.checkReplacement, ended stored same.symm] at check
      exact holds.find?_insert holds' other

theorem serves (sound : s.Sound) (complete : listing.Complete) (room : s.lastId < Text.idBound)
    (c : StoreCall) : s.Serves c (s.serve listing c).2 := by
  cases s with
  | memory m => exact serves_memory sound listing c
  | files f =>
    obtain ⟨rs, holds⟩ := sound
    exact serves_files holds room complete c

theorem Sound.given (sound : s.Sound) (found : s.find? id = .ok (some r)) : id ≤ s.lastId := by
  cases s with
  | memory m => exact MemoryStore.Ordered.find?_given sound (Except.ok.inj found)
  | files f =>
    obtain ⟨rs, holds⟩ := sound
    obtain ⟨t, there, -⟩ := holds.find?_eq_some.mp found
    obtain ⟨mem, rfl⟩ := (find?_eq_some_of_nodup holds.nodup_ids).mp there
    exact holds.given t mem

def after (listings : Nat → Listing) : Store → List StoreCall → Store
  | s, [] => s
  | s, c :: rest => after listings (s.serve (listings rest.length) c).2 rest

variable {listings : Nat → Listing} {rest : List StoreCall}

theorem Serves.room {s' : Store} (served : s.Serves c s')
    (room : s.lastId + (c :: rest).countP StoreCall.creates < Text.idBound) :
    s'.lastId + rest.countP StoreCall.creates < Text.idBound ∧
      s.lastId + (c :: rest).countP StoreCall.creates = s'.lastId + rest.countP StoreCall.creates := by
  have last := served.lastId
  rw [List.countP_cons] at room ⊢
  omega

theorem Sound.after (sound : s.Sound) (calls : List StoreCall) (complete : ∀ n, (listings n).Complete)
    (room : s.lastId + calls.countP StoreCall.creates < Text.idBound) :
    (s.after listings calls).Sound ∧
      (s.after listings calls).lastId = s.lastId + calls.countP StoreCall.creates := by
  induction calls generalizing s with
  | nil => exact ⟨sound, rfl⟩
  | cons c rest ih =>
    have served := serves sound (complete rest.length) (by omega) c
    obtain ⟨left, count⟩ := served.room room
    rw [count]
    exact ih served.sound left

theorem Sound.find?_after {seen : Option ExecutionRecord} (sound : s.Sound) (calls : List StoreCall)
    (complete : ∀ n, (listings n).Complete)
    (room : s.lastId + calls.countP StoreCall.creates < Text.idBound) (given : id ≤ s.lastId)
    (ended : ∀ r ∈ seen, r.status.isTerminal = true) (found : s.find? id = .ok seen) :
    (s.after listings calls).find? id = .ok (seen.filter fun r => !calls.any (·.forgets r)) := by
  induction calls generalizing s seen with
  | nil =>
    rw [Store.after, found]
    cases seen <;> rfl
  | cons c rest ih =>
    have served := serves sound (complete rest.length) (by omega) c
    have shown := served.shows id seen given ended found
    have later : id ≤ (s.serve (listings rest.length) c).2.lastId := by
      have last := served.lastId
      omega
    have ended' : ∀ r ∈ seen.filter fun r => !c.forgets r, r.status.isTerminal = true := by
      intro r mem
      exact ended r (Option.filter_eq_some_iff.mp mem).1
    rw [Store.after, ih served.sound (served.room room).1 later ended' shown, Option.filter_filter]
    simp only [List.any_cons, Bool.not_or]

end Store

def ExecutionRecord.PrunedBy (r : ExecutionRecord) (calls : List StoreCall) : Prop :=
  ∃ cutoff t, .prune cutoff ∈ calls ∧ r.finishedAt = some t ∧ t.before cutoff = true

theorem ExecutionRecord.prunedBy_iff {r : ExecutionRecord} {calls : List StoreCall}
    (ended : r.status.isTerminal = true) : r.PrunedBy calls ↔ calls.any (·.forgets r) = true := by
  rw [List.any_eq_true]
  constructor
  · rintro ⟨cutoff, t, mem, finished, before⟩
    exact ⟨.prune cutoff, mem, by simp [StoreCall.forgets, finishedBefore, ended, finished, before]⟩
  · rintro ⟨c, mem, forgets⟩
    cases c with
    | prune cutoff =>
      cases finished : r.finishedAt with
      | none => simp [StoreCall.forgets, finishedBefore, finished] at forgets
      | some t =>
        refine ⟨cutoff, t, mem, finished, ?_⟩
        simpa [StoreCall.forgets, finishedBefore, ended, finished] using forgets
    | create | update | get | query => cases forgets

namespace Store

/-- A store that nothing was put in: in memory, or opened in a folder that is empty or not there yet. -/
inductive Fresh : Store → Prop where
  | memory : Fresh (.memory .empty)
  | files {path : String} {place : Place} {f : FileStore}
      (bare : place = .missing ∨ place = .folder .empty) (opened : FileStore.openAt path place = .ok f) :
      Fresh (.files f)

variable {s : Store} {listings listings' : Nat → Listing} {before later : List StoreCall} {id : Nat}
  {r : ExecutionRecord}

theorem Fresh.sound (fresh : s.Fresh) : s.Sound ∧ s.lastId = 0 := by
  cases fresh with
  | memory => exact ⟨MemoryStore.Made.empty.ordered, rfl⟩
  | @files path place f bare opened =>
    obtain ⟨f', opened', holds, last⟩ := FileStore.Holds.of_bare path bare
    obtain rfl : f = f' := Except.ok.inj (opened.symm.trans opened')
    exact ⟨⟨[], holds⟩, last⟩

/-- A record that was found ended is found unchanged from then on, and every update of it is refused, until
a prune takes it away as finished. After that its id is unknown, and stays so. -/
theorem ended_frozen (fresh : s.Fresh) (complete : ∀ n, (listings n).Complete)
    (complete' : ∀ n, (listings' n).Complete)
    (room : (before ++ later).countP StoreCall.creates < Text.idBound)
    (found : (s.after listings before).find? id = .ok (some r)) (ended : r.status.isTerminal = true) :
    let t := (s.after listings before).after listings' later
    (¬ r.PrunedBy later → t.find? id = .ok (some r) ∧
      ∀ u : ExecutionRecord, u.id = id →
        t.update u = (.error (.invalidTransition id r.status u.status), t)) ∧
    (r.PrunedBy later → t.find? id = .ok none ∧
      ∀ u : ExecutionRecord, u.id = id → t.update u = (.error (.executionNotFound id), t)) := by
  intro t
  obtain ⟨sound, unnumbered⟩ := fresh.sound
  rw [List.countP_append] at room
  obtain ⟨sound, count⟩ := sound.after before complete (by omega)
  have shown : t.find? id = .ok (if later.any (·.forgets r) then none else some r) := by
    have left := sound.find?_after later complete' (by omega) (sound.given found)
      (by simpa using ended) found
    rw [left, Option.filter_some]
    cases later.any (·.forgets r) <;> rfl
  rw [ExecutionRecord.prunedBy_iff ended]
  constructor
  · intro stays
    rw [if_neg stays] at shown
    refine ⟨shown, ?_⟩
    rintro u rfl
    exact update_ended shown ended
  · intro gone
    rw [if_pos gone] at shown
    refine ⟨shown, ?_⟩
    rintro u rfl
    exact update_absent shown

end Store

theorem FileStore.Mirrors.after {f : FileStore} {m : MemoryStore} (mirrors : f.Mirrors m)
    {listings : Nat → Listing} (complete : ∀ n, (listings n).Complete) {calls : List StoreCall}
    (storable : ∀ c ∈ calls, c.Storable)
    (room : m.lastId + calls.countP StoreCall.creates < Text.idBound) :
    ∃ f' m', (Store.files f).after listings calls = .files f' ∧
      (Store.memory m).after listings calls = .memory m' ∧ f'.Mirrors m' := by
  induction calls generalizing f m with
  | nil => exact ⟨f, m, rfl, rfl, mirrors⟩
  | cons c rest ih =>
    obtain ⟨here, later⟩ := List.forall_mem_cons.mp storable
    rw [List.countP_cons, Nat.add_comm (rest.countP _), ← Nat.add_assoc] at room
    obtain ⟨answer, f', m', ofFiles, ofMemory, same, last⟩ :=
      mirrors.serve (complete rest.length) here (Nat.lt_of_le_of_lt (Nat.le_add_right _ _) room)
    rw [Store.after, Store.after, ofFiles, ofMemory]
    exact ih same later (by rwa [last])

namespace Store

def skippedOnce : List StoreCall :=
  [.create dailyUpdate ⟨1700000000, 0⟩, .update shortRunSkipped]

theorem skippedOnce_found :
    ∃ f, FileStore.openAt "/data/executions" .missing = .ok f ∧
      ((Store.files f).after eitherWay skippedOnce).find? 1 = .ok (some shortRunSkipped) := by
  obtain ⟨f, opened, mirrors⟩ := FileStore.openAt_bare "/data/executions" (.inl rfl)
  have opening : StoreCall.Storable (.create dailyUpdate ⟨1700000000, 0⟩) := shortRun_storable
  have storable : ∀ c ∈ skippedOnce, c.Storable := by
    simp only [skippedOnce, List.forall_mem_cons]
    exact ⟨opening, shortRunSkipped_storable, by simp⟩
  obtain ⟨f', m, ofFiles, ofMemory, mirrors⟩ := mirrors.after eitherWay_complete storable (by decide)
  obtain rfl : { records := [shortRunSkipped], lastId := 1 } = m := Store.memory.inj ofMemory
  refine ⟨f, opened, ?_⟩
  rw [ofFiles]
  exact mirrors.find? 1

theorem shortRunSkipped_frozen :
    let early : List StoreCall := [.update (shortRun 1), .prune ⟨1700000060, 0⟩]
    let late : List StoreCall := [.prune ⟨1700000061, 0⟩, .create dailyUpdate ⟨1700000062, 0⟩]
    ∃ f, FileStore.openAt "/data/executions" .missing = .ok f ∧
      (((Store.files f).after eitherWay skippedOnce).after eitherWay early).find? 1 =
        .ok (some shortRunSkipped) ∧
      (((Store.files f).after eitherWay skippedOnce).after eitherWay late).find? 1 = .ok none := by
  intro early late
  obtain ⟨f, opened, found⟩ := skippedOnce_found
  have fresh : (Store.files f).Fresh := .files (.inl rfl) opened
  have stays : ¬ shortRunSkipped.PrunedBy early := by
    rw [ExecutionRecord.prunedBy_iff rfl]
    decide
  have gone : shortRunSkipped.PrunedBy late := by
    rw [ExecutionRecord.prunedBy_iff rfl]
    decide
  have room : (skippedOnce ++ early).countP StoreCall.creates < Text.idBound := by decide
  have room' : (skippedOnce ++ late).countP StoreCall.creates < Text.idBound := by decide
  have kept := ended_frozen fresh eitherWay_complete eitherWay_complete room found rfl
  have lost := ended_frozen fresh eitherWay_complete eitherWay_complete room' found rfl
  exact ⟨f, opened, (kept.1 stays).1, (lost.2 gone).1⟩

end Store

end FleetOps
