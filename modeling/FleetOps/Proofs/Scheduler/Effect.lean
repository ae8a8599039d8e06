import FleetOps.Proofs.Scheduler.Sound

set_option autoImplicit false

namespace FleetOps

open ExecutionRecord

structure StepEffect (o : Origin) (m m' : MemoryStore) (calls calls' : List JobContext)
    (run run' : Run) : Prop where
  ordered : m'.Ordered
  grown : m.lastId ≤ m'.lastId
  frame : ∀ id, run'.phase.id? ≠ some id → Kept o.prunes (m.find? id) (m'.find? id)
  lasting : ∀ id, run.phase.id? = some id → run'.phase.id? = some id
  fresh : ∀ id, run'.phase.id? = some id →
    run.phase.id? = some id ∨ id = m.lastId + 1 ∧ m'.lastId = m.lastId + 1
  begun : ∀ r, run.phase.begun? = some r → ∃ r', run'.phase.begun? = some r' ∧ r'.id = r.id
  called : calls' = calls ∨
    ∃ r, run.phase = .ready r ∧ run'.phase.begun? = some r ∧ calls' = calls ++ [run.context r]
  turned : run.phase = .arrived ∨ run'.phase.turned = run.phase.turned
  sound : run'.Sound o m' calls'

section
variable {o : Origin} {m m' : MemoryStore} {calls : List JobContext} {run run' : Run}
  {q r : ExecutionRecord} {new : NewExecution} {now : Instant}

theorem StepEffect.arrive (ordered : m.Ordered) (here : run.phase = .arrived)
    (after : run'.phase.record? = none) (sound : run'.Sound o m calls) :
    StepEffect o m m calls calls run run' where
  ordered := ordered
  grown := Nat.le_refl _
  frame := fun _ _ => .refl _
  lasting := by simp [here, Phase.id?, Phase.record?]
  fresh := by simp [after, Phase.id?]
  begun := by simp [here, Phase.begun?]
  called := .inl rfl
  turned := .inl here
  sound := sound

theorem StepEffect.create (ordered : m.Ordered)
    (before : run.phase.record? = none ∧ run.phase.begun? = none)
    (after : run'.phase.record? = some r) (id : r.id = m.lastId + 1)
    (turned : run'.phase.turned = run.phase.turned)
    (sound : run'.Sound o (m.create new now).2 calls) :
    StepEffect o m (m.create new now).2 calls calls run run' where
  ordered := ordered.create new now
  grown := Nat.le_succ _
  frame := by
    intro id' other
    have apart : id' ≠ m.lastId + 1 := by
      rintro rfl
      exact other (by simp [Phase.id?, after, id])
    rw [MemoryStore.find?_create, if_neg apart]
    exact .refl _
  lasting := by simp [before.1, Phase.id?]
  fresh := by
    intro id' own
    exact .inr ⟨by simpa [Phase.id?, after, id, eq_comm] using own, rfl⟩
  begun := by simp [before.2]
  called := .inl rfl
  turned := .inr turned
  sound := sound

theorem StepEffect.write (ordered : m.Ordered) (found : m.find? r.id = some q)
    (before : run.phase.record? = some r) (after : run'.phase.record? = some r)
    (begun : ∀ r', run.phase.begun? = some r' → run'.phase.begun? = some r')
    (turned : run'.phase.turned = run.phase.turned) (sound : run'.Sound o (m.insert r) calls) :
    StepEffect o m (m.insert r) calls calls run run' where
  ordered := ordered.insert (ordered.find?_given found)
  grown := Nat.le_refl _
  frame := by
    intro id other
    have apart : id ≠ r.id := by
      rintro rfl
      exact other (by simp [Phase.id?, after])
    rw [MemoryStore.find?_insert, if_neg apart]
    exact .refl _
  lasting := by simp [Phase.id?, before, after]
  fresh := by
    intro id own
    exact .inl (by simpa [Phase.id?, before, after] using own)
  begun := fun r' h => ⟨r', begun r' h, rfl⟩
  called := .inl rfl
  turned := .inr turned
  sound := sound

theorem StepEffect.goOn (ordered : m'.Ordered) (last : m'.lastId = m.lastId)
    (kept : ∀ id, Kept o.prunes (m.find? id) (m'.find? id))
    (same : run'.phase.id? = run.phase.id?)
    (begun : ∀ r', run.phase.begun? = some r' → ∃ r'', run'.phase.begun? = some r'' ∧ r''.id = r'.id)
    (turned : run'.phase.turned = run.phase.turned) (sound : run'.Sound o m' calls) :
    StepEffect o m m' calls calls run run' where
  ordered := ordered
  grown := Nat.le_of_eq last.symm
  frame := fun id _ => kept id
  lasting := fun _ own => same.trans own
  fresh := fun _ own => .inl (same.symm.trans own)
  begun := begun
  called := .inl rfl
  turned := .inr turned
  sound := sound

end

namespace Scheduler

variable {o : Origin} {s s' : Scheduler} {m : MemoryStore} {calls : List JobContext} {run run' : Run}

theorem update_due {r : ExecutionRecord} {next : Phase} (store : s.store = .memory m)
    (spared : s.faults.SparesStore) (sound : run.Sound o m calls) (due : run.phase.Writes r next) :
    ∃ s' q, s.update r = (.ok (), s') ∧ s'.store = .memory (m.insert r) ∧ s'.invoked = s.invoked ∧
      m.find? r.id = some q := by
  obtain ⟨q, found, going⟩ : ∃ q, m.find? r.id = some q ∧ q.status.isTerminal = false := by
    unfold Run.Sound at sound
    generalize run.phase = phase at due sound
    cases due with
    | skipped =>
      obtain ⟨-, -, q, found, queued⟩ := sound
      exact ⟨q, found, by rw [queued]; rfl⟩
    | started =>
      obtain ⟨-, -, -, q, found, queued⟩ := sound
      exact ⟨q, found, by rw [queued]; rfl⟩
    | ended =>
      obtain ⟨-, q, found, running, -⟩ := sound
      exact ⟨q, found, by rw [running]; rfl⟩
  obtain ⟨s', updates, updated⟩ :=
    update_memory store spared (MemoryStore.update_eq_ok.mpr ⟨q, found, going, rfl⟩)
  exact ⟨s', q, updates, updated, by simpa [updates] using (s.update_frame r).invoked, found⟩

theorem Steps.effect (steps : s.Steps run run' s') (store : s.store = .memory m)
    (ordered : m.Ordered) (spared : s.faults.SparesStore) (bodies : s.bodies = o.bodies)
    (invoked : s.invoked = o.invoked ++ calls) (prunes : run.prunes = true → o.prunes)
    (sound : run.Sound o m calls) :
    ∃ m' calls', s'.store = .memory m' ∧ s'.invoked = o.invoked ++ calls' ∧
      StepEffect o m m' calls calls' run run' := by
  obtain ⟨s₁, creates, created⟩ := create_memory store spared run.new
  have unmoved : s₁.invoked = o.invoked ++ calls := by
    simpa [creates, invoked] using (s.create_frame run.new).invoked
  have fresh : (m.create run.new s.clock.now).2.find? (m.lastId + 1) =
      some (m.create run.new s.clock.now).1 := by simp [MemoryStore.find?_create]
  have writes {r : ExecutionRecord} {next : Phase} (due : run.phase.Writes r next) :=
    update_due store spared sound due
  unfold Run.Sound at sound
  cases steps with
  | enter here free => exact ⟨m, calls, store, invoked, .arrive ordered here rfl trivial⟩
  | turnAway here held => exact ⟨m, calls, store, invoked, .arrive ordered here rfl trivial⟩
  | unexcused here call => simp [creates] at call
  | unbegun here call => simp [creates] at call
  | @excuse q s' here call =>
    obtain ⟨rfl, rfl⟩ : q = _ ∧ s' = s₁ := by simpa [creates, eq_comm] using call
    rw [skip_of alreadyRunning rfl]
    refine ⟨_, calls, created, unmoved, .create ordered (by simp [here, Phase.record?, Phase.begun?])
      rfl rfl (by rw [here]; rfl) ?_⟩
    exact ⟨rfl, ⟨rfl, rfl, rfl⟩, _, fresh, rfl⟩
  | @begin q s' here call =>
    obtain ⟨rfl, rfl⟩ : q = _ ∧ s' = s₁ := by simpa [creates, eq_comm] using call
    rw [start_of rfl]
    refine ⟨_, calls, created, unmoved, .create ordered (by simp [here, Phase.record?, Phase.begun?])
      rfl rfl (by rw [here]; rfl) ?_⟩
    exact ⟨rfl, rfl, rfl, _, fresh, rfl⟩
  | @write r next s' due call =>
    obtain ⟨s₂, q, updates, updated, same, found⟩ := writes due
    obtain rfl : s' = s₂ := by simpa [updates, eq_comm] using call
    generalize here : run.phase = phase at due sound
    cases due with
    | skipped r =>
      obtain ⟨purpose, busy, -⟩ := sound
      refine ⟨_, calls, updated, same.trans invoked, .write ordered found (by rw [here]; rfl) rfl
        (by simp [here, Phase.begun?]) ?_ ?_⟩
      · simp [here, Run.at, Phase.turned, busy.unstarted]
      · exact ⟨.inr ⟨purpose, busy⟩, .inl (by simp [MemoryStore.find?_insert])⟩
    | started r =>
      obtain ⟨purpose, started, running, -⟩ := sound
      refine ⟨_, calls, updated, same.trans invoked, .write ordered found (by rw [here]; rfl) rfl
        (by simp [here, Phase.begun?]) (by rw [here]; rfl) ?_⟩
      exact ⟨purpose, started, running, by simp [MemoryStore.find?_insert]⟩
    | ended r =>
      refine ⟨_, calls, updated, same.trans invoked, .write ordered found (by rw [here]; rfl) rfl
        (by simp [here, Phase.begun?, Run.at]) (by rw [here]; rfl) ?_⟩
      exact ⟨sound.1.at _, .inl (by simp [MemoryStore.find?_insert])⟩
  | refused due call =>
    obtain ⟨next, due⟩ := due.due
    obtain ⟨s₂, q, updates, -⟩ := writes due
    simp [updates] at call
  | excuseAgain here => simp [here] at sound
  | giveUp here failed => simp [here] at sound
  | abandon here failed => simp [here] at sound
  | @invoke r here =>
    simp only [here] at sound
    obtain ⟨purpose, started, running, found⟩ := sound
    have own : run.phase.id? = some r.id := by rw [here]; rfl
    refine ⟨m, calls ++ [run.context r], store, by simp [Scheduler.invoke, invoked], ordered,
      Nat.le_refl _, fun _ _ => .refl _, fun id same => own.symm.trans same ▸ rfl, ?_,
      by simp [here, Phase.begun?], .inr ⟨r, here, rfl, rfl⟩, .inr (by rw [here]; rfl), ?_⟩
    · intro id same
      exact .inl (own.trans same)
    · refine ⟨purpose, started, running, found, calls, [], rfl, ?_⟩
      simp only [← bodies, ← invoked]
      rfl
  | @work r body here =>
    simp only [here] at sound
    obtain ⟨purpose, started, running, found, called⟩ := sound
    obtain ⟨r', concluded, id, purpose', started', reports⟩ :=
      conclude_running (s.perform body.work).2.clock.now (s.perform body.work).1 running
    rw [concluded]
    have calls' : (s.perform body.work).2.invoked = o.invoked ++ calls :=
      (s.perform_frame body.work).invoked.trans invoked
    have same : (run.at (.ending r')).phase.id? = run.phase.id? := by
      simp [here, Run.at, Phase.id?, Phase.record?, id]
    have begun : ∀ q, run.phase.begun? = some q →
        ∃ q', (run.at (.ending r')).phase.begun? = some q' ∧ q'.id = q.id := by
      intro q own
      obtain rfl : r = q := by simpa [here, Phase.begun?] using own
      exact ⟨r', rfl, id⟩
    have ends : body.work = .ends (s.perform body.work).1 ∨ o.prunes ∧ ∃ days, body.work = .prunes days := by
      cases work : body.work with
      | ends e => exact .inl rfl
      | prunes days => exact .inr ⟨prunes (by simp [Run.prunes, here, work]), days, rfl⟩
    have served : run.Served o calls r' :=
      .ofEnd (purpose'.trans purpose) (started' ▸ started) id called reports ends
    obtain kept | ⟨days, cutoff, work, pruned⟩ := perform_memory store body.work
    · refine ⟨m, calls, kept, calls', .goOn ordered rfl (fun _ => .refl _) same begun
        (by rw [here]; rfl) ?_⟩
      exact ⟨served.at _, r, id ▸ found, running, purpose⟩
    · have may : o.prunes := prunes (by simp [Run.prunes, here, work])
      refine ⟨_, calls, pruned, calls', .goOn (ordered.prune cutoff) rfl (ordered.kept_prune may cutoff)
        same begun (by rw [here]; rfl) ?_⟩
      have lasts := (found ▸ ordered.kept_prune may cutoff r.id).open (by rw [running]; rfl)
      exact ⟨served.at _, r, id ▸ lasts, running, purpose⟩
  | @release answer here =>
    cases answer with
    | error e => simp [here] at sound
    | ok r =>
      simp only [here] at sound
      have started := sound.1.started
      refine ⟨m, calls, store, invoked, .goOn ordered rfl (fun _ => .refl _) (by rw [here]; rfl) ?_ ?_ ?_⟩
      · intro q own
        obtain rfl : r = q := by simpa [here, Phase.begun?] using own
        exact ⟨r, by simp [Run.at, Phase.begun?, started], rfl⟩
      · cases at? : r.startedAt <;> simp_all [Run.at, Phase.turned]
      · exact ⟨.inl (sound.1.at _), sound.2⟩
  | @rest answer here =>
    cases answer with
    | error e => simp [here] at sound
    | ok r =>
      refine ⟨m, calls, store, invoked, .goOn ordered rfl (fun _ => .refl _) rfl ?_ rfl ?_⟩
      · exact fun q own => ⟨q, own, rfl⟩
      · simpa [Run.Sound, here] using sound

end Scheduler

end FleetOps
