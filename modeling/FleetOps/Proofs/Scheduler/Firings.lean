import FleetOps.Proofs.Instant
import FleetOps.Scheduler.Timer

set_option autoImplicit false

namespace FleetOps

def NextInstant.Advances (next : NextInstant) : Prop :=
  ∀ ⦃schedule after t⦄, next schedule after = some t → after.before t = true

namespace Cron.Schedule

variable {s : Schedule}

theorem le_timeFrom {start time : Nat} (found : s.timeFrom start = some time) : start ≤ time := by
  unfold timeFrom at found
  obtain ⟨h, -, found⟩ := List.exists_of_findSome?_eq_some found
  split at found
  · contradiction
  · obtain ⟨m, -, found⟩ := List.exists_of_findSome?_eq_some found
    split at found
    · contradiction
    · obtain ⟨x, seconds, rfl⟩ := Option.map_eq_some_iff.mp found
      simpa using List.find?_some seconds

theorem le_dayFrom {fuel : Nat} {day d : Int} (found : s.dayFrom fuel day = some d) : day ≤ d := by
  induction fuel generalizing day with
  | zero => contradiction
  | succ fuel ih =>
    unfold dayFrom at found
    split at found
    · exact Int.le_of_eq (Option.some.inj found)
    · have further := ih found
      omega

theorem le_secondFrom {start t : Int} (found : s.secondFrom start = some t) : start ≤ t := by
  have parts : Int.fdiv start 86400 * 86400 + Int.fmod start 86400 = start := by
    rw [Int.mul_comm]
    exact Int.mul_fdiv_add_fmod start 86400
  have small : 0 ≤ Int.fmod start 86400 ∧ Int.fmod start 86400 < 86400 :=
    ⟨Int.fmod_nonneg_of_pos start (by decide), Int.fmod_lt_of_pos start (by decide)⟩
  unfold secondFrom at found
  dsimp only at found
  split at found
  · next time today =>
    have later : (Int.fmod start 86400).toNat ≤ time := by
      split at today
      · exact le_timeFrom today
      · contradiction
    have last := Option.some.inj found
    omega
  · simp only [Option.bind_eq_bind, Option.bind_eq_some_iff] at found
    obtain ⟨day, later, time, -, last⟩ := found
    have := le_dayFrom later
    have := Option.some.inj last
    omega

theorem nextAfter_advances : NextInstant.Advances nextAfter := by
  intro s after t found
  obtain ⟨t, second, rfl⟩ := Option.map_eq_some_iff.mp found
  have later := le_secondFrom second
  rw [Instant.before_iff]
  dsimp only
  omega

end Cron.Schedule

structure Waking where
  woken : Instant
  clock : Clock

/-- The firing is for the instant that follows `after`, which is slept for from the reading of the clocks
on, if it is still to come. -/
structure Firing.Planned (f : Firing) (next : NextInstant) (schedule : Cron.Schedule) (after : Instant)
    (clock : Clock) : Prop where
  next : next schedule after = some f.instant
  later : after.before f.instant = true
  sleep : (f.due : Int) = clock.elapsed +
    Max.max 0 ((f.instant.seconds - clock.now.seconds) * 1000000000 + (f.instant.nanos - clock.now.nanos))
  sleeps : clock.elapsed ≤ f.due

namespace Timer

def wake (next : NextInstant) (t : Timer) (w : Waking) : Timer :=
  match t.pending with
  | none => t
  | some f => t.refire next f w.woken w.clock

def firings (next : NextInstant) (t : Timer) : List Waking → List Firing
  | [] => []
  | w :: rest => t.pending.toList ++ (t.wake next w).firings next rest

abbrev firingsPast (next : NextInstant) (schedule : Cron.Schedule) (after : Instant) (clock : Clock)
    (ws : List Waking) : List Firing :=
  (plan next schedule after clock).firings next ws

variable {next : NextInstant} {schedule : Cron.Schedule} {after : Instant} {clock : Clock} {ws : List Waking}
  {f g : Firing}

theorem planned (advances : next.Advances) (due : (plan next schedule after clock).pending = some f) :
    f.Planned next schedule after clock := by
  obtain ⟨t, found, rfl⟩ := Option.map_eq_some_iff.mp due
  refine ⟨found, advances found, ?_, Nat.le_add_right _ _⟩
  simp only [Instant.until]
  omega

theorem firings_of_ended {t : Timer} (ended : t.pending = none) (ws : List Waking) : t.firings next ws = [] := by
  induction ws with
  | nil => rfl
  | cons w rest ih => simpa [firings, wake, ended] using ih

theorem firings_of_due (due : (plan next schedule after clock).pending = some f) (w : Waking) (ws : List Waking) :
    firingsPast next schedule after clock (w :: ws) =
      f :: firingsPast next schedule (f.instant.max w.woken) w.clock ws := by
  simp only [firings, wake, due]
  rfl

theorem firings_head (advances : next.Advances) (ws : List Waking) :
    ∀ f ∈ (firingsPast next schedule after clock ws).head?, f.Planned next schedule after clock := by
  cases ws with
  | nil => simp [firings]
  | cons w rest =>
    cases due : (plan next schedule after clock).pending with
    | none => simp [firings_of_ended due]
    | some f => simpa [firings_of_due due] using planned advances due

theorem firings_later (advances : next.Advances) (ws : List Waking) :
    ∀ f ∈ firingsPast next schedule after clock ws, after.before f.instant = true := by
  induction ws generalizing after clock with
  | nil => simp [firings]
  | cons w rest ih =>
    cases due : (plan next schedule after clock).pending with
    | none => simp [firings_of_ended due]
    | some f =>
      have later := (planned advances due).later
      rw [firings_of_due due]
      intro g mem
      rcases List.mem_cons.mp mem with rfl | mem
      · exact later
      · exact Instant.before_trans later (Instant.max_before_iff.mp (ih g mem)).1

theorem firings_pairwise (advances : next.Advances) (ws : List Waking) :
    (after :: (firingsPast next schedule after clock ws).map (·.instant)).Pairwise (·.before · = true) := by
  induction ws generalizing after clock with
  | nil => simp [firings]
  | cons w rest ih =>
    refine List.pairwise_cons.mpr ⟨?_, ?_⟩
    · simpa using firings_later advances (w :: rest)
    · cases due : (plan next schedule after clock).pending with
      | none => simp [firings_of_ended due]
      | some f =>
        have further := List.pairwise_cons.mp (@ih (f.instant.max w.woken) w.clock)
        rw [firings_of_due due, List.map_cons]
        refine List.pairwise_cons.mpr ⟨fun t mem => ?_, further.2⟩
        exact (Instant.max_before_iff.mp (further.1 t mem)).1

theorem firings_planned (advances : next.Advances) {n : Nat}
    (fired : (firingsPast next schedule after clock ws)[n]? = some f)
    (followed : (firingsPast next schedule after clock ws)[n + 1]? = some g) :
    ∃ w, ws[n]? = some w ∧ g.Planned next schedule (f.instant.max w.woken) w.clock := by
  induction ws generalizing after clock n with
  | nil => contradiction
  | cons v rest ih =>
    cases due : (plan next schedule after clock).pending with
    | none => simp [firings_of_ended due] at fired
    | some e =>
      rw [firings_of_due due] at fired followed
      cases n with
      | succ n => exact ih fired followed
      | zero =>
        obtain rfl := Option.some.inj fired
        refine ⟨v, rfl, firings_head advances rest g ?_⟩
        simpa [List.head?_eq_getElem?] using followed

-- It ends only when nothing follows all that it looked behind.
theorem firings_ended (advances : next.Advances)
    (short : (firingsPast next schedule after clock ws).length < ws.length) :
    ∃ last, next schedule last = none ∧ after.atMost last = true ∧
      ∀ f ∈ firingsPast next schedule after clock ws, f.instant.atMost last = true := by
  induction ws generalizing after clock with
  | nil => contradiction
  | cons w rest ih =>
    cases due : (plan next schedule after clock).pending with
    | none =>
      refine ⟨after, by simpa [plan] using due, ?_, by simp [firings_of_ended due]⟩
      exact Instant.atMost_iff.mpr (.inl rfl)
    | some f =>
      rw [firings_of_due due] at short ⊢
      obtain ⟨last, exhausted, behind, others⟩ := ih (Nat.lt_of_succ_lt_succ short)
      have own : f.instant.atMost last = true := (Instant.max_atMost_iff.mp behind).1
      have first : after.atMost last = true := by
        have later := (planned advances due).later
        rw [Instant.atMost_iff, Instant.eq_iff, Instant.before_iff] at *
        omega
      exact ⟨last, exhausted, first, List.forall_mem_cons.mpr ⟨own, others⟩⟩

/-- What the firings keep to, from the reading at which the timer starts on. -/
structure Increases (next : NextInstant) (schedule : Cron.Schedule) (read : Instant) (clock : Clock)
    (ws : List Waking) (fired : List Firing) : Prop where
  increase : (read :: fired.map (·.instant)).Pairwise (·.before · = true)
  first : ∀ f ∈ fired.head?, f.Planned next schedule read clock
  following : ∀ n f g, fired[n]? = some f → fired[n + 1]? = some g → ∃ w, ws[n]? = some w ∧
    g.Planned next schedule (f.instant.max w.woken) w.clock ∧ w.woken.before g.instant = true
  ended : fired.length < ws.length → ∃ last, next schedule last = none ∧ read.atMost last = true ∧
    ∀ f ∈ fired, f.instant.atMost last = true

theorem increases_of_advances (advances : next.Advances) (schedule : Cron.Schedule) (read : Instant)
    (clock : Clock) (ws : List Waking) :
    Increases next schedule read clock ws (firingsPast next schedule read clock ws) where
  increase := firings_pairwise advances ws
  first := firings_head advances ws
  following := by
    intro n f g fired followed
    obtain ⟨w, woke, planned⟩ := firings_planned advances fired followed
    exact ⟨w, woke, planned, (Instant.max_before_iff.mp planned.later).2⟩
  ended := firings_ended advances

theorem firings_increase (schedule : Cron.Schedule) (read : Instant) (clock : Clock) (ws : List Waking) :
    Increases Cron.Schedule.nextAfter schedule read clock ws
      ((plan Cron.Schedule.nextAfter schedule read clock).firings Cron.Schedule.nextAfter ws) :=
  increases_of_advances Cron.Schedule.nextAfter_advances schedule read clock ws

-- After the first firing the clock reads an earlier time than before it, and after the second it leaps.
example :
    (Cron.parse "* * * * *").toOption.map (fun schedule =>
      (firingsPast Cron.Schedule.nextAfter schedule ⟨30, 0⟩ { now := ⟨31, 0⟩ }
        [⟨⟨0, 0⟩, ⟨⟨1, 0⟩, 5⟩⟩, ⟨⟨200, 0⟩, ⟨⟨200, 0⟩, 60⟩⟩, ⟨⟨3, 0⟩, ⟨⟨4, 0⟩, 70⟩⟩]).map (·.instant)) =
      some [⟨60, 0⟩, ⟨120, 0⟩, ⟨240, 0⟩] := by
  decide +kernel

end Timer

end FleetOps
