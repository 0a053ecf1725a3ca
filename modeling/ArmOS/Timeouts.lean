import ArmOS.Sleepers
import Mathlib

/-!
Timed waits. The kernel's counter is the low 32 bits of the ticks since the start;
every wait adds its ticks to it and compares unsigned, and a wake-up time of `0` is
none. Described is a wait that nothing else ends, with a scan at every tick.
-/
namespace ArmOS.Timeouts
open Nat List
open Sleepers (passed)
open Bool (and_eq_true)

def TIMER_FREQ : Nat := 1000
def SCHED_ALARM_BATCH : Nat := 16
def counter (t : Nat) : Nat := t % 2 ^ 32

/-- `get_system_ticks() + ticks` in a 32-bit word. -/
def deadline (start ticks : Nat) : Nat := (counter start + ticks) % 2 ^ 32

/-! ### From durations to ticks -/

/-- `(ms * TIMER_FREQ + 999) / 1000` in 32-bit words. -/
def scaled (ms : Nat) : Nat := (ms * TIMER_FREQ + 999) % 2 ^ 32 / 1000
def task_sleep_ticks (ms : Nat) : Nat := if scaled ms = 0 then 1 else scaled ms

def duration_to_ticks (sec nsec : Nat) : Nat :=
  let nsec_ticks := (nsec + 999999) % 2 ^ 32 / 1000000
  let sec_ticks := sec % 2 ^ 32 * TIMER_FREQ % 2 ^ 32
  if (2 ^ 32 - 1) / TIMER_FREQ < sec then 2 ^ 32 - 1
  else if 2 ^ 32 - 1 - nsec_ticks < sec_ticks then 2 ^ 32 - 1
  else sec_ticks + nsec_ticks

/-- The ticks of `futex_timeout_deadline`, uncorrected. -/
def futex_ticks (sec nsec : Nat) : Nat :=
  let max_ticks := 2 ^ 31 - 1
  let subsecond_ticks := (nsec + 1000000000 / TIMER_FREQ - 1) % 2 ^ 32 / (1000000000 / TIMER_FREQ)
  if max_ticks / TIMER_FREQ < sec then max_ticks
  else if max_ticks - sec * TIMER_FREQ < subsecond_ticks then max_ticks
  else sec * TIMER_FREQ + subsecond_ticks

def futex_timeout_ticks (sec nsec : Nat) : Nat := if futex_ticks sec nsec = 0 then 1 else futex_ticks sec nsec
def alarm_ticks (seconds : Nat) : Nat := seconds * TIMER_FREQ % 2 ^ 32

/-- The milliseconds of a `select`, in a 32-bit word. -/
def select_ms (sec usec : Nat) : Nat := (sec * 1000 % 2 ^ 32 + (usec + 999) / 1000) % 2 ^ 32

/-! ### The waits -/

/-- `scheduler_scan_waiters` makes a sleeping task ready. -/
def due (wakeup_time t : Nat) : Bool := 0 < wakeup_time && wakeup_time ≤ counter t

/-- Alarms due before, and the deadlines of timers. -/
structure Surroundings where
  due_before : Nat → Nat
  timers : Nat → List Nat
  words : ∀ t, ∀ timer ∈ timers t, timer < 2 ^ 32

/-- The same without timers. -/
def Surroundings.untimed (e : Surroundings) : Surroundings := ⟨e.due_before,fun _ => [],fun _ _ inside => by cases inside⟩

variable (e : Surroundings)

/-- `SIGALRM` is sent at the first scan, unless its batch is full. -/
def alarm_fires (start alarm_expire_tick k : Nat) : Bool :=
  alarm_expire_tick ≤ counter (start + k) &&
    (List.range k).all (fun j => counter (start + j) < alarm_expire_tick) &&
    e.due_before (start + k) < SCHED_ALARM_BATCH

/-- A `poll` or `select` in its loop, asleep, or at its end. -/
inductive Phase
  | looping
  | sleeping (wakeup_time : Nat)
  | expired
  deriving DecidableEq, Repr

/-- `poll` waits for the earliest deadline. -/
def wait_deadline (deadline : Nat) (timers : List Nat) : Nat :=
  timers.foldl (fun wait_deadline timer =>
    if wait_deadline = 0 || !passed timer wait_deadline then timer else wait_deadline) deadline

/-- A turn of the loop: a passed deadline returns at once. -/
def loop_turn (deadline t : Nat) : Phase :=
  let wait := wait_deadline deadline (e.timers t)
  if deadline ≤ counter t then .expired
  else if wait ≠ 0 && passed (counter t) wait then .looping
  else .sleeping wait

def turn (deadline t : Nat) : Phase → Phase
  | .looping => loop_turn e deadline t
  | .sleeping wakeup_time => if due wakeup_time t then loop_turn e deadline t else .sleeping wakeup_time
  | .expired => .expired

/-- The phase at the end of the `k`-th tick after the start. -/
def phase (start deadline : Nat) : Nat → Phase
  | 0 => turn e deadline start .looping
  | k + 1 => turn e deadline (start + k + 1) (phase start deadline k)

inductive Request
  | task_sleep_ms (ms : Nat)
  | nanosleep (sec nsec : Nat)
  | futex (sec nsec : Nat)
  | alarm (seconds : Nat)
  | poll (timeout_ms : Nat)
  | select (sec usec : Nat)

/-- Requests of finite duration; an alarm of 0 is none. -/
def accepted : Request → Prop
  | .task_sleep_ms ms => ms < 2 ^ 32
  | .nanosleep sec nsec => sec < 2 ^ 63 ∧ nsec < 1000000000
  | .futex sec nsec => sec < 2 ^ 63 ∧ nsec < 1000000000
  | .alarm seconds => 0 < seconds ∧ seconds < 2 ^ 32
  | .poll timeout_ms => timeout_ms < 2 ^ 31
  | .select sec usec => sec < 2 ^ 32 ∧ usec < 1000000

def requested : Request → Nat
  | .task_sleep_ms ms => ms
  | .nanosleep sec nsec => sec * 1000 + (nsec + 999999) / 1000000
  | .futex sec nsec => sec * 1000 + (nsec + 999999) / 1000000
  | .alarm seconds => seconds * 1000
  | .poll timeout_ms => timeout_ms
  | .select sec usec => sec * 1000 + (usec + 999) / 1000

/-- The wait that starts at a time is over `k` ticks later. -/
def ended (start : Nat) (r : Request) (k : Nat) : Bool :=
  match r with
  | .task_sleep_ms ms => ms = 0 || due (deadline start (task_sleep_ticks ms)) (start + k)
  | .nanosleep sec nsec =>
    duration_to_ticks sec nsec = 0 || due (deadline start (duration_to_ticks sec nsec)) (start + k)
  | .futex sec nsec => due (deadline start (futex_timeout_ticks sec nsec)) (start + k)
  | .alarm seconds => alarm_fires e start (deadline start (alarm_ticks seconds)) k
  | .poll timeout_ms => timeout_ms = 0 || phase e start (deadline start (scaled timeout_ms)) k = .expired
  | .select sec usec =>
    select_ms sec usec = 0 ||
      phase e.untimed start (deadline start (scaled (select_ms sec usec))) k = .expired

/-- A wait ends, and not before its ticks have passed. -/
structure Timely (ticks : Nat) (ended : Nat → Bool) : Prop where
  expires : ∃ k, ended k = true
  not_early : ∀ k, ended k = true → ticks ≤ k

/-- The deadline is before the next zero, nothing is lost, batch and timers allow it. -/
def fits (start : Nat) (r : Request) : Prop :=
  match r with
  | .task_sleep_ms ms => ms = 0 ∨ (ms * 1000 + 999 < 2 ^ 32 ∧ counter start + ms < 2 ^ 32)
  | .nanosleep sec nsec => requested (.nanosleep sec nsec) = 0 ∨ counter start + requested (.nanosleep sec nsec) < 2 ^ 32
  | .futex sec nsec =>
    requested (.futex sec nsec) < 2 ^ 31 ∧ counter start + max 1 (requested (.futex sec nsec)) < 2 ^ 32
  | .alarm seconds => counter start + seconds * 1000 < 2 ^ 32 ∧ e.due_before (start + seconds * 1000) < SCHED_ALARM_BATCH
  | .poll ms =>
    ms = 0 ∨ (ms * 1000 + 999 < 2 ^ 32 ∧ counter start + ms < 2 ^ 32 ∧
      ∀ k < ms, wait_deadline (deadline start ms) (e.timers (start + k)) ≠ 0)
  | .select sec usec =>
    requested (.select sec usec) = 0 ∨
      (requested (.select sec usec) * 1000 + 999 < 2 ^ 32 ∧ counter start + requested (.select sec usec) < 2 ^ 32)

variable {e} {start ticks n k : Nat}

/-! ### Words -/

theorem deadline_fits (small : counter start + n < 2 ^ 32) : deadline start n = counter start + n :=
  mod_eq_of_lt small
theorem deadline_wraps (bound : n < 2 ^ 32) (large : 2 ^ 32 ≤ counter start + n) :
    deadline start n < counter start := by
  unfold deadline counter at *
  omega

/-- Before the zero of the counter, words are in order. -/
theorem counter_le_iff (small : counter start + n < 2 ^ 32) (inside : k ≤ n) :
    counter start + n ≤ counter (start + k) ↔ k = n := by
  unfold counter at *
  omega

theorem counter_reached (small : counter start + n < 2 ^ 32) (reached : counter start + n ≤ counter (start + k)) :
    n ≤ k := by
  by_contra early
  have last := (counter_le_iff small (by omega : k ≤ n)).mp reached
  omega

variable {ms sec nsec : Nat} {before : Phase}

theorem scaled_of_small (small : ms * 1000 + 999 < 2 ^ 32) : scaled ms = ms := by
  unfold scaled TIMER_FREQ
  rw [mod_eq_of_lt small]
  omega
theorem scaled_lt_of_large (large : 2 ^ 32 ≤ ms * 1000 + 999) : scaled ms < ms := by
  -- something is lost, so the rest is below the whole
  grind [scaled,TIMER_FREQ]
theorem scaled_lt (ms : Nat) : scaled ms < 2 ^ 32 := by
  have bound : (ms * TIMER_FREQ + 999) % 2 ^ 32 < 2 ^ 32 := Nat.mod_lt _ (Nat.two_pow_pos 32)
  unfold scaled
  omega

/-! ### Sleeping until a deadline -/

/-- A sleep of `n` ticks is timely for `ticks` exactly where these are no more and no zero
    is passed. -/
theorem sleep_timely_iff (positive : 0 < n) (bound : n < 2 ^ 32) (asked : 0 < ticks ∨ n = 1) :
    Timely ticks (fun k => due (deadline start n) (start + k)) ↔ ticks ≤ n ∧ counter start + n < 2 ^ 32 := by
  constructor
  · rintro ⟨⟨k,over_at⟩,not_early⟩
    have small : counter start + n < 2 ^ 32 := by
      by_contra large
      have wraps : deadline start n < counter start := deadline_wraps bound (by omega)
      simp only [due,and_eq_true,decide_eq_true_eq] at over_at not_early
      have first := not_early 0 ⟨over_at.1,by rw [add_zero]; exact wraps.le⟩
      -- a wait for one tick passes the zero only with the deadline `0`
      have zero : n = 1 → deadline start n = 0 := by
        unfold deadline counter at *
        omega
      omega
    refine ⟨?_,small⟩
    apply not_early n
    simp only [due,and_eq_true,decide_eq_true_eq]
    rw [deadline_fits small]
    exact ⟨by omega,(counter_le_iff small le_rfl).mpr rfl⟩
  rintro ⟨enough,small⟩
  refine ⟨⟨n,?_⟩,fun k over_at => ?_⟩
  · simp only [due,and_eq_true,decide_eq_true_eq]
    rw [deadline_fits small]
    exact ⟨by omega,(counter_le_iff small le_rfl).mpr rfl⟩
  simp only [due,and_eq_true,decide_eq_true_eq] at over_at
  rw [deadline_fits small] at over_at
  exact enough.trans (counter_reached small over_at.2)

/-! ### Alarms -/

/-- An alarm fires after `n` ticks, or at once past the zero. -/
theorem alarm_fires_iff (small : counter start + n < 2 ^ 32) :
    alarm_fires e start (deadline start n) k = true ↔ k = n ∧ e.due_before (start + n) < SCHED_ALARM_BATCH := by
  simp only [alarm_fires,and_eq_true,decide_eq_true_eq,all_eq_true,mem_range]
  rw [deadline_fits small]
  constructor
  · rintro ⟨⟨reached,before⟩,room⟩
    have late := counter_reached small reached
    have same : k = n := by
      by_contra other
      have open_at := before n (by omega)
      have shut := (counter_le_iff small le_rfl).mpr rfl
      omega
    subst same
    exact ⟨rfl,room⟩
  rintro ⟨rfl,room⟩
  refine ⟨⟨(counter_le_iff small le_rfl).mpr rfl,fun j earlier => ?_⟩,room⟩
  by_contra reached
  have late := counter_reached small (by omega : counter start + k ≤ counter (start + j))
  omega

theorem alarm_fires_wrapped (bound : n < 2 ^ 32) (large : 2 ^ 32 ≤ counter start + n)
    (fires : alarm_fires e start (deadline start n) k = true) : k = 0 := by
  have wraps := deadline_wraps bound large
  simp only [alarm_fires,and_eq_true,decide_eq_true_eq,all_eq_true,mem_range] at fires
  by_contra later
  have first := fires.1.2 0 (by omega)
  rw [add_zero] at first
  omega

theorem alarm_timely_iff {seconds : Nat} (positive : 0 < seconds) :
    Timely (seconds * 1000) (fun k => alarm_fires e start (deadline start (alarm_ticks seconds)) k) ↔
      counter start + seconds * 1000 < 2 ^ 32 ∧ e.due_before (start + seconds * 1000) < SCHED_ALARM_BATCH := by
  have bound : alarm_ticks seconds < 2 ^ 32 := Nat.mod_lt _ (Nat.two_pow_pos 32)
  constructor
  · rintro ⟨⟨k,fires⟩,not_early⟩
    have late := not_early k fires
    by_cases small : counter start + alarm_ticks seconds < 2 ^ 32
    · obtain ⟨rfl,room⟩ := (alarm_fires_iff small).mp fires
      -- the ticks in a word are not fewer than the seconds have, so they are those
      grind [TIMER_FREQ,alarm_ticks]
    have first := alarm_fires_wrapped bound (by omega) fires
    omega
  rintro ⟨small,room⟩
  have same : alarm_ticks seconds = seconds * 1000 := by
    unfold alarm_ticks TIMER_FREQ
    omega
  rw [same]
  refine ⟨⟨seconds * 1000,(alarm_fires_iff small).mpr ⟨rfl,room⟩⟩,fun k fires => ?_⟩
  exact ((alarm_fires_iff small).mp fires).1.ge

/-! ### Polling -/

variable {limit : Nat}

theorem loop_turn_expired (reached : limit ≤ counter start) : loop_turn e limit start = .expired := if_pos reached

theorem loop_turn_cases (waits : ¬ limit ≤ counter start) :
    loop_turn e limit start = .looping ∨ loop_turn e limit start = .sleeping (wait_deadline limit (e.timers start)) := by
  simp only [loop_turn,if_neg waits]
  split
  · exact .inl rfl
  · exact .inr rfl

theorem turn_expired (here : before ≠ .expired) (ends : turn e limit start before = .expired) :
    limit ≤ counter start := by
  by_contra waits
  cases before with
  | looping =>
    rcases loop_turn_cases waits with looping | sleeping
    · exact absurd (looping.symm.trans ends) (by simp)
    · exact absurd (sleeping.symm.trans ends) (by simp)
  | sleeping wakeup_time =>
    dsimp only [turn] at ends
    split at ends
    · rcases loop_turn_cases waits with looping | sleeping
      · exact absurd (looping.symm.trans ends) (by simp)
      · exact absurd (sleeping.symm.trans ends) (by simp)
    · cases ends
  | expired => exact here rfl

theorem phase_expired (ends : phase e start limit k = .expired) : ∃ j ≤ k, limit ≤ counter (start + j) := by
  induction k with
  | zero => exact ⟨0,le_rfl,turn_expired (by simp) ends⟩
  | succ k ih =>
    by_cases earlier : phase e start limit k = .expired
    · obtain ⟨j,small,reached⟩ := ih earlier
      exact ⟨j,by omega,reached⟩
    · exact ⟨k + 1,le_rfl,turn_expired earlier ends⟩

theorem phase_at_once (reached : limit ≤ counter start) : phase e start limit 0 = .expired := loop_turn_expired reached

variable {timers : List Nat}

theorem wait_deadline_lt (small : limit < 2 ^ 32) (words : ∀ timer ∈ timers, timer < 2 ^ 32) :
    wait_deadline limit timers < 2 ^ 32 := by
  unfold wait_deadline
  induction timers generalizing limit with
  | nil => exact small
  | cons timer timers ih =>
    rw [foldl_cons]
    refine ih ?_ (forall_mem_cons.mp words).2
    split
    · exact words timer mem_cons_self
    · exact small

/-- A poll that sleeps has a wake-up time. -/
def Phase.timed : Phase → Prop
  | .sleeping wakeup_time => wakeup_time ≠ 0 ∧ wakeup_time < 2 ^ 32
  | _ => True

theorem loop_turn_timed (small : limit < 2 ^ 32)
    (later : counter start < limit → wait_deadline limit (e.timers start) ≠ 0) : (loop_turn e limit start).timed := by
  by_cases reached : limit ≤ counter start
  · rw [loop_turn_expired reached]
    trivial
  rcases loop_turn_cases reached with looping | sleeping
  · rw [looping]
    trivial
  rw [sleeping]
  exact ⟨later (not_le.mp reached),wait_deadline_lt small (e.words start)⟩

theorem turn_timed (timed : before.timed) (small : limit < 2 ^ 32)
    (later : counter start < limit → wait_deadline limit (e.timers start) ≠ 0) : (turn e limit start before).timed := by
  cases before with
  | looping => exact loop_turn_timed small later
  | sleeping wakeup_time =>
    dsimp only [turn]
    split
    · exact loop_turn_timed small later
    · exact timed
  | expired => trivial

theorem phase_timed (small : limit < 2 ^ 32) (k : Nat)
    (later : ∀ j ≤ k, counter (start + j) < limit → wait_deadline limit (e.timers (start + j)) ≠ 0) :
    (phase e start limit k).timed := by
  induction k with
  | zero => exact loop_turn_timed small (later 0 le_rfl)
  | succ k ih => exact turn_timed (ih fun j below => later j (below.trans k.le_succ)) small (later (k + 1) le_rfl)

/-- The last word wakes every sleeper. -/
theorem turn_last (timed : before.timed) (small : limit < 2 ^ 32)
    (last : counter start = 2 ^ 32 - 1) : turn e limit start before = .expired := by
  have reached : limit ≤ counter start := by omega
  cases before with
  | looping => exact loop_turn_expired reached
  | sleeping wakeup_time =>
    have woken : due wakeup_time start = true := by
      simp only [due,and_eq_true,decide_eq_true_eq]
      obtain ⟨positive,word⟩ := timed
      omega
    simp only [turn,if_pos woken,loop_turn_expired reached]
  | expired => rfl

theorem phase_expires (small : limit < 2 ^ 32)
    (later : ∀ k, counter start + k < limit → wait_deadline limit (e.timers (start + k)) ≠ 0) :
    ∃ k, phase e start limit k = .expired := by
  have bound : counter start < 2 ^ 32 := Nat.mod_lt _ (Nat.two_pow_pos 32)
  -- the words count up to the last one without a zero between
  have upward : ∀ k, counter start + k < 2 ^ 32 → counter (start + k) = counter start + k := by
    unfold counter at *
    omega
  obtain ⟨k,last⟩ := Nat.exists_eq_add_of_le (Nat.le_sub_one_of_lt bound)
  refine ⟨k,?_⟩
  have at_last : counter (start + k) = 2 ^ 32 - 1 := by rw [upward k (by omega),last]
  cases k with
  | zero => exact turn_last trivial small at_last
  | succ k =>
    refine turn_last (phase_timed small k fun j below early => later j ?_) small at_last
    rwa [← upward j (by omega)]

theorem poll_timely (small : counter start + n < 2 ^ 32)
    (later : ∀ k < n, wait_deadline (deadline start n) (e.timers (start + k)) ≠ 0) :
    Timely n fun k => decide (phase e start (deadline start n) k = .expired) := by
  have limit := deadline_fits small
  constructor
  · obtain ⟨k,ends⟩ := phase_expires (limit ▸ small) fun k early => later k (by omega)
    exact ⟨k,decide_eq_true ends⟩
  intro k ends
  obtain ⟨j,before,reached⟩ := phase_expired (of_decide_eq_true ends)
  rw [limit] at reached
  exact (counter_reached small reached).trans before

section
variable (none_polled : ∀ t, e.timers t = [])
include none_polled

/-- Without timers a poll sleeps until its own deadline. -/
theorem phase_untimed (k : Nat) :
    phase e start limit k = .looping ∨ (phase e start limit k = .sleeping limit ∧ 0 < limit) ∨
      phase e start limit k = .expired := by
  have looped : ∀ t, loop_turn e limit t = .looping ∨ (loop_turn e limit t = .sleeping limit ∧ 0 < limit) ∨
      loop_turn e limit t = .expired := by
    intro t
    by_cases reached : limit ≤ counter t
    · exact .inr (.inr (loop_turn_expired reached))
    rcases @loop_turn_cases e t limit reached with looping | sleeping
    · exact .inl looping
    rw [none_polled] at sleeping
    exact .inr (.inl ⟨sleeping,by omega⟩)
  induction k with
  | zero => exact looped start
  | succ k ih =>
    rcases ih with looping | ⟨sleeping,positive⟩ | expired
    · simp only [phase,looping]
      exact looped _
    · simp only [phase,sleeping,turn]
      split
      · exact looped _
      · exact .inr (.inl ⟨rfl,positive⟩)
    simp only [phase,expired]
    exact .inr (.inr rfl)

theorem phase_reached (reached : limit ≤ counter (start + k)) : phase e start limit k = .expired := by
  cases k with
  | zero => exact phase_at_once reached
  | succ k =>
    have turned : ∀ t, limit ≤ counter t → loop_turn e limit t = .expired := fun t => loop_turn_expired
    rcases @phase_untimed e start limit none_polled k with looping | ⟨sleeping,positive⟩ | expired
    · simp only [phase,looping,turn]
      exact turned _ reached
    · have woken : due limit (start + k + 1) = true := by
        simp only [due,and_eq_true,decide_eq_true_eq]
        exact ⟨positive,reached⟩
      simp only [phase,sleeping,turn,if_pos woken]
      exact turned _ reached
    · simp only [phase,expired,turn]

theorem poll_timely_iff (bound : n < 2 ^ 32) (asked : 0 < ticks) :
    Timely ticks (fun k => decide (phase e start (deadline start n) k = .expired)) ↔
      ticks ≤ n ∧ counter start + n < 2 ^ 32 := by
  constructor
  · rintro ⟨_,not_early⟩
    have small : counter start + n < 2 ^ 32 := by
      by_contra large
      have wraps : deadline start n < counter start := deadline_wraps bound (by omega)
      have first := not_early 0 (decide_eq_true (phase_at_once wraps.le))
      omega
    refine ⟨not_early n (decide_eq_true (phase_reached none_polled ?_)),small⟩
    rw [deadline_fits small]
    exact (counter_le_iff small le_rfl).mpr rfl
  rintro ⟨enough,small⟩
  have timely := poll_timely small (e := e) fun k early => by
    rw [none_polled,deadline_fits small]
    exact (by omega : counter start + n ≠ 0)
  exact ⟨timely.expires,fun k ends => enough.trans (timely.not_early k ends)⟩

end

/-! ### The conversions -/

theorem task_sleep_ticks_spec (positive : 0 < ms) :
    0 < task_sleep_ticks ms ∧ task_sleep_ticks ms < 2 ^ 32 ∧
      (ms * 1000 + 999 < 2 ^ 32 → task_sleep_ticks ms = ms) ∧
      (2 ^ 32 ≤ ms * 1000 + 999 → task_sleep_ticks ms < ms) := by
  have bound := scaled_lt ms
  unfold task_sleep_ticks
  refine ⟨by split <;> omega,by split <;> omega,fun small => ?_,fun large => ?_⟩
  · rw [scaled_of_small small,if_neg (by omega)]
  have less := scaled_lt_of_large large
  split <;> omega

theorem duration_to_ticks_eq (valid : nsec < 1000000000) :
    duration_to_ticks sec nsec = min (2 ^ 32 - 1) (requested (.nanosleep sec nsec)) := by
  have small : (nsec + 999999) % 2 ^ 32 = nsec + 999999 := mod_eq_of_lt (by omega)
  simp only [duration_to_ticks,requested,TIMER_FREQ,small]
  by_cases long : (2 ^ 32 - 1) / 1000 < sec
  · rw [if_pos long]
    omega
  have word : sec % 2 ^ 32 * 1000 % 2 ^ 32 = sec * 1000 := by
    rw [mod_eq_of_lt (by omega : sec < 2 ^ 32),mod_eq_of_lt (by omega)]
  rw [if_neg long,word]
  split <;> omega

theorem futex_ticks_eq (valid : nsec < 1000000000) :
    futex_ticks sec nsec = min (2 ^ 31 - 1) (requested (.futex sec nsec)) := by
  have small : (nsec + 1000000 - 1) % 2 ^ 32 = nsec + 1000000 - 1 := mod_eq_of_lt (by omega)
  simp only [futex_ticks,requested,TIMER_FREQ,reduceDiv,small]
  split
  · omega
  · split <;> omega

theorem futex_timeout_ticks_eq (valid : nsec < 1000000000) :
    futex_timeout_ticks sec nsec = max 1 (min (2 ^ 31 - 1) (requested (.futex sec nsec))) := by
  unfold futex_timeout_ticks
  rw [futex_ticks_eq valid]
  split <;> omega

theorem select_ms_eq (sec usec : Nat) : select_ms sec usec = requested (.select sec usec) % 2 ^ 32 :=
  mod_add_mod _ _ _
theorem timely_congr {first second : Nat → Bool} (same : ∀ k, first k = second k) :
    Timely ticks first ↔ Timely ticks second := by
  rw [funext same]

/-- A request that the call takes for none is over at once. -/
theorem timely_at_once {all : Nat → Bool} (over_at_once : ∀ k, all k = true) : Timely ticks all ↔ ticks = 0 := by
  constructor
  · intro timely
    exact le_zero.mp (timely.not_early 0 (over_at_once 0))
  rintro rfl
  exact ⟨⟨0,over_at_once 0⟩,fun k _ => zero_le k⟩

/-! ### The requests -/

theorem task_sleep_iff (e : Surroundings) (ms : Nat) :
    Timely ms (ended e start (.task_sleep_ms ms)) ↔ fits e start (.task_sleep_ms ms) := by
  dsimp only [fits]
  by_cases none_asked : ms = 0
  · rw [timely_at_once fun k => by simp [ended,none_asked]]
    simp [none_asked]
  obtain ⟨positive,bound,exact_ticks,fewer⟩ := task_sleep_ticks_spec (Nat.pos_of_ne_zero none_asked)
  have same : ∀ k, ended e start (.task_sleep_ms ms) k = due (deadline start (task_sleep_ticks ms)) (start + k) := by
    simp [ended,none_asked]
  rw [timely_congr same,sleep_timely_iff positive bound (.inl (by omega))]
  by_cases small : ms * 1000 + 999 < 2 ^ 32
  · rw [exact_ticks small]
    omega
  have less := fewer (by omega)
  omega

theorem nanosleep_iff (e : Surroundings) (valid : nsec < 1000000000) :
    Timely (requested (.nanosleep sec nsec)) (ended e start (.nanosleep sec nsec)) ↔
      fits e start (.nanosleep sec nsec) := by
  dsimp only [fits]
  have converted := @duration_to_ticks_eq sec nsec valid
  by_cases none_asked : requested (.nanosleep sec nsec) = 0
  · rw [timely_at_once fun k => by simp [ended,converted,none_asked]]
    simp [none_asked]
  have same : ∀ k, ended e start (.nanosleep sec nsec) k =
      due (deadline start (duration_to_ticks sec nsec)) (start + k) := by
    intro k
    have some_ticks : duration_to_ticks sec nsec ≠ 0 := by omega
    simp [ended,some_ticks]
  rw [timely_congr same,sleep_timely_iff (by omega) (by omega) (.inl (by omega)),converted]
  omega

theorem futex_iff (e : Surroundings) (valid : nsec < 1000000000) :
    Timely (requested (.futex sec nsec)) (ended e start (.futex sec nsec)) ↔ fits e start (.futex sec nsec) := by
  have converted := @futex_timeout_ticks_eq sec nsec valid
  have asked : 0 < requested (.futex sec nsec) ∨ futex_timeout_ticks sec nsec = 1 := by omega
  refine (sleep_timely_iff (by omega) (by omega) asked).trans ?_
  rw [converted]
  dsimp only [fits]
  omega

/-- The milliseconds of a `poll` or `select` that are not lost. -/
theorem le_scaled_iff : ms ≤ scaled ms ↔ ms * 1000 + 999 < 2 ^ 32 := by
  constructor
  · intro enough
    by_contra large
    have less := scaled_lt_of_large (by omega : 2 ^ 32 ≤ ms * 1000 + 999)
    omega
  intro small
  exact (scaled_of_small small).ge

variable {timeout_ms : Nat}

theorem poll_fits (fit : fits e start (.poll timeout_ms)) : Timely timeout_ms (ended e start (.poll timeout_ms)) := by
  rcases fit with none_asked | ⟨small,before,later⟩
  · exact (timely_at_once fun k => by simp [ended,none_asked]).mpr none_asked
  by_cases none_asked : timeout_ms = 0
  · exact (timely_at_once fun k => by simp [ended,none_asked]).mpr none_asked
  have same : ∀ k, ended e start (.poll timeout_ms) k =
      decide (phase e start (deadline start timeout_ms) k = .expired) := by
    simp [ended,none_asked,scaled_of_small small]
  rw [timely_congr same]
  exact poll_timely before later

theorem poll_fits_of_timely (none_polled : ∀ t, e.timers t = [])
    (timely : Timely timeout_ms (ended e start (.poll timeout_ms))) : fits e start (.poll timeout_ms) := by
  by_cases none_asked : timeout_ms = 0
  · exact .inl none_asked
  have same : ∀ k, ended e start (.poll timeout_ms) k =
      decide (phase e start (deadline start (scaled timeout_ms)) k = .expired) := by
    simp [ended,none_asked]
  rw [timely_congr same,poll_timely_iff none_polled (scaled_lt _) (Nat.pos_of_ne_zero none_asked)] at timely
  obtain ⟨enough,before⟩ := timely
  have small := le_scaled_iff.mp enough
  rw [scaled_of_small small] at before
  refine .inr ⟨small,before,fun k early => ?_⟩
  rw [none_polled,deadline_fits before]
  exact (by omega : counter start + timeout_ms ≠ 0)

theorem select_iff (e : Surroundings) (sec usec : Nat) :
    Timely (requested (.select sec usec)) (ended e start (.select sec usec)) ↔ fits e start (.select sec usec) := by
  have word := select_ms_eq sec usec
  dsimp only [fits]
  generalize requested (.select sec usec) = asked at word
  by_cases nothing : select_ms sec usec = 0
  · rw [timely_at_once fun k => by simp [ended,nothing]]
    omega
  have same : ∀ k, ended e start (.select sec usec) k =
      decide (phase e.untimed start (deadline start (scaled (select_ms sec usec))) k = .expired) := by
    simp [ended,nothing]
  rw [timely_congr same,poll_timely_iff (fun t => rfl) (scaled_lt _) (by omega)]
  constructor
  · rintro ⟨enough,before⟩
    have inside : select_ms sec usec = asked := by
      have bound := scaled_lt (select_ms sec usec)
      omega
    rw [inside] at enough before
    have small := le_scaled_iff.mp enough
    rw [scaled_of_small small] at before
    exact .inr ⟨small,before⟩
  rintro (none_asked | ⟨small,before⟩)
  · omega
  have inside : select_ms sec usec = asked := by omega
  rw [inside,scaled_of_small small]
  exact ⟨le_rfl,before⟩

/-- A request ends, and not early, where its deadline lies before the next zero with
    nothing lost, and nowhere else without timers. -/
theorem timely_iff_fits (e : Surroundings) (start : Nat) (r : Request) (valid : accepted r) :
    (fits e start r → Timely (requested r) (ended e start r)) ∧
      ((∀ t, e.timers t = []) → Timely (requested r) (ended e start r) → fits e start r) := by
  cases r with
  | task_sleep_ms ms => exact ⟨(task_sleep_iff e ms).mpr,fun _ => (task_sleep_iff e ms).mp⟩
  | nanosleep sec nsec => exact ⟨(nanosleep_iff e valid.2).mpr,fun _ => (nanosleep_iff e valid.2).mp⟩
  | futex sec nsec => exact ⟨(futex_iff e valid.2).mpr,fun _ => (futex_iff e valid.2).mp⟩
  | alarm seconds => exact ⟨(alarm_timely_iff valid.1).mpr,fun _ => (alarm_timely_iff valid.1).mp⟩
  | poll timeout_ms => exact ⟨poll_fits,poll_fits_of_timely⟩
  | select sec usec => exact ⟨(select_iff e sec usec).mpr,fun _ => (select_iff e sec usec).mp⟩

/-- A `nanosleep` of 3.5 ms in the first hour. -/
theorem timely_iff_fits_short :
    accepted (.nanosleep 0 3500000) ∧
      Timely 4 (ended ⟨fun _ => 0,fun _ => [],fun _ _ inside => by cases inside⟩ 3600000 (.nanosleep 0 3500000)) :=
  have valid : 0 < 2 ^ 63 ∧ 3500000 < 1000000000 := by decide
  have before : counter 3600000 + requested (.nanosleep 0 3500000) < 2 ^ 32 := by decide
  ⟨valid,(timely_iff_fits _ 3600000 (.nanosleep 0 3500000) valid).1 (.inr before)⟩

/-- Near the zero of the counter sleeps and polls end at once or never, alarms are
    early or lost; and a `poll` or `select` of more than 71 minutes ends early at any
    time. -/
theorem timeouts_early_and_lost :
    ∃ e : Surroundings, (∀ t, e.timers t = []) ∧
      (¬ Timely 1 (ended e (2 ^ 32 - 1) (.task_sleep_ms 1)) ∧ ended e (2 ^ 32 - 5) (.task_sleep_ms 10) 0 = true) ∧
      (¬ Timely 1 (ended e (2 ^ 32 - 1) (.nanosleep 0 1000000)) ∧ ended e (2 ^ 32 - 5) (.nanosleep 1 0) 0 = true) ∧
      (¬ Timely 1 (ended e (2 ^ 32 - 1) (.futex 0 1000000)) ∧ ended e (2 ^ 32 - 5) (.futex 1 0) 0 = true) ∧
      ended e (2 ^ 32 - 5) (.alarm 1) 0 = true ∧ ended e (2 ^ 32 - 5) (.poll 1000) 0 = true ∧
      ended e 0 (.poll 4294967) 0 = true ∧ ended e 0 (.select 4294967 296000) 0 = true ∧
      ¬ Timely 1000 (ended { e with due_before := fun _ => 16 } 0 (.alarm 1)) ∧
      ¬ Timely 1000 (ended ⟨fun _ => 0,fun _ => [0],by simp⟩ 0 (.poll 1000)) := by
  have never : ∀ {ticks : Nat} {all : Nat → Bool}, (∀ k, all k = false) → ¬ Timely ticks all := by
    intro ticks all not_once timely
    obtain ⟨k,over_at⟩ := timely.expires
    rw [not_once k] at over_at
    cases over_at
  have asleep : ∀ k, phase ⟨fun _ => 0,fun _ => [0],by simp⟩ 0 (deadline 0 (scaled 1000)) k = .sleeping 0 := by
    intro k
    induction k with
    | zero => decide
    | succ k ih =>
      rw [phase,ih]
      rfl
  refine ⟨⟨fun _ => 0,fun _ => [],fun _ _ inside => by cases inside⟩,fun _ => rfl,
    ⟨never fun k => rfl,by decide⟩,⟨never fun k => rfl,by decide⟩,⟨never fun k => rfl,by decide⟩,
    by decide,by decide,by decide,by decide,never fun k => ?_,never fun k => ?_⟩
  · simp [ended,alarm_fires,SCHED_ALARM_BATCH]
  · simp [ended,asleep k]

/-! ### Alarms -/

section
open Function (update update_self)
open Runs (Run)

/-- The alarm of a process, which its threads share. -/
structure Alarm where
  alarm_active : Bool
  alarm_expire_tick : Nat
  deriving DecidableEq
def Alarm.off : Alarm := ⟨false,0⟩
def Alarm.due (now : Nat) (a : Alarm) : Bool := a.alarm_active && a.alarm_expire_tick ≤ now

/-- The loop of `scheduler_scan_waiters`: the processes to come, the one whose alarm was
    tested, with the result, and those to signal. -/
structure Scan where
  current_time : Nat
  left : List Nat
  tested : Option (Nat × Bool)
  alarm_tasks : List Nat

/-- Alarms, the scan that holds `task_lock`, and the processes that scans which have
    dropped it send `SIGALRM` and have sent it. -/
structure Alarms where
  alarm : Nat → Alarm
  scan : Option Scan
  (sending sent : List Nat)

inductive AlarmLabel
  | sys_alarm (pid now seconds : Nat)
  | start (current_time : Nat) (processes : List Nat)
  | test
  | clear
  | finish
  | send (pid : Nat)
  deriving DecidableEq

/-- Sections of `scheduler_scan_waiters`, and `sys_alarm`, which takes no lock. -/
def alarm_step (s : Alarms) : AlarmLabel → Option Alarms
  | .sys_alarm pid now seconds =>
    let alarm := if seconds = 0 then Alarm.off else ⟨true,deadline now (alarm_ticks seconds)⟩
    some { s with alarm := update s.alarm pid alarm }
  | .start current_time processes =>
    if s.scan.isSome then none else some { s with scan := some ⟨current_time,processes,none,[]⟩ }
  | .test =>
    match s.scan with
    | some ⟨time,pid :: left,none,alarm_tasks⟩ =>
      some { s with scan := some ⟨time,left,some (pid,(s.alarm pid).due time),alarm_tasks⟩ }
    | _ => none
  | .clear =>
    match s.scan with
    | some ⟨time,left,some (pid,due),alarm_tasks⟩ =>
      if due then
        some { s with
          alarm := update s.alarm pid .off
          scan := some ⟨time,left,none,
            if alarm_tasks.length < SCHED_ALARM_BATCH then alarm_tasks ++ [pid] else alarm_tasks⟩ }
      else some { s with scan := some ⟨time,left,none,alarm_tasks⟩ }
    | _ => none
  | .finish =>
    match s.scan with
    | some ⟨_,[],none,alarm_tasks⟩ => some { s with scan := none, sending := s.sending ++ alarm_tasks }
    | _ => none
  | .send pid =>
    if pid ∈ s.sending then some { s with sending := s.sending.erase pid, sent := s.sent ++ [pid] } else none

/-- An alarm is not set between its test and the end of its turn, and a scan that finds
    one due has room for it. -/
def undisturbed (s : Alarms) : AlarmLabel → Bool
  | .sys_alarm pid _ _ => s.scan.all fun scan => scan.tested.all (·.1 ≠ pid)
  | .clear => s.scan.all fun scan => scan.tested.all (!·.2) || scan.alarm_tasks.length < SCHED_ALARM_BATCH
  | _ => true
def Undisturbed (s : Alarms) (l : AlarmLabel) (t : Alarms) : Prop := alarm_step s l = some t ∧ undisturbed s l = true

/-- Steps that do not set the alarm of the process. -/
def Leaving (pid : Nat) (s : Alarms) (l : AlarmLabel) (t : Alarms) : Prop :=
  Undisturbed s l t ∧ ∀ now seconds, l ≠ .sys_alarm pid now seconds

/-- The `SIGALRM`s of a process, sent or collected. -/
def signals (s : Alarms) (pid : Nat) : Nat :=
  s.sent.count pid + s.sending.count pid + (s.scan.elim 0 fun scan => scan.alarm_tasks.count pid)

/-- Since its process had the alarm `a` and `n` signals, it is as it was, or off with one
    signal more. -/
structure Once (pid : Nat) (a : Alarm) (n : Nat) (s : Alarms) : Prop where
  signalled : (s.alarm pid = a ∧ signals s pid = n) ∨
    (a.alarm_active = true ∧ s.alarm pid = .off ∧ signals s pid = n + 1)
  tested : ∀ scan due, s.scan = some scan → scan.tested = some (pid,due) → due = (s.alarm pid).due scan.current_time

/-- The scan has the process with its due alarm before it, or the signal is there. -/
def Coming (pid : Nat) (a : Alarm) (n : Nat) (s : Alarms) : Prop :=
  (s.alarm pid = .off ∧ signals s pid = n + 1) ∨
    ∃ scan, s.scan = some scan ∧ a.due scan.current_time = true ∧ (pid ∈ scan.left ∨ ∃ due, scan.tested = some (pid,due))

variable {s t : Alarms} {l : AlarmLabel} {pid n : Nat} {a : Alarm}

/-- A step of the scan that leaves the alarm and its signals. -/
theorem Once.same (once : Once pid a n s) {scan : Option Scan} {sending sent : List Nat}
    (same : signals { s with scan, sending, sent } pid = signals s pid)
    (tested : ∀ now due, scan = some now → now.tested = some (pid,due) → due = (s.alarm pid).due now.current_time) :
    Once pid a n { s with scan, sending, sent } := by
  refine ⟨?_,tested⟩
  rw [same]
  exact once.signalled

theorem Once.step (once : Once pid a n s) (taken : Leaving pid s l t) : Once pid a n t := by
  obtain ⟨⟨taken,calm⟩,other⟩ := taken
  have signalled := once.signalled
  cases l with
  | sys_alarm q now seconds =>
    cases taken
    have apart : pid ≠ q := fun same => other now seconds (same ▸ rfl)
    exact ⟨by simpa [signals,apart] using signalled,by simpa [apart] using once.tested⟩
  | start =>
    cases here : s.scan with
    | some scan => simp [alarm_step,here] at taken
    | none =>
      simp only [alarm_step,here] at taken
      cases taken
      exact once.same (by simp [signals,here]) (by rintro _ _ ⟨⟩ ⟨⟩)
  | test =>
    simp only [alarm_step] at taken
    split at taken
    · rename_i here
      cases taken
      refine once.same (by simp [signals,here]) ?_
      rintro _ due ⟨⟩ looked
      grind
    · cases taken
  | clear =>
    simp only [alarm_step] at taken
    split at taken
    · rename_i time left q due alarm_tasks here
      split at taken
      · cases taken
        rename_i found
        have room : alarm_tasks.length < SCHED_ALARM_BATCH := by simpa [undisturbed,here,found] using calm
        refine ⟨?_,by rintro _ _ ⟨⟩ ⟨⟩⟩
        by_cases same : q = pid
        · subst same
          have was := once.tested _ due here rfl
          grind [signals,Alarm.due,Alarm.off]
        · simpa [signals,here,room,Ne.symm same,same] using signalled
      · cases taken
        exact once.same (by simp [signals,here]) (by rintro _ _ ⟨⟩ ⟨⟩)
    · cases taken
  | finish =>
    simp only [alarm_step] at taken
    split at taken
    · rename_i here
      cases taken
      exact once.same (by simp [signals,here,add_assoc]) (by simp)
    · cases taken
  | send q =>
    simp only [alarm_step] at taken
    split at taken
    · rename_i member
      cases taken
      refine once.same ?_ once.tested
      have := (perm_cons_erase member).count_eq pid
      grind [signals]
    · cases taken

theorem Coming.step (coming : Coming pid a n s) (once : Once pid a n s) (taken : Leaving pid s l t) :
    Coming pid a n t := by
  rcases coming with signalled | ⟨scan,here,due,ahead⟩
  · -- an alarm that is off is signalled no more
    have again : Once pid .off (n + 1) s := ⟨.inl signalled,once.tested⟩
    rcases (again.step taken).signalled with kept | ⟨on,_⟩
    · exact .inl kept
    · cases on
  have next := once.step taken
  obtain ⟨⟨taken,calm⟩,_⟩ := taken
  cases l with
  | sys_alarm q now seconds =>
    cases taken
    exact .inr ⟨scan,here,due,ahead⟩
  | start => simp [alarm_step,here] at taken
  | test =>
    simp only [alarm_step] at taken
    split at taken
    · cases taken
      grind [Coming]
    · cases taken
  | clear =>
    simp only [alarm_step] at taken
    split at taken
    · rename_i time left q found alarm_tasks there
      cases here.symm.trans there
      by_cases same : q = pid
      · subst same
        have was := once.tested _ found there rfl
        have off : t.alarm q = .off := by
          split at taken
          · cases taken
            exact update_self ..
          rename_i idle
          cases taken
          exact (once.signalled.resolve_left fun kept => idle (was.trans (kept.1 ▸ due))).2.1
        rcases next.signalled with ⟨kept,_⟩ | signalled
        · rw [← kept,off] at due
          cases due
        · exact .inl signalled.2
      · grind [Coming]
    · cases taken
  | finish =>
    simp only [alarm_step] at taken
    split at taken
    · grind
    · cases taken
  | send q =>
    simp only [alarm_step] at taken
    split at taken
    · cases taken
      exact .inr ⟨scan,here,due,ahead⟩
    · cases taken

theorem Once.run (once : Once pid a n s) {labels : List AlarmLabel} (run : Run (Leaving pid) s labels t) :
    Once pid a n t := run.invariant (fun _ _ _ once taken => once.step taken) once

theorem Coming.run (coming : Coming pid a n s) (once : Once pid a n s) {labels : List AlarmLabel}
    (run : Run (Leaving pid) s labels t) : Coming pid a n t :=
  have kept : ∀ u l v, Once pid a n u ∧ Coming pid a n u → Leaving pid u l v → Once pid a n v ∧ Coming pid a n v :=
    fun _ _ _ held taken => ⟨held.1.step taken,held.2.step held.1 taken⟩
  (run.invariant kept ⟨once,coming⟩).2

/-- While its process does not call `sys_alarm`, an alarm stays as it is without a signal,
    or goes off with exactly one; and it has gone off when a scan that has reached its
    time and visits the process is over. -/
theorem alarms_sent_once (pid : Nat) (s : Alarms) (idle : s.scan = none) :
    (∀ labels t, Run (Leaving pid) s labels t →
      (t.alarm pid = s.alarm pid ∧ signals t pid = signals s pid) ∨
        ((s.alarm pid).alarm_active = true ∧ t.alarm pid = .off ∧ signals t pid = signals s pid + 1)) ∧
    (∀ before u now processes v after t, Run (Leaving pid) s before u → Undisturbed u (.start now processes) v →
      Run (Leaving pid) v after t → pid ∈ processes → (s.alarm pid).due now = true → t.scan = none →
        t.alarm pid = .off ∧ signals t pid = signals s pid + 1) := by
  have first : Once pid (s.alarm pid) (signals s pid) s := ⟨.inl ⟨rfl,rfl⟩,by simp [idle]⟩
  refine ⟨fun labels t run => (first.run run).signalled,?_⟩
  intro before u now processes v after t earlier start later member due ended
  have begun := (first.run earlier).step ⟨start,nofun⟩
  have coming : Coming pid (s.alarm pid) (signals s pid) v := by
    obtain ⟨taken,_⟩ := start
    simp only [alarm_step] at taken
    split at taken
    · cases taken
    · cases taken
      exact .inr ⟨_,rfl,due,.inl member⟩
  exact (coming.run begun later).resolve_right fun ⟨scan,here,_⟩ => by simp [ended] at here

/-- One process whose alarm is due at tick 1000. -/
def armed (processes : List Nat) : Alarms :=
  ⟨fun pid => if pid ∈ processes then ⟨true,1000⟩ else .off,none,[],[]⟩

theorem alarms_sent_once_one :
    ∃ t, Run (Leaving 1) (armed [1]) [.start 1000 [1],.test,.clear,.finish,.send 1] t ∧ t.sent = [1] ∧ signals t 1 = 1 := by
  let scanning : Alarms := { armed [1] with scan := some ⟨1000,[1],none,[]⟩ }
  have start : Undisturbed (armed [1]) (.start 1000 [1]) scanning := ⟨rfl,rfl⟩
  have later : Run (Leaving 1) scanning [.test,.clear,.finish,.send 1] _ :=
    .next ⟨⟨rfl,rfl⟩,nofun⟩ (.next ⟨⟨rfl,rfl⟩,nofun⟩ (.next ⟨⟨rfl,rfl⟩,nofun⟩ (.next ⟨⟨rfl,rfl⟩,nofun⟩ (.done _))))
  have once := (alarms_sent_once 1 (armed [1]) rfl).2 [] _ _ _ _ _ _ (.done _) start later (by decide) rfl rfl
  exact ⟨_,.next ⟨start,nofun⟩ later,rfl,once.2⟩

/-- Of 17 alarms due in one scan the last gets no signal; an alarm set after the test of
    the old one is cleared with it. -/
theorem alarm_lost :
    (∃ t, Run (fun s l t => alarm_step s l = some t) (armed (range 17))
      (.start 1000 (range 17) :: (range 17).flatMap (fun _ => [.test,.clear]) ++ [.finish]) t ∧
        (t.scan.isNone && decide (t.alarm 16 = .off) && decide (signals t 16 = 0)) = true) ∧
    (∃ t, Run (fun s l t => alarm_step s l = some t) (armed [1])
      [.start 1000 [1],.test,.sys_alarm 1 1000 5,.clear,.finish] t ∧
        (t.scan.isNone && decide (t.alarm 1 = .off) && decide (signals t 1 = 1)) = true) :=
  ⟨Run.ends (by decide +kernel),Run.ends (by decide +kernel)⟩

end

/-! ### Timed locks -/

structure Timespec where
  (tv_sec tv_nsec : Int)
def Timespec.nanoseconds (t : Timespec) : Int := t.tv_sec * 1000000000 + t.tv_nsec

inductive LockError
  | EINVAL | ETIMEDOUT | EAGAIN | EINTR | other
  deriving DecidableEq

/-- `__armos_pthread_relative_timeout`; the clock says `now`. -/
def relative_timeout (now absolute : Timespec) : Except LockError Timespec :=
  if absolute.tv_nsec < 0 ∨ 1000000000 ≤ absolute.tv_nsec then .error .EINVAL
  else
    let seconds := absolute.tv_sec - now.tv_sec
    let nanoseconds := absolute.tv_nsec - now.tv_nsec
    let relative : Timespec := if nanoseconds < 0 then ⟨seconds - 1,nanoseconds + 1000000000⟩ else ⟨seconds,nanoseconds⟩
    if relative.tv_sec < 0 ∨ (relative.tv_sec = 0 ∧ relative.tv_nsec = 0) then .error .ETIMEDOUT else .ok relative

/-- A turn of a loop: the time, whether the lock is taken, and else what the sleep returns. -/
structure Turn where
  now : Int
  taken : Bool
  result : Except LockError Unit

/-- The sleeps of a loop, each with its start and the end it asks for. -/
def lock_loop (timeout : Timespec) : List Turn → List (Int × Int)
  | [] => []
  | turn :: rest =>
    if turn.taken then []
    else (turn.now,turn.now + timeout.nanoseconds) ::
      match turn.result with
      | .ok _ | .error .EAGAIN | .error .EINTR => lock_loop timeout rest
      | .error _ => []

/-- The four calls; the first exchange of `mutex_take_word` may have taken the mutex. -/
inductive TimedCall
  | mutex (taken : Bool) | rdlock | wrlock | sem

/-- `mutex_lock_common`, `rwlock_rdlock_common`, `rwlock_wrlock_common` and `sem_wait_common`
    with a deadline, after their earlier errors. -/
def timed_lock (call : TimedCall) (now absolute : Timespec) (turns : List Turn) : List (Int × Int) :=
  match relative_timeout now absolute with
  | .error _ => []
  | .ok relative =>
    match call with
    | .mutex true => []
    | _ => lock_loop relative turns

theorem relative_timeout_spec {now absolute relative : Timespec} (given : relative_timeout now absolute = .ok relative) :
    relative.nanoseconds = absolute.nanoseconds - now.nanoseconds := by
  grind [relative_timeout,Timespec.nanoseconds]

/-- The sleep of the turn does not end the loop. -/
def Turn.again (turn : Turn) : Bool := turn.result matches .ok _ | .error .EAGAIN | .error .EINTR

/-- No turn that the loop comes to goes to sleep after `now`. -/
def Prompt (now : Int) : List Turn → Prop
  | [] => True
  | turn :: rest => turn.taken = false → turn.now ≤ now ∧ (turn.again = true → Prompt now rest)

theorem lock_loop_ends_iff (timeout : Timespec) (deadline : Int) (turns : List Turn) :
    (∀ sleep ∈ lock_loop timeout turns, sleep.2 ≤ deadline) ↔ Prompt (deadline - timeout.nanoseconds) turns := by
  induction turns with
  | nil => simp [lock_loop,Prompt]
  | cons turn rest ih =>
    cases taken : turn.taken with
    | true => simp [lock_loop,Prompt,taken]
    | false =>
      have first : turn.now + timeout.nanoseconds ≤ deadline ↔ turn.now ≤ deadline - timeout.nanoseconds := by omega
      rw [lock_loop,Prompt,if_neg (by simp [taken]),List.forall_mem_cons,first,taken,Turn.again]
      split <;> simp_all

/-- Every sleep ends by the deadline, as asked for, exactly where no turn sleeps after the
    clock was read. -/
theorem timed_lock_ends_iff (call : TimedCall) (now absolute : Timespec) (turns : List Turn) :
    (∀ sleep ∈ timed_lock call now absolute turns, sleep.2 ≤ absolute.nanoseconds) ↔
      ((relative_timeout now absolute).toOption.isSome = true → call ≠ .mutex true → Prompt now.nanoseconds turns) := by
  unfold timed_lock
  rcases given : relative_timeout now absolute with _ | relative
  · simp [Except.toOption]
  have loop := lock_loop_ends_iff relative absolute.nanoseconds turns
  rw [relative_timeout_spec given,sub_sub_cancel] at loop
  rcases call with (_ | _) | _ | _ | _
  case mutex.true => simp
  all_goals simpa [Except.toOption] using loop

/-- Woken after five of ten seconds, too late for the mutex, a call sleeps for ten more. -/
theorem timed_lock_sleeps_on : timed_lock (.mutex false) ⟨0,0⟩ ⟨10,0⟩ [⟨0,false,.ok ()⟩,⟨5000000000,false,.ok ()⟩] =
    [(0,10000000000),(5000000000,15000000000)] := by
  decide

end ArmOS.Timeouts
