import ArmOS.PollRuns
import Mathlib

/-!
Futexes. A thread that found the word as expected is asleep and registered from that
section on; a wake takes the first sleepers of the task list, each wait is counted
once at most, and times out only after its deadline and uncounted.
-/
namespace ArmOS.FutexRuns
open Runs Sleepers List
open PollRuns (for_tasks_keeps wake_loop_keeps)

/-- A task in a futex wait is registered until a wake counts it. -/
def Waits (ticks : Nat) (t : Task) : Prop :=
  match t.call with
  | .futex address deadline counted =>
    counted = (if t.futex_wait_active then 0 else 1) ∧ (t.futex_wait_active = true → t.futex_wait_address = address) ∧
      (t.state = .INTERRUPTIBLE → t.futex_wait_active = true) ∧ t.state ≠ .UNINTERRUPTIBLE ∧
      ∀ d, deadline = some d → d ≤ ticks + (2 ^ 31 - 1)
  | _ => t.futex_wait_active = false

structure Sound (s : System) : Prop where
  few : s.tasks.length ≤ MAX_TASKS
  waits : ∀ t ∈ s.tasks, Waits s.ticks t

variable {s : System} {t : Task} {before after : List Task} {ticks : Nat} {new : Task}

theorem Sound.replace (sound : Sound s) (here : s.tasks = before ++ t :: after)
    (kept : Waits s.ticks t → Waits s.ticks new) : Sound { s with tasks := before ++ new :: after } := by
  have waits := sound.waits
  have few := sound.few
  rw [here] at waits few
  refine ⟨by simpa using few,?_⟩
  grind

section
variable (waits : Waits ticks t)
include waits

theorem Waits.outside (free : outside t) : t.futex_wait_active = false := by
  rcases free.2 with call | ⟨generation,missed,call⟩
  · simpa [Waits,call] using waits
  · simpa [Waits,call] using waits

theorem Waits.awake {state : TaskState} (up : state ≠ .INTERRUPTIBLE)
    (above : state ≠ .UNINTERRUPTIBLE) : Waits ticks { t with state := state } := by
  rcases call : t.call
  all_goals simp only [Waits,call] at waits ⊢
  all_goals try exact waits
  exact ⟨waits.1,waits.2.1,fun asleep => absurd asleep up,above,waits.2.2.2.2⟩

theorem Waits.scanned (now : Nat) : Waits ticks (scan_task now t) := by
  by_cases expired : (asleep t && decide (0 < t.wakeup_time ∧ t.wakeup_time ≤ now)) = true
  · rw [scan_task,if_pos expired]
    exact waits.awake (t := { t with wakeup_time := 0 }) (by decide) (by simp)
  rw [scan_task,if_neg expired]
  exact waits

theorem Waits.notified (notice : Notice) : Waits ticks (record_notice notice (notify_task notice t)) := by
  have noticed : ∀ u : Task, Waits ticks u → Waits ticks (record_notice notice u) := by
    intro u waits
    rcases call : u.call <;> simpa [record_notice,Waits,call] using waits
  apply noticed
  by_cases woken : (t.poll_wait_active && task_poll_key_matches t.poll_wait_keys notice &&
      decide (t.state = .INTERRUPTIBLE)) = true
  · rw [notify_task,if_pos woken]
    exact waits.awake (t := { t with poll_wait_active := false, poll_wait_keys := [], wakeup_time := 0 }) (by decide)
        (by simp)
  rw [notify_task,if_neg woken]
  exact waits

end

/-! ### A wake -/

/-- What a wake does to each task of the list. -/
def Resumed (process address : Nat) (old new : Task) : Prop :=
  new = old ∨ (futex_sleeper process address old = true ∧ new = futex_wake_task old)
theorem woken_not_sleeper (process address : Nat) (t : Task) :
    futex_sleeper process address (futex_wake_task t) = false := by
  rcases call : t.call <;> simp [futex_wake_task,record_wake,futex_sleeper,asleep,call]

theorem wake_loop_spec (process address : Nat) (tasks : List Task) (n : Nat) :
    (futex_wake_loop process address tasks n).2 = min n (tasks.countP (futex_sleeper process address)) ∧
    (futex_wake_loop process address tasks n).1.countP (futex_sleeper process address) +
      (futex_wake_loop process address tasks n).2 = tasks.countP (futex_sleeper process address) ∧
    List.Forall₂ (Resumed process address) tasks (futex_wake_loop process address tasks n).1 := by
  -- by induction on the task list, for every number of tasks that may still be woken
  induction tasks generalizing n with
  | nil => simp [futex_wake_loop]
  | cons t tasks ih =>
    cases n with
    | zero =>
      refine ⟨by simp [futex_wake_loop],by simp [futex_wake_loop],?_⟩
      exact forall₂_same.mpr fun u _ => .inl rfl
    | succ n =>
      by_cases sleeper : futex_sleeper process address t = true
      · obtain ⟨woken,left,each⟩ := ih n
        have awake := woken_not_sleeper process address t
        rw [futex_wake_loop,if_pos sleeper]
        dsimp only
        rw [countP_cons_of_pos sleeper,countP_cons_of_neg (by simp [awake])]
        exact ⟨by omega,by omega,.cons (.inr ⟨sleeper,rfl⟩) each⟩
      obtain ⟨woken,left,each⟩ := ih (n + 1)
      simp only [futex_wake_loop,if_neg sleeper,countP_cons]
      exact ⟨by simpa using woken,by simpa using left,.cons (.inl rfl) each⟩

variable {process address : Nat}

theorem Waits.woken (waits : Waits ticks t) (sleeper : futex_sleeper process address t = true) :
    Waits ticks (futex_wake_task t) := by
  simp only [futex_sleeper,Bool.and_eq_true] at sleeper
  have active := sleeper.1.1.2
  grind [record_wake,futex_wake_task,FutexRuns.Waits]

theorem Sound.wake_eq (sound : Sound s) (somewhere : address ≠ 0) (max_count : Nat) :
    task_futex_wake process address max_count s =
      ({ s with tasks := (futex_wake_loop process address s.tasks max_count).1 },
        (futex_wake_loop process address s.tasks max_count).2) := by
  simp only [task_futex_wake,if_neg somewhere,take_of_length_le sound.few,drop_of_length_le sound.few,
    append_nil]

theorem Sound.futex_wake (sound : Sound s) (process address max_count : Nat) :
    Sound (task_futex_wake process address max_count s).1 := by
  by_cases nowhere : address = 0
  · rw [task_futex_wake,if_pos nowhere]
    exact sound
  rw [sound.wake_eq nowhere]
  obtain ⟨_,_,each⟩ := wake_loop_spec process address s.tasks max_count
  refine ⟨each.length_eq ▸ sound.few,?_⟩
  exact wake_loop_keeps sound.waits (fun _ sleeper waits => waits.woken sleeper) _

/-! ### Runs -/

theorem Sound.step (sound : Sound s) {l : Label} {next : System} (taken : Careful s l next) : Sound next := by
  obtain ⟨bounded,taken⟩ := taken
  cases taken with
  | create =>
    have room : s.tasks.length < MAX_TASKS := bounded
    refine ⟨by simpa using room,?_⟩
    exact forall_mem_append.mpr ⟨sound.waits,forall_mem_singleton.mpr rfl⟩
  | move here up above => exact sound.replace here fun waits => waits.awake up above
  | sleep here free | read_generation here free => exact sound.replace here fun waits => waits.outside free
  | reap here _ =>
    have waits := sound.waits
    have few := sound.few
    rw [here] at waits few
    refine ⟨by simp only [length_append,length_cons] at few ⊢; omega,?_⟩
    grind
  | poll_wait here running call _ | poll_wait_refused here running call _ =>
    exact sound.replace here fun waits => waits.outside ⟨running,.inr ⟨_,_,call⟩⟩
  | poll_return here _ call =>
    apply sound.replace here
    intro waits
    simp only [Waits,call] at waits
    exact waits
  | notify =>
    obtain ⟨few,waits⟩ := for_tasks_keeps (Q := fun t => Waits _ (record_notice _ t)) sound.few sound.waits
      fun _ waits => waits.notified _
    exact ⟨(length_map _).trans_le few,forall_mem_map.mpr waits⟩
  | futex_wait here _ _ _ near => exact sound.replace here fun _ => ⟨rfl,fun _ => rfl,fun _ => rfl,by simp [futex_sleep],near⟩
  | futex_return here _ _ => exact sound.replace here fun _ => rfl
  | futex_wake => exact sound.futex_wake _ _ _
  | store => exact ⟨sound.few,sound.waits⟩
  | tick =>
    refine ⟨sound.few,?_⟩
    intro u member
    have waits := sound.waits u member
    rcases call : u.call
    all_goals simp only [Waits,call] at waits ⊢
    all_goals try exact waits
    grind
  | scan =>
    obtain ⟨few,waits⟩ := for_tasks_keeps sound.few sound.waits fun _ waits => waits.scanned _
    exact ⟨few,waits⟩

theorem sound_reachable (reached : Reachable Careful System.first s) : Sound s :=
  reached.invariant (fun _ _ _ sound taken => sound.step taken) ⟨Nat.zero_le _,nofun⟩

/-- Who sleeps is among the sleepers of its address; a wake resumes as many as it may
    and says how many; a wait is counted once at most, and times out only after its
    deadline and uncounted. -/
theorem futex_correct (s : System) (reached : Reachable Careful System.first s) :
    (∀ t ∈ s.tasks, ∀ address deadline counted, t.call = .futex address deadline counted →
      counted ≤ 1 ∧ (t.state = .INTERRUPTIBLE → futex_sleeper t.process address t = true)) ∧
    (∀ process address n woken next, address ≠ 0 → Step s (.futex_wake process address n woken) next →
      woken = min n (s.tasks.countP (futex_sleeper process address)) ∧
      next.tasks.countP (futex_sleeper process address) + woken = s.tasks.countP (futex_sleeper process address) ∧
      List.Forall₂ (Resumed process address) s.tasks next.tasks ∧
      ((∃ t ∈ next.tasks, futex_sleeper process address t = true) → woken = n)) ∧
    (∀ next, Step s (.futex_return true) next →
      ∃ before after t address d, s.tasks = before ++ t :: after ∧ t.call = .futex address (some d) 0 ∧ d ≤ s.ticks ∧
        next.tasks = before ++ futex_return t :: after) := by
  have sound := sound_reachable reached
  refine ⟨?_,?_,?_⟩
  · intro t member address deadline counted call
    have waits := sound.waits t member
    grind [Waits,futex_sleeper,asleep]
  · intro process address n woken next somewhere taken
    cases taken with
    | futex_wake =>
      rw [sound.wake_eq somewhere]
      obtain ⟨number,left,each⟩ := wake_loop_spec process address s.tasks n
      refine ⟨number,left,each,fun ⟨t,member,sleeper⟩ => ?_⟩
      have some_left := countP_pos_iff.mpr ⟨t,member,sleeper⟩
      dsimp only at some_left ⊢
      omega
  intro next taken
  generalize result : Label.futex_return true = label at taken
  cases taken with
  | @futex_return before after t address counted deadline here running call =>
    have timed_out : futex_timed_out s deadline t = true := (Label.futex_return.inj result).symm
    simp only [futex_timed_out,Bool.and_eq_true,decide_eq_true_eq] at timed_out
    obtain ⟨⟨active,some_tick⟩,late⟩ := timed_out
    have waits := sound.waits t (by rw [here]; simp)
    simp only [Waits,call] at waits
    obtain ⟨counts,_,_,_,near⟩ := waits
    rw [if_pos active] at counts
    rcases due : deadline with _ | d
    · exact absurd (by simp [deadline_tick,due]) some_tick
    · rw [due] at late call
      have soon := near d due
      have late : passed (s.ticks % 2 ^ 32) (d % 2 ^ 32) = true := late
      simp only [passed,decide_eq_true_eq] at late
      exact ⟨before,after,t,address,d,here,counts ▸ call,by omega,rfl⟩
  | _ => nomatch result

/-- A wake of one resumes the first of two; the other can time out. -/
theorem futex_correct_two_waiters :
    ∃ s next, Reachable Careful System.first s ∧ Step s (.futex_wake 1 8 1 1) next ∧
      s.tasks.countP (futex_sleeper 1 8) = 2 ∧ next.tasks.countP (futex_sleeper 1 8) + 1 = 2 := by
  let ready := new_task 1
  let running := { ready with state := .RUNNING }
  let sleeping := futex_sleep 8 none running
  let waiting : System := ⟨0,1,[sleeping,sleeping],fun _ _ => 0⟩
  have run : Run Careful System.first
      [.create 1,.move .RUNNING,.futex_wait,.create 1,.move .RUNNING,.futex_wait] waiting :=
    .next ⟨(by decide : 0 < MAX_TASKS),.create⟩
      (.next ⟨trivial,@Step.move _ [] [] ready .RUNNING rfl nofun nofun⟩
      (.next ⟨trivial,@Step.futex_wait _ [] [] running 8 0 none rfl ⟨rfl,.inl rfl⟩ (by decide) rfl nofun⟩
      (.next ⟨(by decide : 1 < MAX_TASKS),.create⟩
      (.next ⟨trivial,@Step.move _ [sleeping] [] ready .RUNNING rfl nofun nofun⟩
      (.next ⟨trivial,@Step.futex_wait _ [sleeping] [] running 8 0 none rfl ⟨rfl,.inl rfl⟩ (by decide) rfl nofun⟩
        (.done _))))))
  have wake : Step waiting (.futex_wake 1 8 1 1) (task_futex_wake 1 8 1 waiting).1 := .futex_wake
  have spec := (futex_correct _ ⟨_,run⟩).2.1 1 8 1 1 _ (by decide) wake
  exact ⟨_,_,⟨_,run⟩,wake,rfl,spec.2.1⟩

/-- A wake of one finds nobody although a task sleeps, behind `MAX_TASKS` others. -/
theorem futex_wake_misses : ∃ s next, Reachable Step System.first s ∧ s.tasks.countP (futex_sleeper 1 8) = 1 ∧
    Step s (.futex_wake 1 8 1 0) next := by
  obtain ⟨ready,all⟩ : ∃ ready, ready = replicate MAX_TASKS (new_task 1) := ⟨_,rfl⟩
  let running := { new_task 1 with state := .RUNNING }
  let sleeping : System := { System.first with tasks := ready ++ [futex_sleep 8 none running] }
  have slept : Step crowded .futex_wait sleeping := by
    rw [crowded,← all]
    exact @Step.futex_wait _ ready [] running 8 0 none rfl ⟨rfl,.inl rfl⟩ (by decide) rfl nofun
  have nobody : ready.countP (futex_sleeper 1 8) = 0 := countP_eq_zero.mpr fun t member => by
    rw [all] at member
    rw [eq_of_mem_replicate member]
    decide
  have woken : (task_futex_wake 1 8 1 sleeping).2 = 0 := by
    have none_woken := (wake_loop_spec 1 8 ready 1).1
    rw [task_futex_wake,if_neg (by decide)]
    dsimp only [sleeping]
    rw [take_left' (by simp [all]),none_woken,nobody]
    rfl
  have wake := @Step.futex_wake sleeping 1 8 1
  rw [woken] at wake
  refine ⟨sleeping,_,crowded_reached.trans (.single slept),?_,wake⟩
  rw [countP_append,nobody]
  rfl

end ArmOS.FutexRuns

