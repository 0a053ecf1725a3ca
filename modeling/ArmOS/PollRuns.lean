import ArmOS.Sleepers

/-!
No wake-up is lost in the generic wait. Generations come round only after `2 ^ 32 -
1` notifications, so a task that finds its generation unchanged has missed none; and
while it sleeps, every matching notice makes it ready.
-/
namespace ArmOS.PollRuns
open Runs Sleepers Function List Nat

/-! ### Generations -/

variable {g : Nat}

theorem next_generation_eq (low : 1 ≤ g) (high : g < 2 ^ 32) : next_generation g = g % (2 ^ 32 - 1) + 1 := by
  by_cases last : g = 2 ^ 32 - 1
  · subst last
    rfl
  have small : (g + 1) % 2 ^ 32 = g + 1 := mod_eq_of_lt (by omega)
  grind [next_generation]

theorem iterate_generation (low : 1 ≤ g) (high : g < 2 ^ 32) (n : Nat) :
    next_generation^[n] g = (g - 1 + n) % (2 ^ 32 - 1) + 1 := by
  induction n with
  | zero =>
    have inside : (g - 1) % (2 ^ 32 - 1) = g - 1 := mod_eq_of_lt (by omega)
    show g = (g - 1) % (2 ^ 32 - 1) + 1
    rw [inside]
    omega
  | succ n ih =>
    have bound : (g - 1 + n) % (2 ^ 32 - 1) < 2 ^ 32 - 1 := mod_lt _ (by decide)
    rw [iterate_succ_apply',ih,next_generation_eq (by omega) (by omega),mod_add_mod,add_assoc]

theorem generation_bounds (low : 1 ≤ g) (high : g < 2 ^ 32) : 1 ≤ next_generation g ∧ next_generation g < 2 ^ 32 := by
  have bound : g % (2 ^ 32 - 1) < 2 ^ 32 - 1 := mod_lt _ (by decide)
  rw [next_generation_eq low high]
  omega

/-- A generation that is the same again has seen no notification. -/
theorem same_generation {g n : Nat} (low : 1 ≤ g) (high : g < 2 ^ 32) (few : n < 2 ^ 32 - 1)
    (same : next_generation^[n] g = g) : n = 0 := by
  rw [iterate_generation low high] at same
  have inside : (g - 1) % (2 ^ 32 - 1) = g - 1 := mod_eq_of_lt (by omega)
  have round : (g - 1 + n) % (2 ^ 32 - 1) = (g - 1) % (2 ^ 32 - 1) := by omega
  omega

/-! ### The invariant -/

def Waits (generation : Nat) (t : Task) : Prop :=
  match t.call with
  | .scanning g missed => 1 ≤ g ∧ g < 2 ^ 32 ∧ generation = next_generation^[missed.length] g
  | .polling keys missed heard =>
    (missed.length < 2 ^ 32 - 1 → missed = []) ∧
    (t.state = .INTERRUPTIBLE →
      t.poll_wait_active = true ∧ t.poll_wait_keys = keys ∧ ∀ n ∈ heard, task_poll_key_matches keys n = false)
  | _ => True

structure Sound (s : System) : Prop where
  few : s.tasks.length ≤ MAX_TASKS
  low : 1 ≤ s.poll_generation
  high : s.poll_generation < 2 ^ 32
  waits : ∀ t ∈ s.tasks, Waits s.poll_generation t

variable {s : System} {t : Task} {before after : List Task} {generation : Nat} {tasks : List Task}

theorem for_tasks_eq (few : tasks.length ≤ MAX_TASKS) (f : Task → Task) : for_tasks f tasks = tasks.map f := by
  rw [for_tasks,take_of_length_le few,drop_of_length_le few,append_nil]

theorem for_tasks_keeps {P Q : Task → Prop} {f : Task → Task} (few : tasks.length ≤ MAX_TASKS) (held : ∀ t ∈ tasks, P t)
    (kept : ∀ t, P t → Q (f t)) : (for_tasks f tasks).length ≤ MAX_TASKS ∧ ∀ t ∈ for_tasks f tasks, Q t := by
  rw [for_tasks_eq few,length_map,forall_mem_map]
  exact ⟨few,fun t member => kept t (held t member)⟩

/-- A step of one task keeps the invariant. -/
theorem Sound.replace (sound : Sound s) (here : s.tasks = before ++ t :: after) {new : Task}
    (kept : Waits s.poll_generation t → Waits s.poll_generation new) : Sound { s with tasks := before ++ new :: after } := by
  have waits := sound.waits
  have few := sound.few
  rw [here] at waits few
  refine ⟨by simpa using few,sound.low,sound.high,?_⟩
  grind

theorem Waits.awake (waits : Waits generation t) {state : TaskState} (up : state ≠ .INTERRUPTIBLE) :
    Waits generation { t with state := state } := by
  rcases call : t.call
  all_goals simp only [Waits,call] at waits ⊢
  · exact waits
  · exact ⟨waits.1,fun asleep => absurd asleep up⟩

theorem Waits.notified (waits : Waits generation t) (notice : Notice) :
    Waits (next_generation generation) (record_notice notice (notify_task notice t)) := by
  by_cases woken : (t.poll_wait_active && task_poll_key_matches t.poll_wait_keys notice &&
      decide (t.state = .INTERRUPTIBLE)) = true
  · rw [notify_task,if_pos woken]
    rcases call : t.call
    all_goals simp only [record_notice,Waits,call] at waits ⊢
    · simp_all [iterate_succ_apply']
    · exact ⟨waits.1,nofun⟩
  rw [notify_task,if_neg woken]
  rcases call : t.call
  all_goals simp only [record_notice,Waits,call] at waits ⊢
  · simp_all [iterate_succ_apply']
  · grind

theorem Sound.notify (sound : Sound s) (notice : Notice) : Sound (task_poll_notify notice s) := by
  have bounds := generation_bounds sound.low sound.high
  obtain ⟨few,waits⟩ := for_tasks_keeps (Q := fun t => Waits _ (record_notice notice t)) sound.few sound.waits
    fun _ waits => waits.notified notice
  exact ⟨(length_map _).trans_le few,bounds.1,bounds.2,forall_mem_map.mpr waits⟩

theorem Waits.scanned (waits : Waits generation t) (now : Nat) : Waits generation (scan_task now t) := by
  by_cases expired : (asleep t && decide (0 < t.wakeup_time ∧ t.wakeup_time ≤ now)) = true
  · rw [scan_task,if_pos expired]
    rcases call : t.call
    all_goals simp only [Waits,call] at waits ⊢
    · exact waits
    · exact ⟨waits.1,nofun⟩
  rw [scan_task,if_neg expired]
  exact waits

theorem Waits.futex_woken (waits : Waits generation t) : Waits generation (futex_wake_task t) := by
  rcases call : t.call
  all_goals simp only [futex_wake_task,record_wake,Waits,call] at waits ⊢
  · exact waits
  · exact ⟨waits.1,nofun⟩

theorem wake_loop_keeps {P : Task → Prop} {process address : Nat} (held : ∀ t ∈ tasks, P t)
    (kept : ∀ t, futex_sleeper process address t = true → P t → P (futex_wake_task t)) (n : Nat) :
    ∀ t ∈ (futex_wake_loop process address tasks n).1, P t := by
  induction tasks generalizing n with
  | nil => nofun
  | cons t tasks ih =>
    obtain ⟨first,rest⟩ := forall_mem_cons.mp held
    cases n with
    | zero => exact held
    | succ n =>
      by_cases sleeper : futex_sleeper process address t = true
      · simp only [futex_wake_loop,if_pos sleeper]
        exact forall_mem_cons.mpr ⟨kept t sleeper first,ih rest n⟩
      simp only [futex_wake_loop,if_neg sleeper]
      exact forall_mem_cons.mpr ⟨first,ih rest (n + 1)⟩

theorem wake_loop_length (process address : Nat) (tasks : List Task) (n : Nat) :
    (futex_wake_loop process address tasks n).1.length = tasks.length := by
  induction tasks generalizing n with
  | nil => rfl
  | cons t tasks ih =>
    cases n with
    | zero => rfl
    | succ n =>
      by_cases sleeper : futex_sleeper process address t = true <;> simp [futex_wake_loop,sleeper,ih]

theorem Sound.futex_wake (sound : Sound s) (process address max_count : Nat) :
    Sound (task_futex_wake process address max_count s).1 := by
  by_cases nowhere : address = 0
  · rw [task_futex_wake,if_pos nowhere]
    exact sound
  simp only [task_futex_wake,if_neg nowhere,take_of_length_le sound.few,drop_of_length_le sound.few,
    append_nil]
  refine ⟨by simpa [wake_loop_length] using sound.few,sound.low,sound.high,?_⟩
  exact wake_loop_keeps sound.waits (fun _ _ waits => waits.futex_woken) _

theorem Sound.step (sound : Sound s) {l : Label} {after : System} (taken : Careful s l after) : Sound after := by
  obtain ⟨bounded,taken⟩ := taken
  cases taken with
  | create =>
    have room : s.tasks.length < MAX_TASKS := bounded
    refine ⟨by simpa using room,sound.low,sound.high,?_⟩
    exact forall_mem_append.mpr ⟨sound.waits,forall_mem_singleton.mpr trivial⟩
  | move here up _ => exact sound.replace here fun waits => waits.awake up
  | sleep here _ | poll_wait_refused here _ _ _ | poll_return here _ _ | futex_wait here _ _ _ _ | futex_return here _ _ =>
    exact sound.replace here fun _ => trivial
  | reap here _ =>
    have waits := sound.waits
    have few := sound.few
    rw [here] at waits few
    refine ⟨by simp only [length_append,length_cons] at few ⊢; omega,sound.low,sound.high,?_⟩
    grind
  | read_generation here _ => exact sound.replace here fun _ => ⟨sound.low,sound.high,rfl⟩
  | poll_wait here _ call sleeps =>
    apply sound.replace here
    intro waits
    simp only [Waits,call] at waits
    obtain ⟨low,high,since⟩ := waits
    simp only [poll_wait_sleeps,Bool.and_eq_true,decide_eq_true_eq] at sleeps
    have same := since.symm.trans sleeps.1.1
    refine ⟨fun few => ?_,fun _ => ⟨rfl,rfl,nofun⟩⟩
    exact eq_nil_of_length_eq_zero (same_generation low high few same)
  | notify => exact sound.notify _
  | futex_wake => exact sound.futex_wake _ _ _
  | store | tick => exact ⟨sound.few,sound.low,sound.high,sound.waits⟩
  | scan =>
    obtain ⟨few,waits⟩ := for_tasks_keeps sound.few sound.waits fun _ waits => waits.scanned _
    exact ⟨few,sound.low,sound.high,waits⟩

theorem sound_first : Sound System.first := ⟨zero_le _,by decide,by decide,nofun⟩
theorem sound_reachable (reached : Reachable Careful System.first s) : Sound s :=
  reached.invariant (fun _ _ _ sound taken => sound.step taken) sound_first

/-- A sleeper sleeps on through a notification for other keys. -/
theorem unmatched_sleeps (few : s.tasks.length ≤ MAX_TASKS) (here : s.tasks = before ++ t :: after)
    (asleep : t.state = .INTERRUPTIBLE) {key : Nat} (unmatched : key ∉ t.poll_wait_keys) :
    ∃ before' after', (task_poll_notify (some key) s).tasks = before' ++ record_notice (some key) t :: after' ∧
      before'.length = before.length ∧ (record_notice (some key) t).state = .INTERRUPTIBLE := by
  have stays : notify_task (some key) t = t := by
    rw [notify_task,if_neg]
    simp [task_poll_key_matches,unmatched]
  refine ⟨before.map (record_notice (some key) ∘ notify_task (some key)),
    after.map (record_notice (some key) ∘ notify_task (some key)),?_,length_map _,?_⟩
  · rw [task_poll_notify,for_tasks_eq few,here]
    simp only [map_append,map_cons,List.map_map,stays]
  · rcases call : t.call <;> simp [record_notice,call,asleep]

/-- A task asleep in the generic wait has missed no notification, if there were fewer
    than a round before it slept, and has heard none for it since. -/
theorem no_lost_wakeup (s : System) (reached : Reachable Careful System.first s) :
    (∀ t ∈ s.tasks, ∀ keys missed heard, t.call = .polling keys missed heard → t.state = .INTERRUPTIBLE →
      (missed.length < 2 ^ 32 - 1 → missed = []) ∧ none ∉ heard ∧ ∀ key ∈ keys, some key ∉ heard) ∧
    (∀ before after t keys missed heard key, s.tasks = before ++ t :: after → t.call = .polling keys missed heard →
      t.state = .INTERRUPTIBLE → key ∉ keys → ∀ next, Step s (.notify (some key)) next →
        ∃ before' after', next.tasks = before' ++ { t with call := .polling keys missed (heard ++ [some key]) } :: after' ∧
          before'.length = before.length) := by
  have sound := sound_reachable reached
  constructor
  · intro t member keys missed heard call asleep
    have waits := sound.waits t member
    simp only [Waits,call] at waits
    obtain ⟨_,_,unmatched⟩ := waits.2 asleep
    refine ⟨waits.1,fun heard_all => ?_,fun key registered heard_it => ?_⟩
    · exact absurd (unmatched none heard_all) (by simp [task_poll_key_matches])
    · exact absurd (unmatched (some key) heard_it) (by simp [task_poll_key_matches,registered])
  intro before after t keys missed heard key here call asleep unmatched next taken
  have waits := sound.waits t (by rw [here]; simp)
  simp only [Waits,call] at waits
  obtain ⟨_,registered,_⟩ := waits.2 asleep
  cases taken with
  | notify =>
    obtain ⟨before',after',stays,place,_⟩ := unmatched_sleeps sound.few here asleep (registered ▸ unmatched)
    rw [record_notice,call] at stays
    exact ⟨before',after',stays,place⟩

/-- A waiter for key 5 sleeps through key 6. -/
theorem no_lost_wakeup_other_key :
    ∃ s t, Reachable Careful System.first s ∧ s.tasks = [t] ∧ t.state = .INTERRUPTIBLE ∧
      t.call = .polling [5] [] [some 6] ∧ none ∉ [some 6] ∧ ∀ key ∈ [5], some key ∉ [some 6] := by
  let ready := new_task 1
  let running := { ready with state := .RUNNING }
  let scanning := { running with call := .scanning 1 [] }
  have run : Run Careful System.first [.create 1,.move .RUNNING,.read_generation,.poll_wait true,.notify (some 6)] _ :=
    .next ⟨(by decide : 0 < MAX_TASKS),.create⟩
      (.next ⟨trivial,@Step.move _ [] [] ready .RUNNING rfl nofun nofun⟩
      (.next ⟨trivial,@Step.read_generation _ [] [] running rfl ⟨rfl,.inl rfl⟩⟩
      (.next ⟨trivial,@Step.poll_wait _ [] [] scanning [5] 1 0 [] false rfl rfl rfl rfl⟩
      (.next ⟨trivial,.notify⟩ (.done _)))))
  have heard := (no_lost_wakeup _ ⟨_,run⟩).1 _ mem_cons_self [5] [] [some 6] rfl rfl
  exact ⟨_,_,⟨_,run⟩,rfl,rfl,rfl,heard.2⟩

/-- A notification for everybody passes by a sleeper behind `MAX_TASKS` tasks. -/
theorem wakeup_lost_behind : ∃ s t, Reachable Step System.first s ∧ t ∈ s.tasks ∧ t.state = .INTERRUPTIBLE ∧
    t.call = .polling [5] [] [none] := by
  let ready := replicate MAX_TASKS (new_task 1)
  let running := { new_task 1 with state := .RUNNING }
  let scanning := { running with call := .scanning 1 [] }
  have run : Run Step crowded [.read_generation,.poll_wait true,.notify none] _ :=
    .next (@Step.read_generation _ ready [] running rfl ⟨rfl,.inl rfl⟩)
      (.next (@Step.poll_wait _ ready [] scanning [5] 1 0 [] false rfl rfl rfl rfl) (.next .notify (.done _)))
  refine ⟨_,record_notice none (poll_sleep [5] 0 [] scanning),crowded_reached.trans ⟨_,run⟩,?_,rfl,rfl⟩
  exact mem_map_of_mem (mem_append_right _ (by simp [ready]))

end ArmOS.PollRuns

