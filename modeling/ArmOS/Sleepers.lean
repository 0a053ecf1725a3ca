import ArmOS.Runs
import Mathlib.Tactic

/-!
Tasks that sleep until somebody wakes them. The generic wait and the futex wait put
a task to sleep in one section under `task_lock`; notifiers, wakes, signals and
expired deadlines make it ready in others. What a task is in the middle of is
recorded beside its fields.
-/
namespace ArmOS.Sleepers
open Runs

def MAX_TASKS : Nat := 1024
inductive TaskState
  | READY | RUNNING | BLOCKED | ZOMBIE | TERMINATED | INTERRUPTIBLE | UNINTERRUPTIBLE | STOPPED
  deriving DecidableEq, Repr

/-- A notification: of a key, or of none, which is for everybody. -/
abbrev Notice := Option Nat

/-- What a task is in the middle of. -/
inductive Call
  /-- In neither of the two waits. -/
  | other
  /-- Has read the generation and checks; the notices since. -/
  | scanning (generation : Nat) (missed : List Notice)
  /-- In `task_poll_wait`; the notices before and after it slept. -/
  | polling (keys : List Nat) (missed heard : List Notice)
  /-- In `task_futex_wait`: address, deadline, and the wakes that counted it. -/
  | futex (address : Nat) (deadline : Option Nat) (counted : Nat)

structure Task where
  process : Nat
  state : TaskState
  wakeup_time : Nat
  poll_wait_active : Bool
  poll_wait_keys : List Nat
  futex_wait_active : Bool
  futex_wait_address : Nat
  call : Call

/-- Task list, ticks, generation and user memory. -/
structure System where
  (ticks poll_generation : Nat)
  tasks : List Task
  word : Nat → Nat → Nat

/-- Ticks are 32 bits wide. -/
def get_system_ticks (s : System) : Nat := s.ticks % 2 ^ 32

/-- `(int32_t)(now - deadline) >= 0` on 32-bit ticks. -/
def passed (now deadline : Nat) : Bool := (now + 2 ^ 32 - deadline) % 2 ^ 32 < 2 ^ 31
def asleep (t : Task) : Bool := t.state = .INTERRUPTIBLE || t.state = .UNINTERRUPTIBLE

/-! ### The generic wait -/

/-- The next generation; 0 is left out. -/
def next_generation (generation : Nat) : Nat := if (generation + 1) % 2 ^ 32 = 0 then 1 else (generation + 1) % 2 ^ 32

/-- Whether `task_poll_wait` puts its task to sleep. -/
def poll_wait_sleeps (s : System) (generation deadline : Nat) (signal : Bool) : Bool :=
  s.poll_generation = generation && !(deadline ≠ 0 && passed (get_system_ticks s) deadline) && !signal
def poll_sleep (keys : List Nat) (deadline : Nat) (missed : List Notice) (t : Task) : Task :=
  { t with
    poll_wait_active := true, poll_wait_keys := keys, wakeup_time := deadline, state := .INTERRUPTIBLE,
    call := .polling keys missed [] }

/-- The section that ends a generic wait. -/
def poll_return (t : Task) : Task :=
  { t with poll_wait_active := false, poll_wait_keys := [], wakeup_time := 0, call := .other }
def task_poll_key_matches (keys : List Nat) : Notice → Bool
  | none => true
  | some key => key ∈ keys

/-- What a notification does to one task. -/
def notify_task (notice : Notice) (t : Task) : Task :=
  if t.poll_wait_active && task_poll_key_matches t.poll_wait_keys notice && decide (t.state = .INTERRUPTIBLE) then
    { t with poll_wait_active := false, poll_wait_keys := [], wakeup_time := 0, state := .READY }
  else t

/-- The record of a notification, which reaches nobody's fields. -/
def record_notice (notice : Notice) (t : Task) : Task :=
  match t.call with
  | .scanning generation missed => { t with call := .scanning generation (missed ++ [notice]) }
  | .polling keys missed heard => { t with call := .polling keys missed (heard ++ [notice]) }
  | _ => t

/-- The loop over the task list, up to `MAX_TASKS` tasks. -/
def for_tasks (f : Task → Task) (tasks : List Task) : List Task := (tasks.take MAX_TASKS).map f ++ tasks.drop MAX_TASKS
def task_poll_notify (notice : Notice) (s : System) : System :=
  { s with
    poll_generation := next_generation s.poll_generation
    tasks := (for_tasks (notify_task notice) s.tasks).map (record_notice notice) }

/-! ### Futexes -/

/-- The 32-bit tick of `futex_timeout_deadline`, 0 without one. -/
def deadline_tick (deadline : Option Nat) : Nat := (deadline.getD 0) % 2 ^ 32
def futex_sleep (address : Nat) (deadline : Option Nat) (t : Task) : Task :=
  { t with
    futex_wait_address := address, futex_wait_active := true, wakeup_time := deadline_tick deadline,
    state := .INTERRUPTIBLE, call := .futex address deadline 0 }
def futex_timed_out (s : System) (deadline : Option Nat) (t : Task) : Bool :=
  t.futex_wait_active && deadline_tick deadline ≠ 0 && passed (get_system_ticks s) (deadline_tick deadline)

/-- The section that ends a futex wait. -/
def futex_return (t : Task) : Task :=
  { t with futex_wait_active := false, futex_wait_address := 0, wakeup_time := 0, call := .other }

/-- The tasks that a wake of this address looks for. -/
def futex_sleeper (process address : Nat) (t : Task) : Bool :=
  t.process = process && t.futex_wait_active && decide (t.futex_wait_address = address) && asleep t
def record_wake (t : Task) : Task :=
  match t.call with
  | .futex address deadline counted => { t with call := .futex address deadline (counted + 1) }
  | _ => t
def futex_wake_task (t : Task) : Task :=
  record_wake { t with futex_wait_active := false, futex_wait_address := 0, wakeup_time := 0, state := .READY }

/-- The loop of `task_futex_wake`, with the number woken. -/
def futex_wake_loop (process address : Nat) : List Task → Nat → List Task × Nat
  | [], _ => ([],0)
  | t :: tasks, 0 => (t :: tasks,0)
  | t :: tasks, n+1 =>
    if futex_sleeper process address t then
      let rest := futex_wake_loop process address tasks n
      (futex_wake_task t :: rest.1,rest.2 + 1)
    else
      let rest := futex_wake_loop process address tasks (n + 1)
      (t :: rest.1,rest.2)

def task_futex_wake (process address max_count : Nat) (s : System) : System × Nat :=
  if address = 0 then (s,0)
  else
    let loop := futex_wake_loop process address (s.tasks.take MAX_TASKS) max_count
    ({ s with tasks := loop.1 ++ s.tasks.drop MAX_TASKS },loop.2)

/-! ### Deadlines -/

/-- `scheduler_scan_waiters` on the deadline of a task. -/
def scan_task (now : Nat) (t : Task) : Task :=
  if asleep t && decide (0 < t.wakeup_time ∧ t.wakeup_time ≤ now) then { t with wakeup_time := 0, state := .READY } else t
def scheduler_scan_waiters (s : System) : System :=
  { s with tasks := for_tasks (scan_task (get_system_ticks s)) s.tasks }

/-! ### The system -/

def new_task (process : Nat) : Task := ⟨process,.READY,0,false,[],false,0,.other⟩

/-- A task outside the two waits, which may start one. -/
def outside (t : Task) : Prop :=
  t.state = .RUNNING ∧ (t.call = .other ∨ ∃ generation missed, t.call = .scanning generation missed)
def System.first : System := ⟨0,1,[],fun _ _ => 0⟩

inductive Label
  | create (process : Nat)
  | move (state : TaskState)
  | sleep (state : TaskState)
  | reap
  | read_generation
  | poll_wait (slept : Bool)
  | poll_return
  | notify (notice : Notice)
  | futex_wait
  | futex_return (timed_out : Bool)
  | futex_wake (process address max_count woken : Nat)
  | store (process address value : Nat)
  | tick
  | scan

/-- One section of one party; tasks are named by place. -/
inductive Step (s : System) : Label → System → Prop
  /-- `add_task_to_list_locked`; `task_count` was looked at earlier, and not under this lock. -/
  | create {process : Nat} : Step s (.create process) { s with tasks := s.tasks ++ [new_task process] }
  /-- Dispatch, preemption, stops, exits and wakes by anyone else. -/
  | move {before after : List Task} {t : Task} {state : TaskState} :
      s.tasks = before ++ t :: after → state ≠ .INTERRUPTIBLE → state ≠ .UNINTERRUPTIBLE →
      Step s (.move state) { s with tasks := before ++ { t with state := state } :: after }
  /-- Every other way to sleep, with any deadline. -/
  | sleep {before after : List Task} {t : Task} {state : TaskState} {time : Nat} :
      s.tasks = before ++ t :: after → outside t →
      Step s (.sleep state)
        { s with tasks := before ++ { t with state := state, wakeup_time := time, call := .other } :: after }
  | reap {before after : List Task} {t : Task} :
      s.tasks = before ++ t :: after → t.state = .ZOMBIE → Step s .reap { s with tasks := before ++ after }
  | read_generation {before after : List Task} {t : Task} :
      s.tasks = before ++ t :: after → outside t →
      Step s .read_generation { s with tasks := before ++ { t with call := .scanning s.poll_generation [] } :: after }
  | poll_wait {before after : List Task} {t : Task} {keys : List Nat} {generation deadline : Nat}
      {missed : List Notice} {signal : Bool} :
      s.tasks = before ++ t :: after → t.state = .RUNNING → t.call = .scanning generation missed →
      poll_wait_sleeps s generation deadline signal = true →
      Step s (.poll_wait true) { s with tasks := before ++ poll_sleep keys deadline missed t :: after }
  | poll_wait_refused {before after : List Task} {t : Task} {generation deadline : Nat}
      {missed : List Notice} {signal : Bool} :
      s.tasks = before ++ t :: after → t.state = .RUNNING → t.call = .scanning generation missed →
      poll_wait_sleeps s generation deadline signal = false →
      Step s (.poll_wait false) { s with tasks := before ++ { t with call := .other } :: after }
  | poll_return {before after : List Task} {t : Task} {keys : List Nat} {missed heard : List Notice} :
      s.tasks = before ++ t :: after → t.state = .RUNNING → t.call = .polling keys missed heard →
      Step s .poll_return { s with tasks := before ++ poll_return t :: after }
  | notify {notice : Notice} : Step s (.notify notice) (task_poll_notify notice s)
  | futex_wait {before after : List Task} {t : Task} {address expected : Nat} {deadline : Option Nat} :
      s.tasks = before ++ t :: after → outside t → address ≠ 0 → s.word t.process address = expected →
      (∀ d, deadline = some d → d ≤ s.ticks + (2 ^ 31 - 1)) →
      Step s .futex_wait { s with tasks := before ++ futex_sleep address deadline t :: after }
  | futex_return {before after : List Task} {t : Task} {address counted : Nat} {deadline : Option Nat} :
      s.tasks = before ++ t :: after → t.state = .RUNNING → t.call = .futex address deadline counted →
      Step s (.futex_return (futex_timed_out s deadline t)) { s with tasks := before ++ futex_return t :: after }
  | futex_wake {process address max_count : Nat} :
      Step s (.futex_wake process address max_count (task_futex_wake process address max_count s).2)
        (task_futex_wake process address max_count s).1
  | store {process address value : Nat} :
      Step s (.store process address value)
        { s with word := fun p a => if p = process ∧ a = address then value else s.word p a }
  | tick : Step s .tick { s with ticks := s.ticks + 1 }
  | scan : Step s .scan (scheduler_scan_waiters s)

/-- A task is added to a list that has room for it. -/
def Bounded (s : System) : Label → Prop
  | .create _ => s.tasks.length < MAX_TASKS
  | _ => True
def Careful (s : System) (l : Label) (t : System) : Prop := Bounded s l ∧ Step s l t

/-- With `MAX_TASKS` tasks before it, one more task runs. -/
def crowded : System :=
  { System.first with tasks := List.replicate MAX_TASKS (new_task 1) ++ [{ new_task 1 with state := .RUNNING }] }

theorem crowded_reached : Reachable Step System.first crowded := by
  have created (n : Nat) : Reachable Step System.first { System.first with tasks := List.replicate n (new_task 1) } := by
    induction n with
    | zero => exact .refl _
    | succ n ih =>
      rw [List.replicate_succ']
      exact ih.trans (.single .create)
  have moved := (created (MAX_TASKS + 1)).trans
    (.single (.move (List.replicate_succ' : _ = _ ++ new_task 1 :: []) (by decide : TaskState.RUNNING ≠ _) (by decide)))
  exact moved

end ArmOS.Sleepers

