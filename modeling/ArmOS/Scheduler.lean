import ArmOS.RunQueue
import ArmOS.Runs

/-!
The scheduler; every section under `task_lock` is one step. A CPU that switches
makes its task `READY`, claims another, checks it, publishes it or puts it back, and
then saves the old context; `running_cpu` names the owner of a task meanwhile. Tasks
are numbers, never reused; memory is not overwritten (`task_header_plausible`), and
valid stacks are a parameter.
-/
namespace ArmOS.Scheduler
open RunQueue Function
open Links (follow)

inductive TaskState
  | READY | RUNNING | BLOCKED | ZOMBIE | TERMINATED | INTERRUPTIBLE | UNINTERRUPTIBLE | STOPPED
  deriving DecidableEq, Repr

/-- `TASK_ZOMBIE` or `TASK_TERMINATED`. -/
def TaskState.dead (state : TaskState) : Bool := state = .ZOMBIE ∨ state = .TERMINATED

/-- CPUs, idle tasks, and `task_stack_metadata_valid`. -/
structure Machine where
  cpus : Nat
  idle_tasks : Nat → Option Nat
  idle_task : Option Nat
  stack_valid : Nat → Bool

/-- The tasks' fields, the run queue, the task list and the ticks. -/
structure Kernel where
  state : Nat → TaskState
  running_cpu : Nat → Option Nat
  priority : Nat → Nat
  sched_debt : Nat → Nat
  queue : Queue
  tasks : List Nat
  ticks : Nat

variable (m : Machine)

def task_is_idle_task (task : Nat) : Bool :=
  (List.range m.cpus).any (fun cpu => m.idle_tasks cpu = some task) || m.idle_task = some task
def task_idle_on_cpu (cpu : Nat) : Option Nat := if m.cpus ≤ cpu then none else m.idle_tasks cpu

/-- The idle task of the CPU, or else that of the boot CPU. -/
def local_idle (cpu : Nat) : Option Nat := (task_idle_on_cpu m cpu).or m.idle_task

def Kernel.view (k : Kernel) : Tasks where
  list := k.tasks
  ready := fun task => k.state task = .READY && k.running_cpu task = none && m.stack_valid task
  idle := task_is_idle_task m
  level := fun task => task_runqueue_priority (k.priority task)
  now := k.ticks

def Kernel.enqueue (k : Kernel) (task : Nat) : Kernel :=
  { k with queue := runqueue_enqueue_tail_locked (k.view m) k.queue task }
def Kernel.remove (k : Kernel) (task : Nat) : Kernel :=
  { k with queue := runqueue_remove_locked (k.view m) k.queue task }

/-! ### States -/

def task_make_ready_under_lock (k : Kernel) (cpu task : Nat) : Kernel :=
  if (k.state task).dead then k
  else if k.state task = .READY ∧ k.running_cpu task ≠ none then k
  else if k.state task = .RUNNING ∧ k.running_cpu task ≠ none ∧ k.running_cpu task ≠ some cpu then k
  else ({ k with state := update k.state task .READY } : Kernel).enqueue m task

/-- `task_set_state`; other ways to sleep lack the first two cases. -/
def task_set_state (k : Kernel) (cpu : Nat) (current : Option Nat) (task : Nat) (state : TaskState) : Kernel :=
  if state = .READY then task_make_ready_under_lock m k cpu task
  else if state = .RUNNING ∧ ((k.state task).dead ∨ current ≠ some task ∨
      (k.running_cpu task ≠ none ∧ k.running_cpu task ≠ some cpu)) then k
  else if k.state task = .RUNNING ∧ k.running_cpu task ≠ none ∧ k.running_cpu task ≠ some cpu ∧ state ≠ .RUNNING then k
  else
    { k.remove m task with
      state := update k.state task state
      running_cpu := if state = .RUNNING then update k.running_cpu task (some cpu) else k.running_cpu
      sched_debt := if state = .RUNNING then k.sched_debt else update k.sched_debt task 0 }

def remove_from_ready_queue (k : Kernel) (task : Nat) : Kernel :=
  { k.remove m task with
    state := if k.state task = .READY then update k.state task .BLOCKED else k.state }

def add_task_to_list_locked (k : Kernel) (task : Nat) : Kernel :=
  if task ∈ k.tasks then k
  else
    { k with
      tasks := k.tasks ++ [task]
      queue := { k.queue with
        rq_next := update k.queue.rq_next task none
        rq_prev := update k.queue.rq_prev task none
        rq_priority := update k.queue.rq_priority task TASK_PRIORITY_LEVELS } }

def add_to_ready_queue (k : Kernel) (cpu task : Nat) : Kernel :=
  if (k.state task).dead then k else task_make_ready_under_lock m (add_task_to_list_locked k task) cpu task

/-- The section of `task_set_priority`. -/
def task_set_priority (k : Kernel) (task priority : Nat) : Kernel :=
  if runqueue_contains_locked k.queue task then
    let k := { k.remove m task with priority := update k.priority task priority }
    if k.state task = .READY then k.enqueue m task else k
  else { k with priority := update k.priority task priority }

def remove_task_from_list (k : Kernel) (task : Nat) : Kernel :=
  { k.remove m task with tasks := k.tasks.erase task }

/-! ### Claiming and publishing a task -/

def scheduler_mark_running_locked (k : Kernel) (cpu task : Nat) : Option Kernel :=
  if k.state task = .RUNNING ∧ k.running_cpu task = some cpu then some k
  else if (k.state task ≠ .READY ∧ ¬ (task_is_idle_task m task ∧ k.state task = .BLOCKED)) ∨
      (k.running_cpu task ≠ none ∧ k.running_cpu task ≠ some cpu) then none
  else
    some { k.remove m task with
      state := update k.state task .RUNNING
      running_cpu := update k.running_cpu task (some cpu) }

def scheduler_claim_ready_locked (k : Kernel) (cpu task : Nat) : Option Kernel :=
  if k.state task ≠ .READY ∨ k.running_cpu task ≠ none then none
  else some { k.remove m task with running_cpu := update k.running_cpu task (some cpu) }

/-- `scheduler_validate_switch`; `sp_valid` is the stack check. -/
def scheduler_validate_switch (k : Kernel) (cpu next : Nat) (sp_valid : Bool) : Bool :=
  m.stack_valid next && (k.running_cpu next = none || k.running_cpu next = some cpu) && sp_valid
def scheduler_restore_current_if_needed (k : Kernel) (cpu : Nat) : Option Nat → Kernel
  | none => k
  | some current =>
    if k.state current = .READY then (scheduler_mark_running_locked m k cpu current).getD k else k

def scheduler_rollback_uncommitted_next (k : Kernel) (cpu : Nat) (current : Option Nat) (next : Nat) : Kernel :=
  if current = some next ∨ task_is_idle_task m next then k
  else if (k.state next = .READY ∨ k.state next = .RUNNING) ∧ k.running_cpu next = some cpu then
    task_make_ready_under_lock m { k with running_cpu := update k.running_cpu next none } cpu next
  else k

def scheduler_prepare_current_for_switch (k : Kernel) (cpu : Nat) : Option Nat → Kernel
  | none => k
  | some current => if k.state current = .RUNNING then task_make_ready_under_lock m k cpu current else k

/-- A dead task gives up its CPU when the next one is committed. -/
def release_dead (k : Kernel) (cpu : Nat) : Option Nat → Kernel
  | none => k
  | some current =>
    if (k.state current).dead ∧ k.running_cpu current = some cpu then
      { k with running_cpu := update k.running_cpu current none }
    else k

/-- `scheduler_commit_next_for_switch`, and whether to publish. -/
def scheduler_commit_next_for_switch (k : Kernel) (cpu : Nat) (current : Option Nat) (next : Nat) : Kernel × Bool :=
  let k := if current = some next then k else release_dead k cpu current
  if (k.state next).dead = false ∧ (k.running_cpu next = none ∨ k.running_cpu next = some cpu) then
    match scheduler_mark_running_locked m k cpu next with
    | some k => (k,true)
    | none => (k,false)
  else (k,false)

def task_context_save_complete (k : Kernel) (cpu task : Nat) : Kernel :=
  if k.state task ≠ .RUNNING ∧ k.running_cpu task = some cpu then
    { k with running_cpu := update k.running_cpu task none }
  else k

/-! ### Choosing a task -/

def SCHED_AGING_STEP_TICKS : Nat := 20
def SCHED_AGING_MAX_BONUS : Nat := 8
def SCHED_DEBT_DECAY_TICKS : Nat := 4
def waited (k : Kernel) (task now : Nat) : Nat :=
  if k.queue.ready_since_tick task = 0 ∨ now < k.queue.ready_since_tick task then 0
  else now - k.queue.ready_since_tick task
def scheduler_effective_priority_locked (k : Kernel) (task now : Nat) : Nat :=
  let base := task_runqueue_priority (k.priority task)
  base - min (min (waited k task now / SCHED_AGING_STEP_TICKS) SCHED_AGING_MAX_BONUS) base
def scheduler_debt_score_locked (k : Kernel) (task now : Nat) : Nat :=
  k.sched_debt task - waited k task now / SCHED_DEBT_DECAY_TICKS
structure Candidate where
  (task prio debt waited : Nat)

/-- The first candidate, or one better than the best. -/
def Candidate.before (candidate best : Candidate) : Bool :=
  candidate.prio < best.prio || (candidate.prio = best.prio && candidate.debt < best.debt) ||
    (candidate.prio = best.prio && candidate.debt = best.debt && best.waited < candidate.waited)

/-- A task in the scan; one of a CPU is passed over. -/
def consider (k : Kernel) (now : Nat) (best : Option Candidate) (task : Nat) : Option Candidate :=
  if k.running_cpu task ≠ none then best
  else
    let candidate : Candidate :=
      ⟨task,scheduler_effective_priority_locked k task now,scheduler_debt_score_locked k task now,waited k task now⟩
    match best with
    | none => some candidate
    | some best => if candidate.before best then some candidate else some best

/-- The tasks on the lists, in scanning order. -/
def candidates (k : Kernel) : List Nat :=
  (List.range TASK_PRIORITY_LEVELS).flatMap fun prio => follow k.queue.rq_next MAX_TASKS (k.queue.head prio)
def scan (k : Kernel) : Option Candidate := (candidates k).foldl (consider k k.ticks) none

/-- The loop of `schedule_next_task`: the task claimed. -/
def pick_loop (cpu : Nat) : Nat → Kernel → Kernel × Option Nat
  | 0, k => (k,none)
  | rounds + 1, k =>
    if k.queue.nr_running = 0 then (k,none)
    else
      match scan k with
      | none => (k,none)
      | some best =>
        if k.state best.task = .READY ∧ m.stack_valid best.task then
          let k := { k with sched_debt := update k.sched_debt best.task best.debt }
          match scheduler_claim_ready_locked m k cpu best.task with
          | some k => (k,some best.task)
          | none => pick_loop cpu rounds k
        else pick_loop cpu rounds (k.remove m best.task)

/-- `schedule_next_task`; `none` is the panic. -/
def schedule_next_task (k : Kernel) (cpu : Nat) : Option (Kernel × Nat) :=
  let k := if runqueue_validate_locked k.queue then k
    else { k with queue := runqueue_rebuild_locked (k.view m) none k.queue }
  match pick_loop m cpu (MAX_TASKS + 1) k with
  | (k,some task) => some (k,task)
  | (k,none) =>
    match local_idle m cpu with
    | none => none
    | some idle => (scheduler_mark_running_locked m k cpu idle).map fun k => (k,idle)

/-! ### The system -/

inductive Phase
  | off
  /-- It executes its current task outside the scheduler. -/
  | running
  /-- In `schedule`: whether to save the current context. -/
  | entered (save : Bool)
  | prepared (save : Bool)
  | chosen (save : Bool) (next : Nat)
  | validated (save : Bool) (next : Nat)
  | refused (save : Bool) (next : Nat)
  | restoring (restore : Bool)
  /-- In `switch_to_idle`, with no way back to its task. -/
  | leaving
  | replacing (claimed : Nat)
  /-- The claimed task is to be put back for the idle task. -/
  | discarding (claimed : Nat)
  | leaving_with (claimed : Nat) (next : Option Nat)
  /-- The next task could not be published. -/
  | dropping (claimed : Nat) (held : Bool)
  | idling
  /-- The next task is published; the old one is on its stack. -/
  | switching (old : Option Nat) (save : Bool)
  deriving DecidableEq, Repr

structure System where
  kernel : Kernel
  current : Nat → Option Nat
  phase : Nat → Phase

inductive Label
  | sched_start (cpu : Nat)
  | task_start_secondary_scheduler (cpu : Nat)
  | add_to_ready_queue (cpu task : Nat)
  | task_wake (cpu task : Nat)
  | task_set_priority (task priority : Nat)
  | task_set_state (cpu : Nat) (state : TaskState)
  | remove_from_ready_queue (cpu task : Nat)
  | task_set_terminated (cpu task : Nat)
  /-- `scheduler_scan_waiters` ends a zombie without a CPU. -/
  | collect (task : Nat)
  | remove_task_from_list (task : Nat)
  | exit (cpu : Nat)
  | exit_thread (cpu : Nat)
  | yield (cpu : Nat)
  | enter (cpu : Nat)
  | prepare (cpu : Nat)
  | choose (cpu : Nat)
  | validate (cpu : Nat) (sp_valid : Bool)
  | look (cpu : Nat)
  | commit (cpu : Nat)
  | rollback (cpu : Nat)
  | restore (cpu : Nat)
  | save_complete (cpu : Nat)
  /-- The timer: the time, and the debt of a task. -/
  | tick (ticks task debt : Nat)

def System.at (s : System) (cpu : Nat) (k : Kernel) (phase : Phase) : System :=
  { s with kernel := k, phase := update s.phase cpu phase }

/-- The CPU has published a task. -/
def System.publish (s : System) (cpu : Nat) (k : Kernel) (next : Nat) (save : Bool) : System where
  kernel := k
  current := update s.current cpu (some next)
  phase := update s.phase cpu (.switching (s.current cpu) save)

/-- The step of a CPU that has chosen a task. -/
def choose (s : System) (cpu : Nat) : Option System :=
  match s.phase cpu with
  | .prepared save =>
    (schedule_next_task m s.kernel cpu).map fun r =>
      s.at cpu r.1 (if s.current cpu = some r.2 then .restoring true else .chosen save r.2)
  | .leaving => (schedule_next_task m s.kernel cpu).map fun r => s.at cpu r.1 (.replacing r.2)
  | _ => none

/-- `switch_to_idle`: the idle task replaces one that cannot be taken. -/
def look (s : System) (cpu : Nat) : Option System :=
  match s.phase cpu with
  | .replacing claimed =>
    if s.current cpu = some claimed ∨ (s.kernel.state claimed).dead ∨ m.stack_valid claimed = false then
      if local_idle m cpu = some claimed then some (s.at cpu s.kernel (.leaving_with claimed (some claimed)))
      else some (s.at cpu s.kernel (.discarding claimed))
    else some (s.at cpu s.kernel (.leaving_with claimed (some claimed)))
  | _ => none

def commit (s : System) (cpu : Nat) : Option System :=
  match s.phase cpu with
  | .validated save next =>
    let r := scheduler_commit_next_for_switch m s.kernel cpu (s.current cpu) next
    if r.2 then some (s.publish cpu r.1 next save) else some (s.at cpu r.1 (.refused save next))
  | .leaving_with claimed (some next) =>
    let r := scheduler_commit_next_for_switch m s.kernel cpu (s.current cpu) next
    if r.2 then some (s.publish cpu r.1 next false) else some (s.at cpu r.1 (.dropping claimed (next = claimed)))
  | .leaving_with claimed none =>
    some (s.at cpu (release_dead s.kernel cpu (s.current cpu)) (.dropping claimed false))
  | .idling =>
    match local_idle m cpu with
    | none => none
    | some idle =>
      let r := scheduler_commit_next_for_switch m s.kernel cpu (s.current cpu) idle
      if r.2 then some (s.publish cpu r.1 idle false) else none
  | _ => none

def rollback (s : System) (cpu : Nat) : Option System :=
  match s.phase cpu with
  | .refused save next =>
    some (s.at cpu (scheduler_rollback_uncommitted_next m s.kernel cpu (s.current cpu) next) (.restoring save))
  | .discarding claimed =>
    some (s.at cpu (scheduler_rollback_uncommitted_next m s.kernel cpu (s.current cpu) claimed)
      (.leaving_with claimed (local_idle m cpu)))
  | .dropping claimed _ =>
    some (s.at cpu (scheduler_rollback_uncommitted_next m s.kernel cpu (s.current cpu) claimed) .idling)
  | _ => none

/-- The current task of a CPU that is outside the scheduler. -/
def System.executing (s : System) (cpu : Nat) : Option Nat :=
  if s.phase cpu = .running then s.current cpu else none

def step (s : System) : Label → Option System
  | .sched_start cpu => if s.phase cpu = .off then some (s.at cpu s.kernel .leaving) else none
  | .task_start_secondary_scheduler cpu =>
    if s.phase cpu = .off then
      (task_idle_on_cpu m cpu).bind fun idle =>
        (scheduler_mark_running_locked m s.kernel cpu idle).map fun k => s.publish cpu k idle false
    else none
  | .add_to_ready_queue cpu task => some { s with kernel := add_to_ready_queue m s.kernel cpu task }
  | .task_wake cpu task =>
    if task ∈ s.kernel.tasks then some { s with kernel := task_make_ready_under_lock m s.kernel cpu task } else none
  | .task_set_priority task priority => some { s with kernel := task_set_priority m s.kernel task priority }
  | .task_set_state cpu state =>
    if state.dead then none
    else
      (s.executing cpu).map fun task =>
        { s with kernel := task_set_state m s.kernel cpu (s.current cpu) task state }
  | .remove_from_ready_queue _ task => some { s with kernel := remove_from_ready_queue m s.kernel task }
  | .task_set_terminated cpu task =>
    if s.current cpu = some task then none
    else some { s with kernel := task_set_state m s.kernel cpu (s.current cpu) task .TERMINATED }
  | .collect task =>
    if s.kernel.state task = .ZOMBIE ∧ s.kernel.running_cpu task = none then
      some { s with kernel := { s.kernel with state := update s.kernel.state task .TERMINATED } }
    else none
  | .remove_task_from_list task =>
    if s.kernel.state task = .TERMINATED then some { s with kernel := remove_task_from_list m s.kernel task } else none
  | .exit cpu =>
    (s.executing cpu).map fun task =>
      s.at cpu { s.kernel with
        state := update s.kernel.state task .ZOMBIE
        sched_debt := update s.kernel.sched_debt task 0 } .leaving
  | .exit_thread cpu =>
    (s.executing cpu).map fun task =>
      s.at cpu { s.kernel.remove m task with
        state := update s.kernel.state task .ZOMBIE
        sched_debt := update s.kernel.sched_debt task 0 } .leaving
  | .yield cpu =>
    if s.phase cpu = .running then
      some { s with kernel := scheduler_prepare_current_for_switch m s.kernel cpu (s.current cpu) }
    else none
  | .enter cpu =>
    (s.executing cpu).map fun task => s.at cpu s.kernel (.entered (!(s.kernel.state task).dead))
  | .prepare cpu =>
    match s.phase cpu with
    | .entered save =>
      some (s.at cpu
        (if save then scheduler_prepare_current_for_switch m s.kernel cpu (s.current cpu) else s.kernel) (.prepared save))
    | _ => none
  | .choose cpu => choose m s cpu
  | .validate cpu sp_valid =>
    match s.phase cpu with
    | .chosen save next =>
      -- without a context to save its stack pointer is not checked
      some (s.at cpu s.kernel (if scheduler_validate_switch m s.kernel cpu next (sp_valid || !save) then
        .validated save next else .refused save next))
    | _ => none
  | .look cpu => look m s cpu
  | .commit cpu => commit m s cpu
  | .rollback cpu => rollback m s cpu
  | .restore cpu =>
    match s.phase cpu with
    | .restoring restore =>
      some (s.at cpu
        (if restore then scheduler_restore_current_if_needed m s.kernel cpu (s.current cpu) else s.kernel) .running)
    | _ => none
  | .save_complete cpu =>
    match s.phase cpu with
    | .switching (some old) true => some (s.at cpu (task_context_save_complete s.kernel cpu old) .running)
    | .switching _ _ => some (s.at cpu s.kernel .running)
    | _ => none
  | .tick ticks task debt =>
    some { s with kernel := { s.kernel with ticks := ticks, sched_debt := update s.kernel.sched_debt task debt } }

def Step (s : System) (l : Label) (t : System) : Prop := step m s l = some t

/-- Tasks made but not published, and all CPUs off. -/
def first (priority : Nat → Nat) : System where
  kernel :=
    { state := fun _ => .BLOCKED
      running_cpu := fun _ => none
      priority
      sched_debt := fun _ => 0
      queue :=
        { head := fun _ => none
          tail := fun _ => none
          count := fun _ => 0
          nr_running := 0
          rq_next := fun _ => none
          rq_prev := fun _ => none
          rq_priority := fun _ => TASK_PRIORITY_LEVELS
          ready_since_tick := fun _ => 0 }
      tasks := []
      ticks := 0 }
  current := fun _ => none
  phase := fun _ => .off

end ArmOS.Scheduler

