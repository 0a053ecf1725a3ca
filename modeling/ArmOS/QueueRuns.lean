import ArmOS.Owners
import Mathlib

/-!
Who is on the run queue: a task that is no idle task exactly where it is `READY` and
unclaimed, on the list of its priority. Every section keeps this, unless another CPU
blocks or ends a claimed task, which its next wake-up puts on a list.
-/
namespace ArmOS.QueueRuns
open RunQueue Scheduler Owners Runs List Option
open Function (update update_self update_of_ne update_eq_self)

variable {m : Machine} {k k' : Kernel} {cpu task : Nat}

def on_list (k : Kernel) (task : Nat) : Bool := runqueue_contains_locked k.queue task

/-- The lists are in order, by priority, without idle tasks. -/
structure Sorted (m : Machine) (k : Kernel) : Prop where
  lists : ∃ queues, Represents k.queue queues
  level : ∀ task, on_list k task = true → k.queue.rq_priority task = task_runqueue_priority (k.priority task)
  working : ∀ task, on_list k task = true → task_is_idle_task m task = false

/-- Lists, priorities, states and tasks are the same. -/
structure SameLists (k k' : Kernel) : Prop where
  queue : k'.queue = k.queue
  priority : k'.priority = k.priority
  state : k'.state = k.state
  tasks : k'.tasks = k.tasks

theorem Sorted.congr (sorted : Sorted m k) (queue : k'.queue = k.queue) (priority : k'.priority = k.priority) :
    Sorted m k' := by
  obtain ⟨lists,level,working⟩ := sorted
  unfold on_list at level working
  rw [← queue,← priority] at level
  rw [← queue] at lists working
  exact ⟨lists,level,working⟩

/-! ### The sections -/

section
variable (sorted : Sorted m k)
include sorted

theorem enqueue_on_list (task other : Nat) : on_list (k.enqueue m task) other =
    if other = task ∧ task_is_idle_task m task = false then true else on_list k other := by
  obtain ⟨queues,represents⟩ := sorted.lists
  have small : (k.view m).level task < TASK_PRIORITY_LEVELS := task_runqueue_priority_lt _
  cases idle : task_is_idle_task m task with
  | true =>
    have same : (k.enqueue m task).queue = k.queue := if_pos idle
    rw [if_neg (by simp),on_list,same]
    rfl
  | false =>
    have contains := @enqueue_contains k.queue queues task (k.view m) represents small idle other
    simpa [on_list,Kernel.enqueue] using contains

theorem enqueue_sorted (task : Nat) : Sorted m (k.enqueue m task) := by
  obtain ⟨queues,represents⟩ := sorted.lists
  have small : (k.view m).level task < TASK_PRIORITY_LEVELS := task_runqueue_priority_lt _
  cases idle : task_is_idle_task m task with
  | true =>
    have same : (k.enqueue m task).queue = k.queue := if_pos idle
    exact sorted.congr same rfl
  | false =>
    cases inside : runqueue_contains_locked k.queue task with
    | true => exact sorted.congr (enqueue_present represents inside) rfl
    | false =>
      have priority := @enqueue_priority k.queue queues task (k.view m) represents inside small idle
      have before : ∀ other ≠ task, on_list (k.enqueue m task) other = true → on_list k other = true := by
        intro other different there
        rwa [enqueue_on_list sorted,if_neg (by simp [different])] at there
      refine ⟨⟨_,enqueue_represents represents inside small idle⟩,?_,?_⟩
      · intro other there
        change (runqueue_enqueue_tail_locked (k.view m) k.queue task).rq_priority other = _
        rw [priority]
        by_cases same : other = task
        · rw [same,update_self]
          rfl
        rw [update_of_ne same]
        exact sorted.level other (before other same there)
      intro other there
      by_cases same : other = task
      · rw [same,idle]
      exact sorted.working other (before other same there)

theorem remove_on_list (task other : Nat) :
    on_list (k.remove m task) other = if other = task then false else on_list k other := by
  obtain ⟨queues,represents⟩ := sorted.lists
  exact RunQueue.remove_contains represents other

theorem remove_sorted (task : Nat) : Sorted m (k.remove m task) := by
  have contains := remove_on_list sorted task
  obtain ⟨queues,represents⟩ := sorted.lists
  cases inside : runqueue_contains_locked k.queue task with
  | false =>
    have same : (k.remove m task).queue = k.queue := remove_absent inside
    exact sorted.congr same rfl
  | true =>
    refine ⟨⟨_,remove_represents represents inside⟩,?_,?_⟩
    · intro other there
      rw [contains] at there
      split at there
      · cases there
      rename_i apart
      change (runqueue_remove_locked (k.view m) k.queue task).rq_priority other = _
      rw [remove_priority represents inside,update_of_ne apart]
      exact sorted.level other there
    · grind [Sorted.working]

end

/-- A section touches one task's lists and state. -/
structure Touches (m : Machine) (k k' : Kernel) (task : Nat) : Prop where
  sorted : Sorted m k'
  tasks : k'.tasks = k.tasks
  on_list : ∀ other, other ≠ task → on_list k' other = on_list k other
  state : ∀ other, other ≠ task → k'.state other = k.state other

section
variable (sorted : Sorted m k)
include sorted

theorem Touches.refl (task : Nat) : Touches m k k task := ⟨sorted,rfl,fun _ _ => rfl,fun _ _ => rfl⟩

theorem Touches.removed {state : TaskState}
    (queue : k'.queue = (k.remove m task).queue) (priority : k'.priority = k.priority) (tasks : k'.tasks = k.tasks)
    (states : k'.state = update k.state task state) : Touches m k k' task ∧ QueueRuns.on_list k' task = false := by
  have contains := remove_on_list sorted task
  have same : ∀ other, QueueRuns.on_list k' other = QueueRuns.on_list (k.remove m task) other := fun other => by
    rw [QueueRuns.on_list,queue]
    rfl
  refine ⟨⟨(remove_sorted sorted task).congr queue priority,tasks,fun other apart => ?_,fun other apart => ?_⟩,?_⟩
  · rw [same,contains,if_neg apart]
  · rw [states,update_of_ne apart]
  · rw [same,contains,if_pos rfl]

/-- A task is made ready, or is dead, claimed or running. -/
theorem make_ready_touches (cpu task : Nat) :
    Touches m k (task_make_ready_under_lock m k cpu task) task ∧
      (task_make_ready_under_lock m k cpu task = k ∨
        ((task_make_ready_under_lock m k cpu task).state task = .READY ∧ (k.state task).dead = false ∧
          (k.state task = .READY → k.running_cpu task = none) ∧
          on_list (task_make_ready_under_lock m k cpu task) task =
            if task_is_idle_task m task = false then true else on_list k task)) := by
  unfold task_make_ready_under_lock
  split
  · exact ⟨.refl sorted task,.inl rfl⟩
  rename_i alive
  split
  · exact ⟨.refl sorted task,.inl rfl⟩
  rename_i unclaimed
  split
  · exact ⟨.refl sorted task,.inl rfl⟩
  have ready : Sorted m { k with state := update k.state task .READY } := sorted.congr rfl rfl
  have contains := enqueue_on_list ready task
  refine ⟨⟨enqueue_sorted ready task,rfl,fun other apart => ?_,fun other apart => ?_⟩,.inr ⟨?_,?_,?_,?_⟩⟩
  · rw [contains,if_neg fun both => apart both.1]
    rfl
  · exact update_of_ne apart _ _
  · exact update_self ..
  · simpa using alive
  · intro was
    by_contra owned
    exact unclaimed ⟨was,owned⟩
  rw [contains]
  simp only [true_and]
  rfl

theorem mark_running_touches (linked : on_list k task = true → k.state task = .READY)
    (marked : scheduler_mark_running_locked m k cpu task = some k') :
    Touches m k k' task ∧ on_list k' task = false ∧ k'.state task = .RUNNING := by
  unfold scheduler_mark_running_locked at marked
  split at marked
  · rename_i already
    cases marked
    refine ⟨.refl sorted task,?_,already.1⟩
    by_contra there
    have ready := linked (by simpa using there)
    rw [already.1] at ready
    cases ready
  split at marked
  · cases marked
  cases marked
  have removed := @Touches.removed m k { k.remove m task with
    state := update k.state task .RUNNING
    running_cpu := update k.running_cpu task (some cpu) } task sorted .RUNNING rfl rfl rfl rfl
  exact ⟨removed.1,removed.2,update_self ..⟩

end

/-! ### Choosing a task -/

theorem scan_mem {best : Candidate} (found : scan k = some best) :
    best.task ∈ candidates k ∧ k.running_cpu best.task = none := by
  have step : ∀ (list : List Nat) (so_far : Option Candidate),
      (∀ best, so_far = some best → best.task ∈ candidates k ∧ k.running_cpu best.task = none) →
      (∀ task ∈ list, task ∈ candidates k) → ∀ best, list.foldl (consider k k.ticks) so_far = some best →
      best.task ∈ candidates k ∧ k.running_cpu best.task = none := by
    intro list
    induction list with
    | nil => exact fun so_far good _ => good
    | cons task rest ih =>
      intro so_far good inside
      refine ih _ ?_ (forall_mem_cons.mp inside).2
      intro best chosen
      unfold consider at chosen
      grind
  exact step (candidates k) none nofun (fun _ member => member) best found

theorem candidates_on_list (sorted : Sorted m k) (member : task ∈ candidates k) : on_list k task = true := by
  obtain ⟨queues,represents⟩ := sorted.lists
  obtain ⟨prio,small,inside⟩ := mem_flatMap.mp member
  have small := mem_range.mp small
  exact represents.contains_iff.mpr ⟨prio,small,Links.follow_mem (represents.linked prio small).forwards inside⟩

/-- A CPU claims a task of the lists. -/
structure ClaimsFrom (m : Machine) (k k' : Kernel) (task : Nat) : Prop where
  touches : Touches m k k' task
  was_there : on_list k task = true
  free : k.running_cpu task = none
  out : on_list k' task = false
  state : k'.state task = k.state task

section
variable (sorted : Sorted m k)
  (good : ∀ task, on_list k task = true → k.state task = .READY ∧ m.stack_valid task = true)
include sorted good

theorem pick_loop_claims (cpu rounds : Nat) :
    (pick_loop m cpu rounds k = (k,none)) ∨ ∃ k' task, pick_loop m cpu rounds k = (k',some task) ∧
    ClaimsFrom m k k' task := by
  cases rounds with
  | zero => exact .inl rfl
  | succ rounds =>
    unfold pick_loop
    split
    · exact .inl rfl
    split
    · exact .inl rfl
    rename_i best found
    obtain ⟨member,free⟩ := scan_mem found
    have there := candidates_on_list sorted member
    obtain ⟨ready,valid⟩ := good best.task there
    rw [if_pos ⟨ready,valid⟩]
    have claim : scheduler_claim_ready_locked m { k with sched_debt := update k.sched_debt best.task best.debt }
        cpu best.task = some { k.remove m best.task with
          sched_debt := update k.sched_debt best.task best.debt
          running_cpu := update k.running_cpu best.task (some cpu) } := if_neg (by simp [ready,free])
    dsimp only
    rw [claim]
    have removed := @Touches.removed m k { k.remove m best.task with
        sched_debt := update k.sched_debt best.task best.debt
        running_cpu := update k.running_cpu best.task (some cpu) } best.task sorted (k.state best.task)
      rfl rfl rfl (update_eq_self ..).symm
    exact .inr ⟨_,best.task,rfl,removed.1,there,free,removed.2,rfl⟩

/-- The chosen task is claimed from the lists, or idle. -/
theorem schedule_next_task_claims
    (few : k.queue.nr_running ≤ MAX_TASKS) (next : schedule_next_task m k cpu = some (k',task)) :
    ClaimsFrom m k k' task ∨ (Touches m k k' task ∧ task_is_idle_task m task = true ∧ on_list k' task = false) := by
  obtain ⟨queues,represents⟩ := sorted.lists
  unfold schedule_next_task at next
  rw [if_pos (validate_passes represents few)] at next
  dsimp only at next
  rcases pick_loop_claims sorted good cpu (MAX_TASKS + 1) with nothing | ⟨_,_,claimed,claims⟩
  · rw [nothing] at next
    dsimp only at next
    split at next
    · cases next
    rename_i idle local_one
    obtain ⟨_,marked,same⟩ := map_eq_some_iff.mp next
    cases same
    have idle_one := local_idle_idle local_one
    have out : on_list k task = false := by
      by_contra there
      have := sorted.working task (by simpa using there)
      rw [idle_one] at this
      cases this
    obtain ⟨touches,gone,_⟩ := mark_running_touches sorted (fun there => by rw [out] at there; cases there) marked
    exact .inr ⟨touches,idle_one,gone⟩
  rw [claimed] at next
  cases next
  exact .inl claims

end

/-! ### The invariant -/

structure Queued (m : Machine) (s : System) : Prop where
  sorted : Sorted m s.kernel
  linked : ∀ task, on_list s.kernel task = true ↔ task_is_idle_task m task = false ∧ s.kernel.state task = .READY ∧
    ∀ cpu, claimed (s.phase cpu) ≠ some task
  ready : ∀ cpu task, claimed (s.phase cpu) = some task → task_is_idle_task m task = false → s.kernel.state task = .READY
  /-- A task not listed is dead or not published. -/
  listed : ∀ task, task_is_idle_task m task = false → task ∉ s.kernel.tasks → dead s.kernel task = true ∨
    (s.kernel.state task = .BLOCKED ∧ ∀ cpu, ¬ holds s cpu task)
  valid : ∀ task ∈ s.kernel.tasks, m.stack_valid task = true
  few : s.kernel.tasks.length ≤ MAX_TASKS

variable {s : System}

section
variable (queued : Queued m s)
include queued

theorem Queued.known (working : task_is_idle_task m task = false)
    (state : s.kernel.state task = .READY ∨ s.kernel.state task = .RUNNING) : task ∈ s.kernel.tasks := by
  by_contra outside
  rcases queued.listed task working outside with gone | ⟨blocked,_⟩
  · rcases state with same | same <;> simp [dead,same,TaskState.dead] at gone
  · rcases state with same | same <;> simp [same] at blocked

theorem Queued.good (there : on_list s.kernel task = true) :
    s.kernel.state task = .READY ∧ m.stack_valid task = true := by
  obtain ⟨working,ready,_⟩ := (queued.linked task).mp there
  exact ⟨ready,queued.valid task (queued.known working (.inl ready))⟩

theorem Queued.bounded : s.kernel.queue.nr_running ≤ MAX_TASKS := by
  obtain ⟨queues,represents⟩ := queued.sorted.lists
  refine le_trans (represents.nr_running_le fun task there => ?_) queued.few
  obtain ⟨working,ready,_⟩ := (queued.linked task).mp there
  exact queued.known working (.inl ready)

variable {s' : System}

theorem Queued.change (touches : Touches m s.kernel s'.kernel task)
    (claims : ∀ other, other ≠ task → ∀ cpu, claimed (s'.phase cpu) = some other ↔ claimed (s.phase cpu) = some other)
    (held : ∀ other, other ≠ task → ∀ cpu, holds s' cpu other → holds s cpu other)
    (linked : on_list s'.kernel task = true ↔ task_is_idle_task m task = false ∧ s'.kernel.state task = .READY ∧
      ∀ cpu, claimed (s'.phase cpu) ≠ some task)
    (ready : ∀ cpu, claimed (s'.phase cpu) = some task → task_is_idle_task m task = false → s'.kernel.state task = .READY)
    (listed : task_is_idle_task m task = false → task ∉ s.kernel.tasks → dead s'.kernel task = true ∨
      (s'.kernel.state task = .BLOCKED ∧ ∀ cpu, ¬ holds s' cpu task)) : Queued m s' where
  sorted := touches.sorted
  linked := fun other => by
    by_cases here : other = task
    · exact here ▸ linked
    have same := claims other here
    simp only [ne_eq,same,touches.state other here,touches.on_list other here]
    exact queued.linked other
  ready := fun cpu other mine working => by
    by_cases here : other = task
    · subst here
      exact ready cpu mine working
    rw [touches.state other here]
    exact queued.ready cpu other ((claims other here cpu).mp mine) working
  listed := fun other working outside => by
    rw [touches.tasks] at outside
    by_cases here : other = task
    · subst here
      exact listed working outside
    have state := touches.state other here
    rcases queued.listed other working outside with gone | ⟨blocked,unheld⟩
    · exact .inl (by simpa [dead,state] using gone)
    · exact .inr ⟨state.trans blocked,fun cpu mine => unheld cpu (held other here cpu mine)⟩
  valid := by
    rw [touches.tasks]
    exact queued.valid
  few := by
    rw [touches.tasks]
    exact queued.few

/-- A CPU goes on with the same claims; lists and states stay. -/
theorem Queued.move (same : SameLists s.kernel s'.kernel)
    (claims : ∀ cpu, claimed (s'.phase cpu) = claimed (s.phase cpu))
    (held : ∀ cpu task, holds s' cpu task → holds s cpu task) : Queued m s' where
  sorted := queued.sorted.congr same.queue same.priority
  linked := fun task => by
    have before := queued.linked task
    simpa only [on_list,same.queue,same.state,claims] using before
  ready := fun cpu task mine working => by
    rw [same.state]
    exact queued.ready cpu task ((claims cpu).symm.trans mine) working
  listed := fun task working outside => by
    rw [same.tasks] at outside
    unfold dead
    rw [same.state]
    rcases queued.listed task working outside with gone | ⟨blocked,unheld⟩
    · exact .inl gone
    · exact .inr ⟨blocked,fun cpu mine => unheld cpu (held cpu task mine)⟩
  valid := by
    rw [same.tasks]
    exact queued.valid
  few := by
    rw [same.tasks]
    exact queued.few

end

/-! ### Steps -/

theorem Queued.make_ready (queued : Queued m s) (owned : Owned s)
    (known : task_is_idle_task m task = false → dead s.kernel task = false → task ∈ s.kernel.tasks) (cpu : Nat) :
    Queued m { s with kernel := task_make_ready_under_lock m s.kernel cpu task } := by
  obtain ⟨touches,same | ⟨ready,alive,free,on⟩⟩ := make_ready_touches queued.sorted cpu task
  · rw [same]
    exact queued
  have unclaimed : task_is_idle_task m task = false → ∀ c, claimed (s.phase c) ≠ some task := by
    intro working c mine
    have was := queued.ready c task mine working
    rcases owned.holder c task (.inr (.inl mine)) with own | ⟨gone,_⟩
    · exact absurd (own.symm.trans (free was)) nofun
    · simp [dead,was,TaskState.dead] at gone
  refine queued.change touches (fun _ _ _ => Iff.rfl) (fun _ _ _ => id) ?_ (fun _ _ _ => ready) ?_
  · rw [on]
    cases idle : task_is_idle_task m task with
    | true =>
      have out : on_list s.kernel task ≠ true := fun there => by
        have := queued.sorted.working task there
        rw [idle] at this
        cases this
      simp [out]
    | false => simpa [ready] using unclaimed idle
  · exact fun working outside => absurd (known working (by simpa [dead] using alive)) outside

/-- A task that is not claimed leaves its list. -/
theorem Queued.unlink (queued : Queued m s) {state : TaskState} (not_ready : state ≠ .READY)
    (queue : k'.queue = (s.kernel.remove m task).queue) (priority : k'.priority = s.kernel.priority)
    (tasks : k'.tasks = s.kernel.tasks) (states : k'.state = update s.kernel.state task state)
    (unclaimed : task_is_idle_task m task = false → ∀ cpu, claimed (s.phase cpu) ≠ some task)
    (listed : task_is_idle_task m task = false → task ∉ s.kernel.tasks → state.dead = true ∨
      (state = .BLOCKED ∧ ∀ cpu, ¬ holds s cpu task)) : Queued m { s with kernel := k' } := by
  obtain ⟨touches,out⟩ := Touches.removed queued.sorted queue priority tasks states
  have here : k'.state task = state := by rw [states,update_self]
  refine queued.change touches (fun _ _ _ => Iff.rfl) (fun _ _ _ => id) ?_ ?_ ?_
  · rw [out,here]
    simp [not_ready]
  · exact fun cpu mine working => absurd mine (unclaimed working cpu)
  intro working outside
  change (k'.state task).dead = true ∨ (k'.state task = .BLOCKED ∧ _)
  rw [here]
  exact listed working outside

/-- No CPU blocks or ends another's task, a task that exits is `RUNNING`, and tasks
    are not too many. -/
def orderly (m : Machine) (s : System) : Label → Bool
  | .add_to_ready_queue _ task =>
    task ∈ s.kernel.tasks ∨ (s.kernel.tasks.length < MAX_TASKS ∧ m.stack_valid task = true)
  | .remove_from_ready_queue cpu task => s.kernel.running_cpu task = none ∨ s.current cpu = some task
  | .task_set_terminated _ task => s.kernel.running_cpu task = none
  | .exit cpu => (s.current cpu).map s.kernel.state = some .RUNNING
  | _ => true

def Orderly (m : Machine) (s : System) (l : Label) (t : System) : Prop := Step m s l t ∧ orderly m s l = true
variable {l : Label}

theorem orderly_spares (keeps : orderly m s l = true) : spares s l := by
  cases l <;> simp_all [orderly,spares]

/-- A live task of no CPU is not claimed. -/
theorem unclaimed_free (owned : Owned s) (queued : Queued m s) (free : s.kernel.running_cpu task = none)
    (working : task_is_idle_task m task = false) (cpu : Nat) : claimed (s.phase cpu) ≠ some task := by
  intro mine
  have ready := queued.ready cpu task mine working
  rcases owned.holder cpu task (.inr (.inl mine)) with own | ⟨gone,_⟩
  · exact absurd (own.symm.trans free) nofun
  · simp [dead,ready,TaskState.dead] at gone

variable {phase : Phase}

/-- What a CPU holds that keeps its current task. -/
theorem holds_at (claims : claimed phase = claimed (s.phase cpu) ∨ claimed phase = none)
    (left : old phase = none) {other : Nat} (held : holds (s.at cpu k' phase) other task) : holds s other task := by
  by_cases here : other = cpu
  · subst here
    simp only [holds,System.at,update_self,left,reduceCtorEq,or_false] at held
    rcases held with current | mine
    · exact .inl current
    rcases claims with same | nothing
    · exact .inr (.inl (same ▸ mine))
    rw [nothing] at mine
    cases mine
  · simpa [holds,System.at,here] using held

theorem Queued.go (queued : Queued m s) (same : claimed phase = claimed (s.phase cpu))
    (left : old phase = none) (lists : SameLists s.kernel k') : Queued m (s.at cpu k' phase) := by
  refine queued.move lists (fun c => ?_) fun c t held => holds_at (.inl same) left held
  by_cases here : c = cpu
  · subst here
    simpa [System.at] using same
  · simp [System.at,here]

theorem Queued.dies (queued : Queued m s) {state : TaskState} (elsewhere : s.kernel.state task ≠ .READY)
    (queue : k'.queue = s.kernel.queue) (priority : k'.priority = s.kernel.priority) (tasks : k'.tasks = s.kernel.tasks)
    (states : k'.state = update s.kernel.state task state) (gone : state.dead = true) : Queued m { s with kernel := k' } := by
  have here : k'.state task = state := by rw [states,update_self]
  have not_ready : state ≠ .READY := fun same => by
    rw [same] at gone
    cases gone
  have out : ¬ on_list k' task = true := by
    unfold on_list
    rw [queue]
    exact fun there => elsewhere ((queued.linked task).mp there).2.1
  have touches : Touches m s.kernel k' task :=
    { sorted := queued.sorted.congr queue priority
      tasks
      on_list := fun other _ => by rw [on_list,queue,on_list]
      state := fun other apart => by rw [states,update_of_ne apart] }
  refine queued.change touches (fun _ _ _ => Iff.rfl) (fun _ _ _ => id) ?_ ?_ ?_
  · exact ⟨fun there => absurd there out,fun all => absurd (here.symm.trans all.2.1) not_ready⟩
  · exact fun cpu mine working => absurd (queued.ready cpu task mine working) elsewhere
  · exact fun _ _ => .inl (by simpa [dead,here] using gone)

theorem remove_from_ready_queue_queued (owned : Owned s) (queued : Queued m s)
    (keeps : s.kernel.running_cpu task = none ∨ s.current cpu = some task) :
    Queued m { s with kernel := remove_from_ready_queue m s.kernel task } := by
  have states : (remove_from_ready_queue m s.kernel task).state = update s.kernel.state task
      (if s.kernel.state task = .READY then .BLOCKED else s.kernel.state task) := by
    unfold remove_from_ready_queue
    split
    · rfl
    · rw [update_eq_self]
  refine queued.unlink ?_ rfl rfl rfl states ?_ ?_
  · split
    · nofun
    · assumption
  · intro working
    rcases keeps with free | current
    · exact unclaimed_free owned queued free working
    · exact owned.unclaimed current
  intro working outside
  rcases queued.listed task working outside with gone | ⟨blocked,unheld⟩
  · left
    rw [if_neg fun same => by simp [dead,same,TaskState.dead] at gone]
    exact gone
  right
  rw [if_neg (by rw [blocked]; nofun)]
  exact ⟨blocked,unheld⟩

/-- A terminated task is on no list and leaves the list of tasks. -/
theorem remove_task_from_list_queued (queued : Queued m s) (gone : s.kernel.state task = .TERMINATED) :
    Queued m { s with kernel := remove_task_from_list m s.kernel task } := by
  have out : runqueue_contains_locked s.kernel.queue task = false := by
    by_contra there
    have ready := ((queued.linked task).mp (by simpa [on_list] using there)).2.1
    rw [gone] at ready
    cases ready
  have queue : (remove_task_from_list m s.kernel task).queue = s.kernel.queue := remove_absent out
  refine ⟨queued.sorted.congr queue rfl,fun other => ?_,queued.ready,fun other working outside => ?_,?_,?_⟩
  · have before := queued.linked other
    unfold on_list at before ⊢
    rw [queue]
    exact before
  · by_cases here : other = task
    · exact .inl (by simp [dead,here,remove_task_from_list,Kernel.remove,gone,TaskState.dead])
    · exact queued.listed other working fun before => outside ((mem_erase_of_ne here).mpr before)
  · exact fun other member => queued.valid other (mem_of_mem_erase member)
  · exact le_trans (length_erase_le ..) queued.few

theorem add_to_ready_queue_queued (owned : Owned s) (queued : Queued m s)
    (keeps : task ∈ s.kernel.tasks ∨ (s.kernel.tasks.length < MAX_TASKS ∧ m.stack_valid task = true)) :
    Queued m { s with kernel := add_to_ready_queue m s.kernel cpu task } := by
  unfold add_to_ready_queue
  split
  · exact queued
  by_cases inside : task ∈ s.kernel.tasks
  · have same : add_task_to_list_locked s.kernel task = s.kernel := if_pos inside
    rw [same]
    exact queued.make_ready owned (fun _ _ => inside) cpu
  obtain ⟨room,valid⟩ := keeps.resolve_left inside
  have out : on_list s.kernel task = false := by
    by_contra there
    obtain ⟨working,ready,_⟩ := (queued.linked task).mp (by simpa using there)
    exact inside (queued.known working (.inl ready))
  obtain ⟨queues,represents⟩ := queued.sorted.lists
  have added : add_task_to_list_locked s.kernel task = { s.kernel with
      tasks := s.kernel.tasks ++ [task]
      queue := { s.kernel.queue with
        rq_next := update s.kernel.queue.rq_next task none
        rq_prev := update s.kernel.queue.rq_prev task none
        rq_priority := update s.kernel.queue.rq_priority task TASK_PRIORITY_LEVELS } } := if_neg inside
  have on : ∀ other, on_list (add_task_to_list_locked s.kernel task) other = on_list s.kernel other := by
    intro other
    rw [added]
    by_cases same : other = task
    · rw [same,out]
      simp [on_list,runqueue_contains_locked]
    · simp [on_list,runqueue_contains_locked,same]
  have sorted : Sorted m (add_task_to_list_locked s.kernel task) := by
    refine ⟨⟨queues,added ▸ represents.forget out⟩,?_,?_⟩
    · intro other there
      rw [on] at there
      have apart : other ≠ task := fun same => by
        rw [same,out] at there
        cases there
      rw [added]
      exact (update_of_ne apart _ _).trans (queued.sorted.level other there)
    intro other there
    rw [on] at there
    exact queued.sorted.working other there
  have published : Queued m { s with kernel := add_task_to_list_locked s.kernel task } := by
    refine ⟨sorted,fun other => ?_,?_,?_,?_,?_⟩
    · rw [on,added]
      exact queued.linked other
    · rw [added]
      exact queued.ready
    · intro other working outside
      rw [added] at outside ⊢
      exact queued.listed other working fun before => outside (mem_append_left _ before)
    · rw [added]
      exact forall_mem_append.mpr ⟨queued.valid,forall_mem_singleton.mpr valid⟩
    rw [added]
    simpa using room
  have owned' : Owned { s with kernel := add_task_to_list_locked s.kernel task } := by
    refine owned.keeps ?_
    rw [added]
    exact ⟨rfl,fun _ => rfl⟩
  refine published.make_ready owned' (fun _ _ => ?_) cpu
  rw [added]
  simp

theorem set_priority_queued (queued : Queued m s) (priority : Nat) :
    Queued m { s with kernel := task_set_priority m s.kernel task priority } := by
  unfold task_set_priority
  split
  · rename_i there
    obtain ⟨working,ready,unclaimed⟩ := (queued.linked task).mp there
    have taken : Sorted m { s.kernel.remove m task with priority := update s.kernel.priority task priority } := by
      obtain ⟨lists,level,working⟩ := remove_sorted queued.sorted task
      refine ⟨lists,fun other inside => ?_,working⟩
      have apart : other ≠ task := fun same => by
        have out := remove_on_list queued.sorted task other
        rw [if_pos same] at out
        exact absurd (out.symm.trans inside) nofun
      exact (level other inside).trans (congrArg task_runqueue_priority (update_of_ne apart _ _).symm)
    have still : ({ s.kernel.remove m task with priority := update s.kernel.priority task priority } : Kernel).state
        task = .READY := ready
    rw [if_pos still]
    have on := enqueue_on_list taken task
    refine queued.change ⟨enqueue_sorted taken task,rfl,fun other apart => ?_,fun _ _ => rfl⟩ (fun _ _ _ => Iff.rfl)
      (fun _ _ _ => id) ?_ (fun c mine => absurd mine (unclaimed c)) (queued.listed task)
    · rw [on,if_neg fun both => apart both.1]
      exact (remove_on_list queued.sorted task other).trans (if_neg apart)
    rw [on,if_pos ⟨rfl,working⟩]
    exact ⟨fun _ => ⟨working,ready,unclaimed⟩,fun _ => rfl⟩
  rename_i out
  refine queued.change ⟨⟨queued.sorted.lists,fun other inside => ?_,queued.sorted.working⟩,rfl,fun _ _ => rfl,
    fun _ _ => rfl⟩ (fun _ _ _ => Iff.rfl) (fun _ _ _ => id) (queued.linked task) (fun c => queued.ready c task)
    (queued.listed task)
  have apart : other ≠ task := fun same => out (same ▸ inside)
  exact (queued.sorted.level other inside).trans (congrArg task_runqueue_priority (update_of_ne apart _ _).symm)

/-- The current task of a CPU, if alive, is listed. -/
theorem Queued.known_current (queued : Queued m s) (current : s.current cpu = some task) :
    task_is_idle_task m task = false → dead s.kernel task = false → task ∈ s.kernel.tasks := by
  intro working alive
  have held : holds s cpu task := .inl current
  grind [listed]

theorem set_state_queued (owned : Owned s) (queued : Queued m s) (current : s.current cpu = some task)
    (alive : dead s.kernel task = false) (state : TaskState) :
    Queued m { s with kernel := task_set_state m s.kernel cpu (s.current cpu) task state } := by
  have known := queued.known_current current
  unfold task_set_state
  split
  · exact queued.make_ready owned known cpu
  rename_i not_ready
  split
  · exact queued
  split
  · exact queued
  exact queued.unlink not_ready rfl rfl rfl rfl (fun _ => owned.unclaimed current) fun working outside =>
    absurd (known working alive) outside

theorem prepare_queued (owned : Owned s) (queued : Queued m s) :
    Queued m { s with kernel := scheduler_prepare_current_for_switch m s.kernel cpu (s.current cpu) } := by
  unfold scheduler_prepare_current_for_switch
  split
  · exact queued
  rename_i task current
  split
  · exact queued.make_ready owned (queued.known_current current) cpu
  · exact queued

theorem claim_queued (queued : Queued m s) (free : claimed (s.phase cpu) = none)
    (claims : claimed phase = some task) (left : old phase = none)
    (chosen : ClaimsFrom m s.kernel k' task ∨
      (Touches m s.kernel k' task ∧ task_is_idle_task m task = true ∧ on_list k' task = false)) :
    Queued m (s.at cpu k' phase) := by
  have touches : Touches m s.kernel k' task := chosen.elim ClaimsFrom.touches fun idle => idle.1
  have out : on_list k' task = false := chosen.elim ClaimsFrom.out fun idle => idle.2.2
  have mine : claimed ((s.at cpu k' phase).phase cpu) = some task := by simpa [System.at] using claims
  refine queued.change touches ?_ ?_ ?_ ?_ ?_
  · intro other apart c
    by_cases here : c = cpu
    · subst here
      rw [mine,free]
      simpa using Ne.symm apart
    · simp [System.at,here]
  · intro other apart c held
    by_cases here : c = cpu
    · subst here
      simp only [holds,mine] at held
      rcases held with current | new | nothing
      · exact .inl current
      · exact absurd (some.inj new).symm apart
      · simp [System.at,left] at nothing
    · simpa [holds,System.at,here] using held
  · change on_list k' task = true ↔ _
    rw [out]
    exact ⟨by simp,fun all => absurd mine (all.2.2 cpu)⟩
  · intro c _ working
    rcases chosen with from_list | ⟨_,idle,_⟩
    · exact from_list.state.trans (queued.good from_list.was_there).1
    rw [idle] at working
    cases working
  intro working outside
  rcases chosen with from_list | ⟨_,idle,_⟩
  · exact absurd (queued.known working (.inl (queued.good from_list.was_there).1)) outside
  rw [idle] at working
  cases working

variable {t : System}

theorem choose_queued (owned : Owned s) (queued : Queued m s) (taken : choose m s cpu = some t) : Queued m t := by
  have chosen : ∀ k' next, schedule_next_task m s.kernel cpu = some (k',next) → ClaimsFrom m s.kernel k' next ∨
      (Touches m s.kernel k' next ∧ task_is_idle_task m next = true ∧ on_list k' next = false) := fun _ _ =>
    schedule_next_task_claims queued.sorted (fun _ => queued.good) queued.bounded
  unfold Scheduler.choose at taken
  split at taken
  · rename_i save phase
    obtain ⟨⟨k',next⟩,chose,rfl⟩ := map_eq_some_iff.mp taken
    split
    · rename_i same
      rcases chosen k' next chose with from_list | ⟨touches,idle,out⟩
      · have own := (owned.alive cpu next (by rw [phase]; rfl) same).2
        exact absurd (own.symm.trans from_list.free) nofun
      refine queued.change touches ?_ (fun other _ c held => holds_at (.inr rfl) rfl held) ?_ ?_ ?_
      · intro other _ c
        by_cases here : c = cpu
        · subst here
          simp [System.at,phase,claimed]
        · simp [System.at,here]
      · change on_list k' next = true ↔ _
        rw [out,idle]
        simp
      · intro c _ working
        rw [idle] at working
        cases working
      intro working
      rw [idle] at working
      cases working
    · exact claim_queued queued (by rw [phase]; rfl) rfl rfl (chosen _ _ chose)
  · rename_i phase
    obtain ⟨⟨k',next⟩,chose,rfl⟩ := map_eq_some_iff.mp taken
    exact claim_queued queued (by rw [phase]; rfl) rfl rfl (chosen _ _ chose)
  · cases taken

theorem release_dead_same (k : Kernel) (cpu : Nat) (current : Option Nat) :
    SameLists k (release_dead k cpu current) := by
  unfold release_dead
  split
  · exact ⟨rfl,rfl,rfl,rfl⟩
  · split <;> exact ⟨rfl,rfl,rfl,rfl⟩

/-- A commit publishes, or changes neither lists nor states. -/
theorem commit_cases (k : Kernel) (cpu : Nat) (current : Option Nat) (next : Nat) :
    ∃ released : Kernel, SameLists k released ∧
      (scheduler_commit_next_for_switch m k cpu current next = (released,false) ∨
        ∃ k', scheduler_commit_next_for_switch m k cpu current next = (k',true) ∧
          scheduler_mark_running_locked m released cpu next = some k') := by
  unfold scheduler_commit_next_for_switch
  have kept : SameLists k (if current = some next then k else release_dead k cpu current) := by
    split
    · exact ⟨rfl,rfl,rfl,rfl⟩
    · exact release_dead_same k cpu current
  grind

/-- The published task was in no other hands. -/
theorem publish_queued (queued : Queued m s) {released : Kernel} {save : Bool}
    (after : Owned (s.publish cpu k' task save)) (same : SameLists s.kernel released)
    (marked : scheduler_mark_running_locked m released cpu task = some k')
    (mine : ∀ other, claimed (s.phase cpu) = some other → other = task) : Queued m (s.publish cpu k' task save) := by
  have sorted := queued.sorted.congr same.queue same.priority
  have ready : on_list released task = true → released.state task = .READY := by
    intro there
    rw [same.state]
    unfold on_list at there
    rw [same.queue] at there
    exact ((queued.linked task).mp there).2.1
  obtain ⟨touches,out,runs⟩ := mark_running_touches sorted ready marked
  have touches : Touches m s.kernel k' task := by
    refine ⟨touches.sorted,touches.tasks.trans same.tasks,fun other apart => ?_,fun other apart => ?_⟩
    · rw [touches.on_list other apart,on_list,same.queue]
      rfl
    · rw [touches.state other apart,same.state]
  have unclaimed : ∀ c, claimed ((s.publish cpu k' task save).phase c) ≠ some task := by
    intro c other
    have current : (s.publish cpu k' task save).current cpu = some task := update_self ..
    exact after.unclaimed current c other
  refine queued.change touches ?_ ?_ ?_ (fun c other => absurd other (unclaimed c)) ?_
  · intro other apart c
    by_cases here : c = cpu
    · subst here
      constructor
      · intro claims
        simp [System.publish,claimed] at claims
      · exact fun claims => absurd (mine other claims) apart
    · simp [System.publish,here]
  · intro other apart c held
    by_cases here : c = cpu
    · subst here
      simp only [holds,System.publish,update_self,claimed,old] at held
      rcases held with current | nothing | before
      · exact absurd (some.inj current).symm apart
      · cases nothing
      · exact .inl before
    · simpa [holds,System.publish,here] using held
  · change on_list k' task = true ↔ _ ∧ k'.state task = .READY ∧ _
    rw [out,runs]
    simp
  intro working outside
  refine absurd (queued.known working ?_) outside
  rw [← same.state]
  unfold scheduler_mark_running_locked at marked
  grind

theorem commit_queued (queued : Queued m s) (after : Owned t) (taken : commit m s cpu = some t) : Queued m t := by
  unfold commit at taken
  split at taken
  · rename_i save next phase
    obtain ⟨released,same,failed | ⟨k',done,marked⟩⟩ := @commit_cases m s.kernel cpu (s.current cpu) next
    · rw [failed] at taken
      cases taken
      exact queued.go (by rw [phase]; rfl) rfl same
    rw [done] at taken
    cases taken
    exact publish_queued queued after same marked fun other claims => by
      rw [phase] at claims
      exact (some.inj claims).symm
  · rename_i task next phase
    obtain ⟨released,same,failed | ⟨k',done,marked⟩⟩ := @commit_cases m s.kernel cpu (s.current cpu) next
    · rw [failed] at taken
      cases taken
      exact queued.go (by rw [phase]; simp [claimed]) rfl same
    rw [done] at taken
    cases taken
    refine publish_queued queued after same marked fun other claims => ?_
    rw [phase,claimed] at claims
    split at claims
    · rename_i own
      rw [← some.inj claims,some.inj own]
    · cases claims
  · rename_i task phase
    cases taken
    exact queued.go (by rw [phase]; rfl) rfl (release_dead_same s.kernel cpu (s.current cpu))
  · rename_i phase
    split at taken
    · cases taken
    rename_i idle _
    obtain ⟨released,same,failed | ⟨k',done,marked⟩⟩ :=
      @commit_cases m s.kernel cpu (s.current cpu) idle
    · rw [failed] at taken
      cases taken
    rw [done] at taken
    cases taken
    exact publish_queued queued after same marked fun other claims => by
      rw [phase] at claims
      cases claims
  · cases taken

/-- What putting a task back does where it does something. -/
def put_back (m : Machine) (k : Kernel) (task : Nat) : Kernel :=
  ({ k with
    running_cpu := update k.running_cpu task none
    state := update k.state task .READY } : Kernel).enqueue m task

theorem rollback_cases (k : Kernel) (cpu : Nat) (current : Option Nat) (task : Nat) :
    (scheduler_rollback_uncommitted_next m k cpu current task = k ∧
        (current = some task ∨ task_is_idle_task m task = true ∨
          ¬ ((k.state task = .READY ∨ k.state task = .RUNNING) ∧ k.running_cpu task = some cpu))) ∨
      scheduler_rollback_uncommitted_next m k cpu current task = put_back m k task ∧ task_is_idle_task m task = false ∧
        (k.state task = .READY ∨ k.state task = .RUNNING) ∧ k.running_cpu task = some cpu := by
  unfold scheduler_rollback_uncommitted_next
  split
  · rename_i skipped
    exact .inl ⟨rfl,skipped.elim .inl fun idle => .inr (.inl idle)⟩
  rename_i may
  split
  · rename_i held
    obtain ⟨_,working⟩ := not_or.mp may
    refine .inr ⟨?_,by simpa using working,held⟩
    have alive : (k.state task).dead = false := by
      rcases held.1 with state | state <;> simp [state,TaskState.dead]
    unfold task_make_ready_under_lock
    simp [alive,put_back]
  rename_i unheld
  exact .inl ⟨rfl,.inr (.inr unheld)⟩

section
variable (owned : Owned s)
include owned

section
variable (queued : Queued m s)
include queued

theorem put_back_queued (claims : ∀ other, claimed (s.phase cpu) = some other → other = task)
    (nothing : claimed phase = none) (left : old phase = none) (working : task_is_idle_task m task = false)
    (state : s.kernel.state task = .READY ∨ s.kernel.state task = .RUNNING)
    (own : s.kernel.running_cpu task = some cpu) : Queued m (s.at cpu (put_back m s.kernel task) phase) := by
  have ready : Sorted m { s.kernel with
      running_cpu := update s.kernel.running_cpu task none
      state := update s.kernel.state task .READY } := queued.sorted.congr rfl rfl
  have on := enqueue_on_list ready task
  have state' : (put_back m s.kernel task).state task = .READY := update_self ..
  have touches : Touches m s.kernel (put_back m s.kernel task) task := by
    refine ⟨enqueue_sorted ready task,rfl,fun other apart => ?_,fun other apart => update_of_ne apart _ _⟩
    exact (on other).trans (if_neg fun both => apart both.1)
  have unclaimed : ∀ c, claimed ((s.at cpu (put_back m s.kernel task) phase).phase c) ≠ some task := by
    intro c mine
    by_cases here : c = cpu
    · subst here
      simp [System.at,nothing] at mine
    simp only [System.at,update_of_ne here] at mine
    rcases owned.holder c task (.inr (.inl mine)) with other | ⟨gone,_⟩
    · exact here (some.inj (other.symm.trans own))
    · rcases state with same | same <;> simp [dead,same,TaskState.dead] at gone
  refine queued.change touches ?_ (fun other _ c held => holds_at (.inr nothing) left held) ?_ (fun _ _ _ => state') ?_
  · intro other apart c
    by_cases here : c = cpu
    · subst here
      simp only [System.at,update_self,nothing,reduceCtorEq,false_iff]
      exact fun mine => apart (claims other mine)
    · simp [System.at,here]
  · refine ⟨fun _ => ⟨working,state',unclaimed⟩,fun _ => ?_⟩
    exact (on task).trans (if_pos ⟨rfl,working⟩)
  · exact fun working outside => absurd (queued.known working state) outside

/-- A claimed task is put back or, if idle, left. -/
theorem rollback_section_queued (claims : claimed (s.phase cpu) = some task ∨ claimed (s.phase cpu) = none)
    (nothing : claimed phase = none) (left : old phase = none) :
    Queued m (s.at cpu (scheduler_rollback_uncommitted_next m s.kernel cpu (s.current cpu) task) phase) := by
  rcases @rollback_cases m s.kernel cpu (s.current cpu) task with ⟨same,why⟩ | ⟨done,working,state,own⟩
  · rw [same]
    rcases claims with mine | none_there
    · have idle : task_is_idle_task m task = true := by
        rcases why with current | idle | unheld
        · exact absurd current (owned.apart cpu task (.inl mine))
        · exact idle
        by_contra working
        have ready := queued.ready cpu task mine (by simpa using working)
        rcases owned.holder cpu task (.inr (.inl mine)) with own | ⟨gone,_⟩
        · exact unheld ⟨.inl ready,own⟩
        · simp [dead,ready,TaskState.dead] at gone
      have out : on_list s.kernel task ≠ true := fun there => by
        have working := queued.sorted.working task there
        rw [idle] at working
        cases working
      refine queued.change (.refl queued.sorted task) ?_ (fun other _ c held => holds_at (.inr nothing) left held) ?_ ?_ ?_
      · intro other apart c
        by_cases here : c = cpu
        · subst here
          simp only [System.at,update_self,nothing,mine,some.injEq,reduceCtorEq,false_iff]
          exact Ne.symm apart
        · simp [System.at,here]
      · exact ⟨fun there => absurd there out,fun all => by rw [idle] at all; cases all.1⟩
      · intro c _ working
        rw [idle] at working
        cases working
      intro working
      rw [idle] at working
      cases working
    · exact queued.go (nothing.trans none_there.symm) left ⟨rfl,rfl,rfl,rfl⟩
  rw [done]
  refine put_back_queued owned queued (fun other mine => ?_) nothing left working state own
  rcases claims with same | none_there
  · exact some.inj (mine.symm.trans same)
  rw [none_there] at mine
  cases mine

theorem rollback_queued (taken : rollback m s cpu = some t) : Queued m t := by
  unfold rollback at taken
  split at taken
  · rename_i save next phase
    cases taken
    exact rollback_section_queued owned queued (.inl (by rw [phase]; rfl)) rfl rfl
  · rename_i task phase
    cases taken
    by_cases idle : local_idle m cpu = some task
    · have same : scheduler_rollback_uncommitted_next m s.kernel cpu (s.current cpu) task = s.kernel :=
        if_pos (.inr (local_idle_idle idle))
      rw [same,idle]
      exact queued.go (by rw [phase]; simp [claimed]) rfl ⟨rfl,rfl,rfl,rfl⟩
    · exact rollback_section_queued owned queued (.inl (by rw [phase]; rfl)) (if_neg idle) rfl
  · rename_i task held phase
    cases taken
    refine rollback_section_queued owned queued ?_ rfl rfl
    rw [phase]
    cases held
    · exact .inr rfl
    · exact .inl rfl
  · cases taken

theorem restore_queued :
    Queued m { s with kernel := scheduler_restore_current_if_needed m s.kernel cpu (s.current cpu) } := by
  unfold scheduler_restore_current_if_needed
  split
  · exact queued
  rename_i task current
  split
  · rename_i ready
    cases marked : scheduler_mark_running_locked m s.kernel cpu task with
    | none => exact queued
    | some k' =>
      obtain ⟨touches,out,runs⟩ := mark_running_touches queued.sorted (fun _ => ready) marked
      refine queued.change touches (fun _ _ _ => Iff.rfl) (fun _ _ _ => id) ?_
        (fun c mine => absurd mine (owned.unclaimed current c)) ?_
      · change on_list k' task = true ↔ _ ∧ k'.state task = .READY ∧ _
        rw [out,runs]
        simp
      · exact fun working outside => absurd (queued.known working (.inl ready)) outside
  · exact queued

theorem step_queued (taken : step m s l = some t) (keeps : orderly m s l = true) : Queued m t := by
  have after : Owned t := step_owned owned taken (orderly_spares keeps)
  cases l with
  | sched_start cpu =>
    obtain ⟨off,rfl⟩ := guarded taken
    exact queued.go (by rw [off]; rfl) rfl ⟨rfl,rfl,rfl,rfl⟩
  | task_start_secondary_scheduler cpu =>
    simp only [step] at taken
    split at taken
    · rename_i off
      obtain ⟨idle,_,rest⟩ := bind_eq_some_iff.mp taken
      obtain ⟨k',marked,rfl⟩ := map_eq_some_iff.mp rest
      refine publish_queued queued after ⟨rfl,rfl,rfl,rfl⟩ marked fun other claims => ?_
      rw [off] at claims
      cases claims
    · cases taken
  | add_to_ready_queue cpu task =>
    cases taken
    exact add_to_ready_queue_queued owned queued (by simpa [orderly] using keeps)
  | task_wake cpu task =>
    obtain ⟨inside,rfl⟩ := guarded taken
    exact queued.make_ready owned (fun _ _ => inside) cpu
  | task_set_priority task priority =>
    cases taken
    exact set_priority_queued queued priority
  | task_set_state cpu state =>
    simp only [step] at taken
    split at taken
    · cases taken
    obtain ⟨task,runs,current,rfl⟩ := executing_map taken
    exact set_state_queued owned queued current (owned.alive cpu task (by rw [runs]; rfl) current).1 state
  | remove_from_ready_queue cpu task =>
    cases taken
    exact remove_from_ready_queue_queued owned queued (by simpa [orderly] using keeps : _ ∨ s.current cpu = some task)
  | task_set_terminated cpu task =>
    simp only [step] at taken
    split at taken
    · cases taken
    cases taken
    unfold task_set_state
    rw [if_neg (by simp),if_neg (by simp)]
    split
    · exact queued
    have not_ready : TaskState.TERMINATED ≠ .READY := by decide
    have free : s.kernel.running_cpu task = none := by simpa [orderly] using keeps
    exact queued.unlink not_ready rfl rfl rfl rfl (unclaimed_free owned queued free) fun _ _ => .inl rfl
  | collect task =>
    obtain ⟨zombie,rfl⟩ := guarded taken
    exact queued.dies (by rw [zombie.1]; decide) rfl rfl rfl rfl rfl
  | remove_task_from_list task =>
    obtain ⟨gone,rfl⟩ := guarded taken
    exact remove_task_from_list_queued queued gone
  | exit cpu =>
    obtain ⟨task,runs,current,rfl⟩ := executing_map taken
    have was : s.kernel.state task = .RUNNING := by simpa [orderly,current] using keeps
    have gone : Queued m { s with kernel := { s.kernel with
        state := update s.kernel.state task .ZOMBIE
        sched_debt := update s.kernel.sched_debt task 0 } } :=
      queued.dies (by rw [was]; decide) rfl rfl rfl rfl rfl
    exact gone.go (by rw [runs]; rfl) rfl ⟨rfl,rfl,rfl,rfl⟩
  | exit_thread cpu =>
    obtain ⟨task,runs,current,rfl⟩ := executing_map taken
    have not_ready : TaskState.ZOMBIE ≠ .READY := by decide
    have gone : Queued m { s with kernel := { s.kernel.remove m task with
        state := update s.kernel.state task .ZOMBIE
        sched_debt := update s.kernel.sched_debt task 0 } } :=
      queued.unlink not_ready rfl rfl rfl rfl (fun _ => owned.unclaimed current) fun _ _ => .inl rfl
    exact gone.go (by rw [runs]; rfl) rfl ⟨rfl,rfl,rfl,rfl⟩
  | yield cpu =>
    obtain ⟨_,rfl⟩ := guarded taken
    exact prepare_queued owned queued
  | enter cpu =>
    obtain ⟨task,runs,current,rfl⟩ := executing_map taken
    exact queued.go (by rw [runs]; rfl) rfl ⟨rfl,rfl,rfl,rfl⟩
  | prepare cpu =>
    simp only [step] at taken
    split at taken
    · rename_i save phase
      cases taken
      have prepared : Queued m { s with kernel :=
          if save then scheduler_prepare_current_for_switch m s.kernel cpu (s.current cpu) else s.kernel } := by
        split
        · exact prepare_queued owned queued
        · exact queued
      exact prepared.go (by rw [phase]; rfl) rfl ⟨rfl,rfl,rfl,rfl⟩
    · cases taken
  | choose cpu => exact choose_queued owned queued taken
  | validate cpu sp_valid =>
    simp only [step] at taken
    split at taken
    · rename_i save next phase
      cases taken
      refine queued.go ?_ ?_ ⟨rfl,rfl,rfl,rfl⟩
      · rw [phase]
        split <;> rfl
      · split <;> rfl
    · cases taken
  | look cpu =>
    change look m s cpu = some t at taken
    unfold look at taken
    split at taken
    · rename_i task phase
      split at taken
      · split at taken
        · cases taken
          exact queued.go (by rw [phase]; simp [claimed]) rfl ⟨rfl,rfl,rfl,rfl⟩
        cases taken
        exact queued.go (by rw [phase]; rfl) rfl ⟨rfl,rfl,rfl,rfl⟩
      cases taken
      exact queued.go (by rw [phase]; simp [claimed]) rfl ⟨rfl,rfl,rfl,rfl⟩
    · cases taken
  | commit cpu => exact commit_queued queued after taken
  | rollback cpu => exact rollback_queued owned queued taken
  | restore cpu =>
    simp only [step] at taken
    split at taken
    · rename_i restore phase
      cases taken
      have restored : Queued m { s with kernel :=
          if restore then scheduler_restore_current_if_needed m s.kernel cpu (s.current cpu) else s.kernel } := by
        split
        · exact restore_queued owned queued
        · exact queued
      exact restored.go (by rw [phase]; rfl) rfl ⟨rfl,rfl,rfl,rfl⟩
    · cases taken
  | save_complete cpu =>
    simp only [step] at taken
    split at taken
    · rename_i task phase
      cases taken
      unfold task_context_save_complete
      split <;> exact queued.go (by rw [phase]; rfl) rfl ⟨rfl,rfl,rfl,rfl⟩
    · rename_i phase
      cases taken
      exact queued.go (by rw [phase]; rfl) rfl ⟨rfl,rfl,rfl,rfl⟩
    · cases taken
  | tick ticks task debt =>
    cases taken
    exact queued.move ⟨rfl,rfl,rfl,rfl⟩ (fun _ => rfl) fun _ _ => id

end

end

theorem first_queued (m : Machine) (priority : Nat → Nat) : Queued m (first priority) where
  sorted :=
    { lists := ⟨fun _ => [],fun _ _ => .empty,fun _ _ _ => nofun,fun _ small => absurd small (Nat.lt_irrefl _),
        fun _ _ => rfl,by simp [first]⟩
      level := nofun
      working := nofun }
  linked := fun _ => ⟨nofun,fun all => absurd all.2.1 nofun⟩
  ready := nofun
  listed := fun task _ _ => .inr ⟨rfl,fun cpu held => by rcases held with held | held | held <;> cases held⟩
  valid := nofun
  few := Nat.zero_le _

/-- A claimed task goes back to the end of its list. -/
theorem rollback_puts_back {queues : Nat → List Nat} (owned : Owned s) (queued : Queued m s)
    (represents : Represents s.kernel.queue queues) (mine : claimed (s.phase cpu) = some task)
    (working : task_is_idle_task m task = false) (taken : rollback m s cpu = some t) :
    Represents t.kernel.queue (update queues (task_runqueue_priority (s.kernel.priority task))
      (queues (task_runqueue_priority (s.kernel.priority task)) ++ [task])) := by
  have ready := queued.ready cpu task mine working
  have out : runqueue_contains_locked s.kernel.queue task = false := by
    by_contra there
    exact ((queued.linked task).mp (by simpa [on_list] using there)).2.2 cpu mine
  have own : s.kernel.running_cpu task = some cpu := by
    rcases owned.holder cpu task (.inr (.inl mine)) with own | ⟨gone,_⟩
    · exact own
    · simp [dead,ready,TaskState.dead] at gone
  have appended : Represents (put_back m s.kernel task).queue (update queues
      (task_runqueue_priority (s.kernel.priority task))
      (queues (task_runqueue_priority (s.kernel.priority task)) ++ [task])) :=
    enqueue_represents represents out (task_runqueue_priority_lt _) working
  have done : scheduler_rollback_uncommitted_next m s.kernel cpu (s.current cpu) task = put_back m s.kernel task := by
    rcases @rollback_cases m s.kernel cpu (s.current cpu) task with ⟨_,current | idle | unheld⟩ | ⟨done,_⟩
    · exact absurd current (owned.apart cpu task (.inl mine))
    · rw [working] at idle
      cases idle
    · exact absurd ⟨.inl ready,own⟩ unheld
    · exact done
  have kernel : t.kernel = scheduler_rollback_uncommitted_next m s.kernel cpu (s.current cpu) task := by
    unfold rollback at taken
    split at taken
    case h_1 phase | h_2 phase =>
      rw [phase] at mine
      cases taken
      cases mine
      rfl
    · rename_i held phase
      rw [phase,claimed] at mine
      split at mine
      · cases taken
        cases mine
        rfl
      · cases mine
    · cases taken
  rw [kernel,done]
  exact appended

/-- In orderly runs the lists are in order with their counts; a task is on them
    exactly where it is `READY` and not claimed, once, by its priority; and a claimed
    one is put back once, at the end. -/
theorem run_queue_in_order (m : Machine) (priority : Nat → Nat) {s : System}
    (reached : Reachable (Orderly m) (first priority) s) :
    ∃ queues, Represents s.kernel.queue queues ∧
      (∀ task, task_is_idle_task m task = false → ((∃ prio < TASK_PRIORITY_LEVELS, task ∈ queues prio) ↔
        s.kernel.state task = .READY ∧ ∀ cpu, claimed (s.phase cpu) ≠ some task)) ∧
      (∀ prio < TASK_PRIORITY_LEVELS, (queues prio).Nodup ∧ ∀ task ∈ queues prio,
        s.kernel.queue.rq_priority task = prio ∧ task_runqueue_priority (s.kernel.priority task) = prio) ∧
      ∀ cpu task t, claimed (s.phase cpu) = some task → task_is_idle_task m task = false → Step m s (.rollback cpu) t →
        (∀ cpu', claimed (t.phase cpu') ≠ some task) ∧
          Represents t.kernel.queue (update queues (task_runqueue_priority (s.kernel.priority task))
            (queues (task_runqueue_priority (s.kernel.priority task)) ++ [task])) := by
  have kept : ∀ s l t, (Owned s ∧ Queued m s) → Orderly m s l t → Owned t ∧ Queued m t := by
    rintro s l t ⟨owned,queued⟩ ⟨taken,keeps⟩
    exact ⟨step_owned owned taken (orderly_spares keeps),step_queued owned queued taken keeps⟩
  obtain ⟨owned,queued⟩ := reached.invariant kept ⟨first_owned priority,first_queued m priority⟩
  obtain ⟨queues,represents⟩ := queued.sorted.lists
  refine ⟨queues,represents,fun task working => ?_,fun prio small => ?_,fun cpu task t mine working taken => ?_⟩
  · rw [← represents.contains_iff]
    have linked := queued.linked task
    unfold on_list at linked
    rw [linked]
    simp [working]
  · refine ⟨(represents.linked prio small).forwards.nodup,fun task inside => ?_⟩
    have level := represents.level prio small task inside
    have there : on_list s.kernel task = true := represents.contains_iff.mpr ⟨prio,small,inside⟩
    exact ⟨level,(queued.sorted.level task there).symm.trans level⟩
  have back := rollback_puts_back owned queued represents mine working taken
  refine ⟨fun cpu' still => ?_,back⟩
  have after : Queued m t := step_queued owned queued taken rfl
  have there : on_list t.kernel task = true := by
    refine back.contains_iff.mpr
      ⟨task_runqueue_priority (s.kernel.priority task),task_runqueue_priority_lt _,?_⟩
    simp
  exact ((after.linked task).mp there).2.2 cpu' still

/-- Task 1 is ready, task 2 chosen, and the switch refused. -/
def refused_switch : List Label :=
  [.add_to_ready_queue 0 1,.sched_start 0,.choose 0,.look 0,.commit 0,.save_complete 0,.add_to_ready_queue 1 2,
    .enter 0,.prepare 0,.choose 0,.validate 0 false]

theorem run_queue_in_order_refused : ∃ s, Reachable (Orderly three_cpus) (first fun _ => 7) s ∧
    claimed (s.phase 0) = some 2 ∧ ∃ queues, Represents s.kernel.queue queues ∧ ∀ t, Step three_cpus s (.rollback 0) t →
      Represents t.kernel.queue (update queues (task_runqueue_priority (s.kernel.priority 2))
        (queues (task_runqueue_priority (s.kernel.priority 2)) ++ [2])) := by
  have found : ((refused_switch.foldlM (fun s l => if orderly three_cpus s l then step three_cpus s l else none)
      (first fun _ => 7)).any fun s => claimed (s.phase 0) = some 2) = true := by decide +kernel
  obtain ⟨s,run,mine⟩ := Run.ends_checked found
  have mine : claimed (s.phase 0) = some 2 := by simpa using mine
  obtain ⟨queues,represents,_,_,back⟩ := run_queue_in_order three_cpus _ ⟨_,run⟩
  exact ⟨s,⟨_,run⟩,mine,queues,represents,fun t taken => (back 0 2 t mine rfl taken).2⟩

/-- A claimed task is blocked by the second CPU, woken by the third, and on a list. -/
theorem claimed_task_on_list : ∃ s, Run (Step three_cpus) (first fun _ => 7)
    [.add_to_ready_queue 0 1,.sched_start 0,.choose 0,.remove_from_ready_queue 1 1,.task_wake 2 1] s ∧
    s.kernel.state 1 = .READY ∧ claimed (s.phase 0) = some 1 ∧ s.kernel.queue.head 7 = some 1 := by
  have found : (([.add_to_ready_queue 0 1,.sched_start 0,.choose 0,.remove_from_ready_queue 1 1,
      .task_wake 2 1].foldlM (step three_cpus) (first fun _ => 7)).any fun s =>
      s.kernel.state 1 = .READY ∧ claimed (s.phase 0) = some 1 ∧ s.kernel.queue.head 7 = some 1) = true := by decide +kernel
  obtain ⟨s,run,both⟩ := Run.ends found
  exact ⟨s,run,by simpa using both⟩

end ArmOS.QueueRuns

