import ArmOS.Links

/-!
The run queue: one list for each priority, linked in both directions, with its
count. A task on no list has the priority `TASK_PRIORITY_LEVELS`. The operations
check the links and rebuild the lists where these do not fit; on lists in order
(`Represents`) they append and take out.
-/
namespace ArmOS.RunQueue
open Links Function List

def TASK_PRIORITY_LEVELS : Nat := 256
def MAX_TASKS : Nat := 1024

/-- `ready_queue` and what the tasks hold of it. -/
structure Queue where
  head : Nat → Option Nat
  tail : Nat → Option Nat
  count : Nat → Nat
  nr_running : Nat
  rq_next : Nat → Option Nat
  rq_prev : Nat → Option Nat
  rq_priority : Nat → Nat
  ready_since_tick : Nat → Nat

/-- What the queue reads of the tasks, and the time. -/
structure Tasks where
  list : List Nat
  ready : Nat → Bool
  idle : Nat → Bool
  level : Nat → Nat
  now : Nat

def task_runqueue_priority (priority : Nat) : Nat :=
  if TASK_PRIORITY_LEVELS ≤ priority then TASK_PRIORITY_LEVELS - 1 else priority
def runqueue_contains_locked (q : Queue) (task : Nat) : Bool := q.rq_priority task < TASK_PRIORITY_LEVELS
def runqueue_link_plausible_locked (q : Queue) (task prio : Nat) : Bool := q.rq_priority task = prio

/-- The links around a task and the list's ends name each other. -/
def links_valid (q : Queue) (task prio : Nat) : Bool :=
  (match q.rq_prev task with
    | some before => runqueue_link_plausible_locked q before prio && q.rq_next before = some task
    | none => q.head prio = some task) &&
  match q.rq_next task with
  | some after => runqueue_link_plausible_locked q after prio && q.rq_prev after = some task
  | none => q.tail prio = some task

def runqueue_membership_valid_locked (q : Queue) (task : Nat) : Bool :=
  runqueue_contains_locked q task && links_valid q task (q.rq_priority task)

def runqueue_reset_task_locked (q : Queue) (task : Nat) : Queue :=
  { q with
    rq_next := update q.rq_next task none
    rq_prev := update q.rq_prev task none
    rq_priority := update q.rq_priority task TASK_PRIORITY_LEVELS
    ready_since_tick := update q.ready_since_tick task 0 }

/-- The last task of a list, if it has one, belongs to it. -/
def tail_plausible (q : Queue) (prio : Nat) : Bool :=
  match q.tail prio with
  | none => true
  | some last => runqueue_link_plausible_locked q last prio

def runqueue_append_raw_locked (q : Queue) (task prio now : Nat) : Queue :=
  if TASK_PRIORITY_LEVELS ≤ prio ∨ tail_plausible q prio = false then q
  else
    { head := if (q.tail prio).isSome then q.head else update q.head prio (some task)
      tail := update q.tail prio (some task)
      count := update q.count prio (q.count prio + 1)
      nr_running := q.nr_running + 1
      rq_next := relink (update q.rq_next task none) (q.tail prio) (some task)
      rq_prev := update q.rq_prev task (q.tail prio)
      rq_priority := update q.rq_priority task prio
      ready_since_tick := update q.ready_since_tick task now }

/-- The lists anew: every task that may run, but one. -/
def runqueue_rebuild_locked (tasks : Tasks) (exclude : Option Nat) (q : Queue) : Queue :=
  let cleared := { q with head := fun _ => none, tail := fun _ => none, count := fun _ => 0, nr_running := 0 }
  (tasks.list.take MAX_TASKS).foldl (fun q task =>
    let q := runqueue_reset_task_locked q task
    if exclude ≠ some task ∧ tasks.ready task ∧ tasks.idle task = false then
      runqueue_append_raw_locked q task (tasks.level task) tasks.now
    else q) cleared

def runqueue_enqueue_tail_locked (tasks : Tasks) (q : Queue) (task : Nat) : Queue :=
  if tasks.idle task then q
  else if runqueue_membership_valid_locked q task then q
  else
    let q := if runqueue_contains_locked q task then
        runqueue_rebuild_locked tasks (some task) (runqueue_reset_task_locked q task) else q
    let prio := tasks.level task
    let q := if tail_plausible q prio then q else runqueue_rebuild_locked tasks (some task) q
    if tail_plausible q prio then runqueue_append_raw_locked q task prio tasks.now else q

def runqueue_remove_locked (tasks : Tasks) (q : Queue) (task : Nat) : Queue :=
  if runqueue_contains_locked q task = false then q
  else
    let prio := q.rq_priority task
    if links_valid q task prio = false then
      runqueue_rebuild_locked tasks (some task) (runqueue_reset_task_locked q task)
    else
      let linked := { q with
        rq_next := relink q.rq_next (q.rq_prev task) (q.rq_next task)
        rq_prev := relink q.rq_prev (q.rq_next task) (q.rq_prev task)
        head := if (q.rq_prev task).isSome then q.head else update q.head prio (q.rq_next task)
        tail := if (q.rq_next task).isSome then q.tail else update q.tail prio (q.rq_prev task) }
      { runqueue_reset_task_locked linked task with
        count := update q.count prio (q.count prio - 1)
        nr_running := q.nr_running - 1 }

/-- One list in `runqueue_validate_locked`: the number of its tasks and of all so far. -/
def validate_list (q : Queue) (prio : Nat) : Nat → Option Nat → Option Nat → Nat → Nat → Option (Nat × Nat)
  | _, none, _, count, total => some (count,total)
  | 0, some _, _, _, _ => none
  | rounds + 1, some task, prev, count, total =>
    if runqueue_link_plausible_locked q task prio = false then none
    else if q.rq_prev task ≠ prev then none
    else if q.rq_next task = none ∧ q.tail prio ≠ some task then none
    else if MAX_TASKS < count + 1 ∨ MAX_TASKS < total + 1 then none
    else validate_list q prio rounds (q.rq_next task) (some task) (count + 1) (total + 1)

def validate_levels (q : Queue) : List Nat → Nat → Option Nat
  | [], total => some total
  | prio :: rest, total =>
    if q.head prio = none ∧ q.tail prio ≠ none then none
    else
      match validate_list q prio (MAX_TASKS + 1) (q.head prio) none 0 total with
      | none => none
      | some (count,total) => if q.count prio ≠ count then none else validate_levels q rest total

def runqueue_validate_locked (q : Queue) : Bool :=
  validate_levels q (List.range TASK_PRIORITY_LEVELS) 0 = some q.nr_running

/-! ### Lists in order -/

/-- The queue holds these lists. -/
structure Represents (q : Queue) (queues : Nat → List Nat) : Prop where
  linked : ∀ prio < TASK_PRIORITY_LEVELS, Doubly q.rq_next q.rq_prev (q.head prio) (q.tail prio) (queues prio)
  level : ∀ prio < TASK_PRIORITY_LEVELS, ∀ task ∈ queues prio, q.rq_priority task = prio
  listed : ∀ task, q.rq_priority task < TASK_PRIORITY_LEVELS → task ∈ queues (q.rq_priority task)
  counted : ∀ prio < TASK_PRIORITY_LEVELS, q.count prio = (queues prio).length
  total : q.nr_running = ∑ prio ∈ Finset.range TASK_PRIORITY_LEVELS, (queues prio).length

variable {q : Queue} {queues : Nat → List Nat} {task prio : Nat} {tasks : Tasks}

theorem contains_small (inside : runqueue_contains_locked q task = true) : q.rq_priority task < TASK_PRIORITY_LEVELS := by
  simpa [runqueue_contains_locked] using inside

section
variable (represents : Represents q queues)
include represents

theorem Represents.outside (absent : runqueue_contains_locked q task = false)
    (small : prio < TASK_PRIORITY_LEVELS) : task ∉ queues prio := by
  intro inside
  have place := represents.level prio small task inside
  simp [runqueue_contains_locked,place,small] at absent

theorem Represents.contains_iff :
    runqueue_contains_locked q task = true ↔ ∃ prio < TASK_PRIORITY_LEVELS, task ∈ queues prio := by
  constructor
  · intro inside
    have small := contains_small inside
    exact ⟨_,small,represents.listed task small⟩
  · grind [level,runqueue_contains_locked]

theorem Represents.tail_plausible (small : prio < TASK_PRIORITY_LEVELS) : tail_plausible q prio = true := by
  unfold RunQueue.tail_plausible
  split
  · rfl
  rename_i last found
  have last_of := (represents.linked prio small).tail_eq
  grind [runqueue_link_plausible_locked,level]

theorem Represents.links_valid (small : prio < TASK_PRIORITY_LEVELS)
    (inside : task ∈ queues prio) : links_valid q task prio = true := by
  have list := represents.linked prio small
  have level := represents.level prio small
  obtain ⟨before,after,split⟩ := append_of_mem inside
  rw [split] at list level
  unfold RunQueue.links_valid runqueue_link_plausible_locked
  rw [list.prev_eq,list.next_eq,Bool.and_eq_true]
  constructor
  · rcases eq_nil_or_concat before with rfl | ⟨front,z,rfl⟩
    · simpa using list.forwards.head_eq
    rw [concat_eq_append] at *
    have back : Doubly q.rq_next q.rq_prev (q.head prio) (q.tail prio) (front ++ z :: task :: after) := by simpa using list
    simp [level z (by simp),back.next_eq]
  cases after with
  | nil => simpa using list.tail_eq
  | cons z rest =>
    have ahead : Doubly q.rq_next q.rq_prev (q.head prio) (q.tail prio) ((before ++ [task]) ++ z :: rest) := by
      simpa using list
    simp [level z (by simp),ahead.prev_eq]

end

theorem sum_length_update (small : prio < TASK_PRIORITY_LEVELS) (queues : Nat → List Nat) (list : List Nat) :
    (∑ p ∈ Finset.range TASK_PRIORITY_LEVELS, (update queues prio list p).length) + (queues prio).length =
      (∑ p ∈ Finset.range TASK_PRIORITY_LEVELS, (queues p).length) + list.length := by
  have inside : prio ∈ Finset.range TASK_PRIORITY_LEVELS := Finset.mem_range.mpr small
  rw [← Finset.add_sum_erase _ _ inside,← Finset.add_sum_erase _ (fun p => (queues p).length) inside,update_self]
  grind [Finset.sum_congr]

section
variable (represents : Represents q queues)
include represents

theorem Represents.replace {q' : Queue} {nodes : List Nat} (small : prio < TASK_PRIORITY_LEVELS)
    (list : Doubly q'.rq_next q'.rq_prev (q'.head prio) (q'.tail prio) nodes)
    (others : ∀ p, p ≠ prio → q'.head p = q.head p ∧ q'.tail p = q.tail p ∧ q'.count p = q.count p)
    (links : ∀ p < TASK_PRIORITY_LEVELS, p ≠ prio → ∀ c ∈ queues p, q'.rq_next c = q.rq_next c ∧ q'.rq_prev c = q.rq_prev c)
    (level : ∀ c, q'.rq_priority c = prio ↔ c ∈ nodes)
    (levels : ∀ p < TASK_PRIORITY_LEVELS, p ≠ prio → ∀ c, q'.rq_priority c = p ↔ q.rq_priority c = p)
    (count : q'.count prio = nodes.length) (total : q'.nr_running + (queues prio).length = q.nr_running + nodes.length) :
    Represents q' (update queues prio nodes) := by
  refine ⟨?_,?_,?_,?_,?_⟩
  · intro p below
    by_cases same : p = prio
    · subst same
      rwa [update_self]
    rw [update_of_ne same,(others p same).1,(others p same).2.1]
    exact (represents.linked p below).frame (links p below same)
  · intro p below c inside
    by_cases same : p = prio
    · subst same
      rw [update_self] at inside
      exact (level c).mpr inside
    rw [update_of_ne same] at inside
    exact (levels p below same c).mpr (represents.level p below c inside)
  · intro c below
    by_cases same : q'.rq_priority c = prio
    · rw [same,update_self]
      exact (level c).mp same
    have before := (levels _ below same c).mp rfl
    rw [update_of_ne same,← before]
    exact represents.listed c (before.symm ▸ below)
  · intro p below
    by_cases same : p = prio
    · subst same
      rwa [update_self]
    rw [update_of_ne same,(others p same).2.2]
    exact represents.counted p below
  have sum := sum_length_update small queues nodes
  rw [represents.total] at total
  omega

theorem Represents.level_iff (small : prio < TASK_PRIORITY_LEVELS) (c : Nat) :
    q.rq_priority c = prio ↔ c ∈ queues prio :=
  ⟨fun level => level ▸ represents.listed c (level ▸ small),represents.level prio small c⟩

theorem append_raw_represents (absent : runqueue_contains_locked q task = false)
    (small : prio < TASK_PRIORITY_LEVELS) (now : Nat) :
    Represents (runqueue_append_raw_locked q task prio now) (update queues prio (queues prio ++ [task])) := by
  have outside : task ∉ queues prio := represents.outside absent small
  have longer := (represents.linked prio small).append outside
  have last_of := (represents.linked prio small).tail_eq
  have unlisted : ∀ p < TASK_PRIORITY_LEVELS, q.rq_priority task ≠ p := by
    rintro p below rfl
    simp [runqueue_contains_locked,below] at absent
  have fits : ¬ (TASK_PRIORITY_LEVELS ≤ prio ∨ tail_plausible q prio = false) := by
    simp [represents.tail_plausible small,small]
  unfold runqueue_append_raw_locked
  rw [if_neg fits]
  apply represents.replace small
  · grind
  · grind
  · intro p below other c inside
    have not_task : c ≠ task := fun same => represents.outside absent below (same ▸ inside)
    refine ⟨?_,update_of_ne not_task _ _⟩
    dsimp only
    cases found : q.tail prio with
    | none => exact update_of_ne not_task _ _
    | some last =>
      rw [found] at last_of
      have last_level := represents.level prio small last (mem_of_getLast? last_of.symm)
      have not_last : c ≠ last := fun same => other ((represents.level p below c inside).symm.trans (same ▸ last_level))
      rw [relink,update_of_ne not_last,update_of_ne not_task]
  · intro c
    by_cases same : c = task
    · simp [same]
    · simp [same,represents.level_iff small]
  · grind
  · simp [represents.counted prio small]
  simp only [length_append,length_singleton]
  omega

end

theorem task_runqueue_priority_lt (priority : Nat) : task_runqueue_priority priority < TASK_PRIORITY_LEVELS := by
  unfold task_runqueue_priority TASK_PRIORITY_LEVELS
  split <;> omega

section
variable (represents : Represents q queues)
include represents

theorem membership_valid : runqueue_membership_valid_locked q task = runqueue_contains_locked q task := by
  unfold runqueue_membership_valid_locked
  cases inside : runqueue_contains_locked q task with
  | false => rfl
  | true =>
    have small := contains_small inside
    simpa using represents.links_valid small (represents.listed task small)

/-- A task on a list stays; another is appended to its list. -/
theorem enqueue_present (inside : runqueue_contains_locked q task = true) :
    runqueue_enqueue_tail_locked tasks q task = q := by
  unfold runqueue_enqueue_tail_locked
  rw [membership_valid represents,inside]
  split <;> rfl

section
variable (absent : runqueue_contains_locked q task = false)
include absent

section
variable (small : tasks.level task < TASK_PRIORITY_LEVELS)
include small

theorem enqueue_absent (working : tasks.idle task = false) :
    runqueue_enqueue_tail_locked tasks q task = runqueue_append_raw_locked q task (tasks.level task) tasks.now := by
  unfold runqueue_enqueue_tail_locked
  rw [membership_valid represents,absent,working]
  simp only [Bool.false_eq_true,if_false,represents.tail_plausible small,if_true]

theorem enqueue_represents (working : tasks.idle task = false) :
    Represents (runqueue_enqueue_tail_locked tasks q task)
      (update queues (tasks.level task) (queues (tasks.level task) ++ [task])) := by
  rw [enqueue_absent represents absent small working]
  exact append_raw_represents represents absent small tasks.now

theorem enqueue_priority (working : tasks.idle task = false) :
    (runqueue_enqueue_tail_locked tasks q task).rq_priority = update q.rq_priority task (tasks.level task) := by
  rw [enqueue_absent represents absent small working]
  unfold runqueue_append_raw_locked
  rw [if_neg (by simp [represents.tail_plausible small,small])]

end

end

theorem enqueue_contains (small : tasks.level task < TASK_PRIORITY_LEVELS)
    (working : tasks.idle task = false) (other : Nat) :
    runqueue_contains_locked (runqueue_enqueue_tail_locked tasks q task) other =
      if other = task then true else runqueue_contains_locked q other := by
  cases inside : runqueue_contains_locked q task with
  | true =>
    rw [enqueue_present represents inside]
    split
    · rename_i same
      rw [same,inside]
    · rfl
  | false =>
    unfold runqueue_contains_locked
    rw [enqueue_priority represents inside small working]
    by_cases same : other = task <;> simp [same,small]

end

theorem remove_absent (absent : runqueue_contains_locked q task = false) : runqueue_remove_locked tasks q task = q :=
  if_pos absent

section
variable (represents : Represents q queues)
include represents

theorem remove_represents (inside : runqueue_contains_locked q task = true) :
    Represents (runqueue_remove_locked tasks q task)
      (update queues (q.rq_priority task) ((queues (q.rq_priority task)).erase task)) := by
  have small := contains_small inside
  generalize here : q.rq_priority task = prio at small
  have member : task ∈ queues prio := (represents.level_iff small task).mp here
  have list := represents.linked prio small
  have apart := list.forwards.nodup
  have erased : ∀ c, c ∈ (queues prio).erase task ↔ c ≠ task ∧ c ∈ queues prio := fun c => apart.mem_erase_iff
  have shorter := length_erase_of_mem member
  have some_there : 0 < (queues prio).length := length_pos_of_mem member
  have enough : (queues prio).length ≤ q.nr_running := by
    rw [represents.total]
    exact Finset.single_le_sum (f := fun p => (queues p).length) (fun _ _ => Nat.zero_le _) (Finset.mem_range.mpr small)
  -- the neighbours are tasks of the same list
  have neighbour : ∀ z, q.rq_prev task = some z ∨ q.rq_next task = some z → q.rq_priority z = prio := by
    intro z found
    refine represents.level prio small z ?_
    obtain ⟨before,after,split⟩ := append_of_mem member
    rw [split] at list ⊢
    rw [list.prev_eq,list.next_eq] at found
    rcases found with last | first
    · exact mem_append_left _ (mem_of_getLast? last)
    · exact mem_append_right _ (mem_cons_of_mem _ (mem_of_head? first))
  have removed : Doubly (relink q.rq_next (q.rq_prev task) (q.rq_next task))
      (relink q.rq_prev (q.rq_next task) (q.rq_prev task)) (if (q.rq_prev task).isSome then q.head prio else q.rq_next task)
      (if (q.rq_next task).isSome then q.tail prio else q.rq_prev task) ((queues prio).erase task) := by
    obtain ⟨before,after,split⟩ := append_of_mem member
    rw [split] at list apart ⊢
    have not_before : task ∉ before := fun again =>
      (nodup_cons.mp (nodup_middle.mp apart)).1 (mem_append_left _ again)
    rw [erase_append_right _ not_before,erase_cons_head]
    exact list.remove
  unfold runqueue_remove_locked
  rw [if_neg (by simp [inside]),here]
  dsimp only
  rw [if_neg (by simp [represents.links_valid small member])]
  apply represents.replace small
  · refine Doubly.frame ?_ fun c inside => ⟨update_of_ne ((erased c).mp inside).1 _ _,
      update_of_ne ((erased c).mp inside).1 _ _⟩
    dsimp only [runqueue_reset_task_locked]
    split <;> split <;> simp_all
  · intro p other
    dsimp only [runqueue_reset_task_locked]
    refine ⟨?_,?_,update_of_ne other _ _⟩ <;> split <;> simp [other]
  · intro p below other c inside
    have level := represents.level p below c inside
    have not_task : c ≠ task := fun same => other (by rw [← level,same,here])
    dsimp only [runqueue_reset_task_locked]
    rw [update_of_ne not_task,update_of_ne not_task]
    constructor
    · cases found : q.rq_prev task with
      | none => rfl
      | some z => exact update_of_ne (fun same => other (by rw [← level,same,neighbour z (.inl found)])) _ _
    cases found : q.rq_next task with
    | none => rfl
    | some z => exact update_of_ne (fun same => other (by rw [← level,same,neighbour z (.inr found)])) _ _
  · intro c
    rw [erased]
    by_cases same : c = task
    · simp [runqueue_reset_task_locked,same,small.ne']
    · simp [runqueue_reset_task_locked,same,represents.level_iff small]
  · intro p below other c
    by_cases same : c = task
    · simp [runqueue_reset_task_locked,same,here,Ne.symm other,below.ne']
    · simp [runqueue_reset_task_locked,same]
  · simp [represents.counted prio small,shorter]
  dsimp only
  omega

theorem remove_priority (inside : runqueue_contains_locked q task = true) :
    (runqueue_remove_locked tasks q task).rq_priority = update q.rq_priority task TASK_PRIORITY_LEVELS := by
  have small := contains_small inside
  unfold runqueue_remove_locked
  rw [if_neg (by simp [inside])]
  dsimp only
  rw [if_neg (by simp [represents.links_valid small (represents.listed task small)])]
  rfl

theorem remove_contains (other : Nat) :
    runqueue_contains_locked (runqueue_remove_locked tasks q task) other =
      if other = task then false else runqueue_contains_locked q other := by
  cases inside : runqueue_contains_locked q task with
  | false =>
    rw [remove_absent inside]
    split
    · rename_i same
      rw [same,inside]
    · rfl
  | true =>
    unfold runqueue_contains_locked
    rw [remove_priority represents inside]
    by_cases same : other = task <;> simp [same]

theorem Represents.forget (absent : runqueue_contains_locked q task = false) :
    Represents { q with
      rq_next := update q.rq_next task none
      rq_prev := update q.rq_prev task none
      rq_priority := update q.rq_priority task TASK_PRIORITY_LEVELS } queues where
  linked := fun prio small => (represents.linked prio small).frame fun c inside => by
    have apart : c ≠ task := fun same => represents.outside absent small (same ▸ inside)
    exact ⟨update_of_ne apart _ _,update_of_ne apart _ _⟩
  level := fun prio small c inside => by
    have apart : c ≠ task := fun same => represents.outside absent small (same ▸ inside)
    exact (update_of_ne apart _ _).trans (represents.level prio small c inside)
  listed := fun c small => by grind [listed]
  counted := represents.counted
  total := represents.total

end

/-! ### Validation -/

section
variable (represents : Represents q queues)
include represents

theorem validate_list_passes (small : prio < TASK_PRIORITY_LEVELS)
    {before after : List Nat} (split : queues prio = before ++ after) {rounds count total : Nat}
    (long : after.length ≤ rounds) (few : count + after.length ≤ MAX_TASKS) (fits : total + after.length ≤ MAX_TASKS) :
    validate_list q prio rounds after.head? before.getLast? count total = some
        (count + after.length,total + after.length) := by
  have list := represents.linked prio small
  rw [split] at list
  induction after generalizing before rounds count total with
  | nil => cases rounds <;> rfl
  | cons task after ih =>
    have level := represents.level prio small task (by simp [split])
    rw [length_cons] at long few fits
    obtain ⟨rounds,rfl⟩ := Nat.exists_eq_succ_of_ne_zero (ne_of_gt (lt_of_lt_of_le (Nat.succ_pos _) long))
    rw [head?_cons,validate_list,if_neg (by simp [runqueue_link_plausible_locked,level]),
      if_neg (by simp [list.prev_eq]),if_neg ?_,if_neg (by omega),list.next_eq]
    · have later : validate_list q prio rounds after.head? (before ++ [task]).getLast? (count + 1) (total + 1) =
          some (count + 1 + after.length,total + 1 + after.length) :=
        ih (by simp [split]) (by omega) (by omega) (by omega) (by simpa using list)
      grind
    rintro ⟨ends,other⟩
    rw [list.next_eq] at ends
    rw [head?_eq_none_iff.mp ends] at list
    exact other (by simpa using list.tail_eq)

theorem validate_levels_passes {levels : List Nat} {total : Nat} (small : ∀ prio ∈ levels, prio < TASK_PRIORITY_LEVELS)
    (fits : total + (levels.map fun prio => (queues prio).length).sum ≤ MAX_TASKS) :
    validate_levels q levels total = some (total + (levels.map fun prio => (queues prio).length).sum) := by
  induction levels generalizing total with
  | nil => rfl
  | cons prio rest ih =>
    have below := small prio mem_cons_self
    have list := represents.linked prio below
    rw [map_cons,sum_cons] at fits ⊢
    have passed := @validate_list_passes q queues prio represents below [] (queues prio) rfl (MAX_TASKS + 1) 0 total
      (by omega) (by omega) (by omega)
    rw [validate_levels,if_neg ?_,list.forwards.head_eq]
    · grind [Represents.counted]
    rintro ⟨empty,other⟩
    rw [list.forwards.head_eq,head?_eq_none_iff] at empty
    rw [list.tail_eq,empty] at other
    exact other rfl

/-- Lists in order pass if they are not too long. -/
theorem validate_passes (few : q.nr_running ≤ MAX_TASKS) : runqueue_validate_locked q = true := by
  have total : q.nr_running = ((range TASK_PRIORITY_LEVELS).map fun prio => (queues prio).length).sum := by
    rw [represents.total]
    rfl
  unfold runqueue_validate_locked
  rw [validate_levels_passes represents (fun _ => mem_range.mp) (by omega),total]
  simp

/-- Tasks that are all in a list are no more than the list has. -/
theorem Represents.nr_running_le {list : List Nat}
    (inside : ∀ task, runqueue_contains_locked q task = true → task ∈ list) : q.nr_running ≤ list.length := by
  have total : q.nr_running = ((range TASK_PRIORITY_LEVELS).flatMap queues).length := by
    rw [represents.total,length_flatMap]
    rfl
  rw [total]
  refine List.Subperm.length_le (subperm_of_subset ?_ ?_)
  · rw [nodup_flatMap]
    refine ⟨fun prio member => (represents.linked prio (mem_range.mp member)).forwards.nodup,?_⟩
    refine List.Nodup.pairwise_of_forall_ne nodup_range fun p below r below' apart c one other => ?_
    exact apart ((represents.level p (mem_range.mp below) c one).symm.trans
      (represents.level r (mem_range.mp below') c other))
  intro c member
  obtain ⟨prio,below,there⟩ := mem_flatMap.mp member
  exact inside c (represents.contains_iff.mpr ⟨prio,mem_range.mp below,there⟩)

end

end ArmOS.RunQueue

