import ArmOS.Scheduler

/-!
Which CPU has a task in hand: it executes it, has chosen it for its next switch, or
is still on its stack. `running_cpu` names that CPU until a dead task gives it up.
Only ending a task in some CPU's hands breaks this.
-/
namespace ArmOS.Owners
open RunQueue Scheduler Runs Function Option

/-- The task a CPU has chosen and not published or put back. -/
def claimed : Phase → Option Nat
  | .chosen _ next => some next
  | .validated _ next => some next
  | .refused _ next => some next
  | .replacing task => some task
  | .discarding task => some task
  | .leaving_with task next => if next = some task then some task else none
  | .dropping task held => if held then some task else none
  | _ => none

/-- The task whose stack a CPU has not left yet. -/
def old : Phase → Option Nat
  | .switching task _ => task
  | _ => none

/-- The CPU does not go back to its current task. -/
def leaves : Phase → Bool
  | .off => true
  | .leaving => true
  | .replacing _ => true
  | .discarding _ => true
  | .leaving_with _ _ => true
  | .dropping _ _ => true
  | .idling => true
  | _ => false

/-- A CPU has a task in hand. -/
def holds (s : System) (cpu task : Nat) : Prop :=
  s.current cpu = some task ∨ claimed (s.phase cpu) = some task ∨ old (s.phase cpu) = some task
def dead (k : Kernel) (task : Nat) : Bool := (k.state task).dead

/-! ### What the sections do to the owners -/

/-- The owners and the dead tasks stay. -/
structure Keeps (k k' : Kernel) : Prop where
  owner : k'.running_cpu = k.running_cpu
  dead : ∀ task, dead k' task = dead k task

/-- A CPU gets a task that is alive and belongs to no other CPU. -/
structure Takes (k k' : Kernel) (cpu task : Nat) : Prop where
  owner : k'.running_cpu = update k.running_cpu task (some cpu)
  dead : ∀ task, dead k' task = dead k task
  alive : Owners.dead k task = false
  free : k.running_cpu task = none ∨ k.running_cpu task = some cpu

theorem Keeps.refl (k : Kernel) : Keeps k k := ⟨rfl,fun _ => rfl⟩
variable {k k' k'' : Kernel}

theorem Keeps.trans (one : Keeps k k') (two : Keeps k' k'') : Keeps k k'' :=
  ⟨two.owner.trans one.owner,fun task => (two.dead task).trans (one.dead task)⟩

theorem Keeps.takes {cpu task : Nat} (one : Keeps k k') (two : Takes k' k'' cpu task) : Takes k k'' cpu task where
  owner := by rw [two.owner,one.owner]
  dead := fun t => (two.dead t).trans (one.dead t)
  alive := (one.dead task).symm.trans two.alive
  free := one.owner ▸ two.free

variable {m : Machine} {k k' : Kernel} {cpu task : Nat} {state : TaskState}

theorem dead_update (same : state.dead = dead k task) (other : Nat) :
    (update k.state task state other).dead = dead k other := by
  by_cases here : other = task
  · rw [here,update_self,same]
  rw [update_of_ne here]
  rfl

theorem make_ready_keeps : Keeps k (task_make_ready_under_lock m k cpu task) := by
  unfold task_make_ready_under_lock
  split
  · exact .refl k
  rename_i alive
  split
  · exact .refl k
  split
  · exact .refl k
  have lively : dead k task = false := by simpa [dead] using alive
  exact ⟨rfl,dead_update lively.symm⟩

variable {current : Option Nat}

theorem prepare_keeps : Keeps k (scheduler_prepare_current_for_switch m k cpu current) := by
  unfold scheduler_prepare_current_for_switch
  split
  · exact .refl k
  split
  · exact make_ready_keeps
  · exact .refl k

theorem add_to_ready_queue_keeps : Keeps k (add_to_ready_queue m k cpu task) := by
  unfold add_to_ready_queue
  split
  · exact .refl k
  refine Keeps.trans ?_ make_ready_keeps
  unfold add_task_to_list_locked
  split
  · exact .refl k
  · exact ⟨rfl,fun _ => rfl⟩

theorem set_priority_keeps {priority : Nat} : Keeps k (task_set_priority m k task priority) := by
  unfold task_set_priority
  split
  · dsimp only
    split
    · exact ⟨rfl,fun _ => rfl⟩
    · exact ⟨rfl,fun _ => rfl⟩
  · exact ⟨rfl,fun _ => rfl⟩

theorem remove_from_ready_queue_keeps : Keeps k (remove_from_ready_queue m k task) := by
  refine ⟨rfl,fun other => ?_⟩
  unfold remove_from_ready_queue dead
  grind [TaskState.dead]

theorem set_state_keeps (alive : dead k task = false) (own : k.running_cpu task = some cpu)
    (lively : state.dead = false) : Keeps k (task_set_state m k cpu current task state) := by
  unfold task_set_state
  split
  · exact make_ready_keeps
  split
  · exact .refl k
  split
  · exact .refl k
  refine ⟨?_,dead_update (lively.trans alive.symm)⟩
  split
  · rw [← own,update_eq_self]
  · rfl

theorem set_terminated_effect : (task_set_state m k cpu current task .TERMINATED).running_cpu = k.running_cpu ∧
      ∀ other, dead (task_set_state m k cpu current task .TERMINATED) other = dead k other ∨
        (other = task ∧ dead (task_set_state m k cpu current task .TERMINATED) other = true) := by
  unfold task_set_state
  rw [if_neg nofun,if_neg (by simp)]
  split
  · exact ⟨rfl,fun _ => .inl rfl⟩
  · grind [TaskState.dead,dead]

theorem mark_running_takes (marked : scheduler_mark_running_locked m k cpu task = some k') : Takes k k' cpu task := by
  unfold scheduler_mark_running_locked at marked
  split at marked
  · rename_i already
    cases marked
    refine ⟨?_,fun _ => rfl,by simp [dead,already.1,TaskState.dead],.inr already.2⟩
    rw [← already.2,update_eq_self]
  split at marked
  · cases marked
  rename_i may
  cases marked
  have alive : dead k task = false := by
    unfold dead
    cases state : k.state task <;> simp_all [TaskState.dead]
  refine ⟨rfl,dead_update (by rw [alive]; rfl),alive,?_⟩
  by_contra owned
  exact may (.inr (not_or.mp owned))

theorem claim_takes (claim : scheduler_claim_ready_locked m k cpu task = some k') : Takes k k' cpu task := by
  unfold scheduler_claim_ready_locked at claim
  split at claim
  · cases claim
  rename_i may
  cases claim
  obtain ⟨ready,free⟩ := not_or.mp may
  exact ⟨rfl,fun _ => rfl,by simp [dead,not_not.mp ready,TaskState.dead],.inl (not_not.mp free)⟩

/-- A CPU gets a task or none. -/
def Picks (k k' : Kernel) (cpu : Nat) : Option Nat → Prop
  | none => Keeps k k'
  | some task => Takes k k' cpu task

theorem Keeps.picks {result : Option Nat} (one : Keeps k k') (two : Picks k' k'' cpu result) :
    Picks k k'' cpu result := by
  cases result with
  | none => exact one.trans two
  | some task => exact one.takes two

theorem pick_loop_picks (m : Machine) (k : Kernel) (cpu rounds : Nat) :
    Picks k (pick_loop m cpu rounds k).1 cpu (pick_loop m cpu rounds k).2 := by
  induction rounds generalizing k with
  | zero => exact Keeps.refl k
  | succ rounds ih =>
    unfold pick_loop
    split
    · exact Keeps.refl k
    split
    · exact Keeps.refl k
    rename_i best _
    split
    · dsimp only
      have charged : Keeps k { k with sched_debt := update k.sched_debt best.task best.debt } :=
        ⟨rfl,fun _ => rfl⟩
      split
      · rename_i claim
        exact charged.takes (claim_takes claim)
      · exact charged.picks (ih _)
    have removed : Keeps k (k.remove m best.task) := ⟨rfl,fun _ => rfl⟩
    exact removed.picks (ih _)

theorem schedule_next_task_takes (next : schedule_next_task m k cpu = some (k',task)) : Takes k k' cpu task := by
  unfold schedule_next_task at next
  dsimp only at next
  have checked : Keeps k (if runqueue_validate_locked k.queue then k
      else { k with queue := runqueue_rebuild_locked (k.view m) none k.queue }) := by
    split
    · exact .refl k
    · exact ⟨rfl,fun _ => rfl⟩
  have picks := checked.picks (pick_loop_picks m _ cpu (MAX_TASKS + 1))
  split at next
  · rename_i picked
    cases next
    rwa [picked] at picks
  rename_i picked
  rw [picked] at picks
  split at next
  · cases next
  obtain ⟨k'',marked,same⟩ := map_eq_some_iff.mp next
  cases same
  exact Keeps.takes picks (mark_running_takes marked)

/-! ### The invariant -/

structure Owned (s : System) : Prop where
  /-- A task in hand belongs to the CPU, unless it is dead. -/
  holder : ∀ cpu task, holds s cpu task → s.kernel.running_cpu task = some cpu ∨
    (dead s.kernel task = true ∧ s.kernel.running_cpu task = none)
  single : ∀ cpu cpu' task, holds s cpu task → holds s cpu' task → cpu = cpu'
  alive : ∀ cpu task, leaves (s.phase cpu) = false → s.current cpu = some task →
    dead s.kernel task = false ∧ s.kernel.running_cpu task = some cpu
  dying : ∀ cpu task, leaves (s.phase cpu) = true → s.current cpu = some task → dead s.kernel task = true
  apart : ∀ cpu task, claimed (s.phase cpu) = some task ∨ old (s.phase cpu) = some task → s.current cpu ≠ some task

variable {s : System}

section
variable (owned : Owned s)
include owned

theorem Owned.unheld (alive : dead s.kernel task = false)
    (free : s.kernel.running_cpu task = none ∨ s.kernel.running_cpu task = some cpu) {other : Nat}
    (held : holds s other task) : other = cpu := by
  rcases owned.holder other task held with own | ⟨gone,_⟩
  · grind
  rw [alive] at gone
  cases gone

theorem Owned.unclaimed (current : s.current cpu = some task) (other : Nat) : claimed (s.phase other) ≠ some task := by
  intro mine
  obtain rfl := owned.single cpu other task (.inl current) (.inr (.inl mine))
  exact owned.apart cpu task (.inl mine) current

theorem Owned.keeps (keeps : Keeps s.kernel k') : Owned { s with kernel := k' } where
  holder := fun cpu task held => by
    have before := owned.holder cpu task held
    simpa [keeps.owner,keeps.dead] using before
  single := owned.single
  alive := fun cpu task stays here => by
    have before := owned.alive cpu task stays here
    simpa [keeps.owner,keeps.dead] using before
  dying := fun cpu task left here => (keeps.dead task).trans (owned.dying cpu task left here)
  apart := owned.apart

variable {phase : Phase}

/-- A CPU goes on with nothing more in hand. -/
theorem Owned.move (same : leaves phase = leaves (s.phase cpu))
    (fewer : ∀ task, claimed phase = some task → claimed (s.phase cpu) = some task)
    (left : ∀ task, old phase = some task → old (s.phase cpu) = some task) : Owned (s.at cpu s.kernel phase) := by
  have less : ∀ c task, holds (s.at cpu s.kernel phase) c task → holds s c task := by
    intro c task held
    by_cases here : c = cpu
    · subst here
      simp only [holds,System.at,update_self] at held
      exact held.imp id (Or.imp (fewer task) (left task))
    · simpa [holds,System.at,here] using held
  refine ⟨fun c task held => owned.holder c task (less c task held),
    fun c c' task one two => owned.single c c' task (less c task one) (less c' task two),?_,?_,?_⟩
  · intro c task stays here
    by_cases place : c = cpu
    · subst place
      simp only [System.at,update_self] at stays
      exact owned.alive c task (same ▸ stays) here
    simp only [System.at,update_of_ne place] at stays
    exact owned.alive c task stays here
  · intro c task gone here
    by_cases place : c = cpu
    · subst place
      simp only [System.at,update_self] at gone
      exact owned.dying c task (same ▸ gone) here
    simp only [System.at,update_of_ne place] at gone
    exact owned.dying c task gone here
  intro c task mine
  by_cases place : c = cpu
  · subst place
    simp only [System.at,update_self] at mine
    exact owned.apart c task (mine.imp (fewer task) (left task))
  simp only [System.at,update_of_ne place] at mine
  exact owned.apart c task mine

/-- A CPU gets a free task, to execute it or for its next switch. -/
theorem Owned.takes_task {now : Option Nat} (takes : Takes s.kernel k' cpu task)
    (hands : ∀ t, now = some t ∨ claimed phase = some t ∨ old phase = some t → s.current cpu = some t ∨ t = task)
    (apart : ∀ t, claimed phase = some t ∨ old phase = some t → now ≠ some t)
    (executes : (now = s.current cpu ∧ leaves phase = leaves (s.phase cpu)) ∨ (now = some task ∧ leaves phase = false)) :
    Owned ⟨k',update s.current cpu now,update s.phase cpu phase⟩ := by
  have more : ∀ c t, holds ⟨k',update s.current cpu now,update s.phase cpu phase⟩ c t → holds s c t ∨
      (c = cpu ∧ t = task) := by
    intro c t held
    by_cases here : c = cpu
    · subst here
      simp only [holds,update_self] at held
      exact (hands t held).imp .inl fun same => ⟨rfl,same⟩
    · exact .inl (by simpa [holds,here] using held)
  have owner : ∀ t, t ≠ task → k'.running_cpu t = s.kernel.running_cpu t := fun t apart => by
    rw [takes.owner,update_of_ne apart]
  have mine : k'.running_cpu task = some cpu := by rw [takes.owner,update_self]
  have only : ∀ c, holds s c task → c = cpu := fun c held => owned.unheld takes.alive takes.free held
  refine ⟨?_,?_,?_,?_,?_⟩
  · intro c t held
    change k'.running_cpu t = some c ∨ (dead k' t = true ∧ k'.running_cpu t = none)
    grind [holder,Owners.Takes.dead]
  · intro c c' t one two
    rcases more c t one with before | ⟨rfl,rfl⟩
    · rcases more c' t two with before' | ⟨rfl,rfl⟩
      · exact owned.single c c' t before before'
      · exact only c before
    rcases more c' t two with before' | ⟨rfl,_⟩
    · exact (only c' before').symm
    · rfl
  · intro c t stays here
    by_cases same : t = task
    · subst same
      obtain rfl : c = cpu := (more c t (.inl here)).elim (only c) And.left
      exact ⟨(takes.dead t).trans takes.alive,mine⟩
    have before : dead s.kernel t = false ∧ s.kernel.running_cpu t = some c := by
      by_cases place : c = cpu
      · subst place
        simp only [update_self] at stays here
        rcases executes with ⟨going,leaving⟩ | ⟨going,_⟩
        · exact owned.alive c t (leaving ▸ stays) (going ▸ here)
        · exact absurd (some.inj (here.symm.trans going)) same
      simp only [update_of_ne place] at stays here
      exact owned.alive c t stays here
    exact ⟨(takes.dead t).trans before.1,(owner t same).trans before.2⟩
  · intro c t gone here
    refine (takes.dead t).trans ?_
    by_cases place : c = cpu
    · subst place
      simp only [update_self] at gone here
      rcases executes with ⟨going,leaving⟩ | ⟨_,stays⟩
      · exact owned.dying c t (leaving ▸ gone) (going ▸ here)
      · simp [stays] at gone
    simp only [update_of_ne place] at gone here
    exact owned.dying c t gone here
  intro c t some_hand
  by_cases place : c = cpu
  · subst place
    simp only [update_self] at some_hand ⊢
    exact apart t some_hand
  simp only [update_of_ne place] at some_hand ⊢
  exact owned.apart c t some_hand

theorem Owned.claim (takes : Takes s.kernel k' cpu task)
    (same : leaves phase = leaves (s.phase cpu)) (claims : claimed phase = some task) (left : old phase = none)
    (other : s.current cpu ≠ some task) : Owned (s.at cpu k' phase) := by
  have stays : s.at cpu k' phase = ⟨k',update s.current cpu (s.current cpu),update s.phase cpu phase⟩ := by
    rw [update_eq_self]
    rfl
  rw [stays]
  refine owned.takes_task takes ?_ ?_ (.inl ⟨rfl,same⟩)
  all_goals grind

theorem Owned.release_dead (cpu : Nat) : Owned { s with kernel := release_dead s.kernel cpu (s.current cpu) } := by
  unfold Scheduler.release_dead
  split
  · exact owned
  rename_i task current
  split
  case isFalse => exact owned
  rename_i gone
  obtain ⟨gone,own⟩ : dead s.kernel task = true ∧ _ := gone
  refine ⟨?_,owned.single,?_,owned.dying,owned.apart⟩
  · intro c t held
    by_cases here : t = task
    · subst here
      exact .inr ⟨gone,update_self ..⟩
    · simpa [dead,update_of_ne here] using owned.holder c t held
  intro c t stays here
  have before := owned.alive c t stays here
  refine ⟨before.1,?_⟩
  grind

/-- A CPU publishes a task and leaves the stack before. -/
theorem Owned.publish (takes : Takes s.kernel k' cpu task) (other : s.current cpu ≠ some task)
    (save : Bool) : Owned (s.publish cpu k' task save) := by
  refine owned.takes_task takes ?_ ?_ (.inr ⟨rfl,rfl⟩)
  all_goals grind [claimed,old]

theorem Owned.give (own : s.kernel.running_cpu task = some cpu) (other : s.current cpu ≠ some task)
    (owner : k'.running_cpu = update s.kernel.running_cpu task none)
    (same_dead : ∀ t, dead k' t = dead s.kernel t) (same : leaves phase = leaves (s.phase cpu))
    (claims : claimed phase = none) (left : old phase = none) : Owned (s.at cpu k' phase) := by
  have moved : Owned (s.at cpu s.kernel phase) :=
    owned.move same (fun t mine => by rw [claims] at mine; cases mine) (fun t mine => by rw [left] at mine; cases mine)
  have unheld : ∀ c, ¬ holds (s.at cpu s.kernel phase) c task := by
    intro c held
    rcases moved.holder c task held with mine | ⟨_,none_there⟩
    · obtain rfl : c = cpu := some.inj (mine.symm.trans own)
      simp only [holds,System.at,update_self,claims,left,reduceCtorEq,or_false] at held
      exact other held
    · exact absurd (own.symm.trans none_there) nofun
  have elsewhere : ∀ t, t ≠ task → k'.running_cpu t = s.kernel.running_cpu t := fun t apart => by
    rw [owner,update_of_ne apart]
  refine ⟨?_,moved.single,?_,?_,moved.apart⟩
  · intro c t held
    have apart : t ≠ task := fun same => unheld c (same ▸ held)
    have before := moved.holder c t held
    change k'.running_cpu t = some c ∨ (dead k' t = true ∧ k'.running_cpu t = none)
    rw [elsewhere t apart,same_dead]
    exact before
  · intro c t stays here
    have apart : t ≠ task := fun same => unheld c (same ▸ .inl here)
    have before := moved.alive c t stays here
    exact ⟨(same_dead t).trans before.1,(elsewhere t apart).trans before.2⟩
  · exact fun c t gone here => (same_dead t).trans (moved.dying c t gone here)

theorem Owned.exit (current : s.current cpu = some task) (runs : s.phase cpu = .running)
    (owner : k'.running_cpu = s.kernel.running_cpu)
    (dies : ∀ t, dead k' t = if t = task then true else dead s.kernel t) : Owned (s.at cpu k' .leaving) := by
  have less : ∀ c t, holds (s.at cpu k' .leaving) c t → holds s c t := by
    intro c t held
    by_cases here : c = cpu
    · subst here
      simp only [holds,System.at,update_self,claimed,old,reduceCtorEq,or_false] at held
      exact .inl held
    · simpa [holds,System.at,here] using held
  refine ⟨?_,fun c c' t one two => owned.single c c' t (less c t one) (less c' t two),?_,?_,?_⟩
  · intro c t held
    change k'.running_cpu t = some c ∨ (dead k' t = true ∧ k'.running_cpu t = none)
    rw [owner,dies]
    grind [holder]
  · intro c t stays here
    by_cases place : c = cpu
    · subst place
      simp [System.at,leaves] at stays
    simp only [System.at,update_of_ne place] at stays here
    have before := owned.alive c t stays here
    have not_task : t ≠ task := fun same => place (owned.single c cpu t (.inl here) (.inl (same ▸ current)))
    change dead k' t = false ∧ k'.running_cpu t = some c
    rw [dies,if_neg not_task,owner]
    exact before
  · intro c t gone here
    change dead k' t = true
    rw [dies]
    split
    · rfl
    rename_i apart
    by_cases place : c = cpu
    · subst place
      exact absurd (some.inj (here.symm.trans current)) apart
    simp only [System.at,update_of_ne place] at gone here
    exact owned.dying c t gone here
  intro c t mine
  by_cases place : c = cpu
  · subst place
    simp [System.at,claimed,old] at mine
  simp only [System.at,update_of_ne place] at mine
  exact owned.apart c t mine

theorem Owned.terminate (free : s.kernel.running_cpu task = none) (owner : k'.running_cpu = s.kernel.running_cpu)
    (dies : ∀ t, dead k' t = dead s.kernel t ∨ (t = task ∧ dead k' t = true)) : Owned { s with kernel := k' } := by
  refine ⟨?_,owned.single,?_,?_,owned.apart⟩
  · intro c t held
    rw [owner]
    rcases dies t with same | ⟨rfl,gone⟩
    · rw [same]
      exact owned.holder c t held
    · exact .inr ⟨gone,free⟩
  · intro c t stays here
    have before := owned.alive c t stays here
    grind
  · grind [dying]

end

/-! ### Steps -/

/-- Only a task that belongs to no CPU is terminated by another. -/
def spares (s : System) : Label → Prop
  | .task_set_terminated _ task => s.kernel.running_cpu task = none
  | _ => True
def Careful (m : Machine) (s : System) (l : Label) (t : System) : Prop := Step m s l t ∧ spares s l
theorem guarded {c : Prop} [Decidable c] {r t : System} (taken : (if c then some r else none) = some t) : c ∧ r = t := by
  simpa using taken

theorem executing_map {t : System} {act : Nat → System} (taken : (s.executing cpu).map act = some t) :
    ∃ task, s.phase cpu = .running ∧ s.current cpu = some task ∧ act task = t := by
  obtain ⟨task,executes,same⟩ := map_eq_some_iff.mp taken
  unfold System.executing at executes
  split at executes
  · rename_i runs
    exact ⟨task,runs,executes,same⟩
  · cases executes

section
variable (owned : Owned s)
include owned

theorem choose_owned {t : System} (taken : choose m s cpu = some t) : Owned t := by
  unfold choose at taken
  split at taken
  · rename_i save phase
    obtain ⟨⟨k',next⟩,chose,rfl⟩ := map_eq_some_iff.mp taken
    have takes := schedule_next_task_takes chose
    split
    · rename_i same
      -- the idle task goes on: it belongs to the CPU already
      have own := owned.alive cpu next (by rw [phase]; rfl) same
      have keeps : Keeps s.kernel k' := ⟨by rw [takes.owner,← own.2,update_eq_self],takes.dead⟩
      exact (owned.keeps keeps).move (by rw [phase]; rfl) nofun nofun
    rename_i other
    exact owned.claim takes (by rw [phase]; rfl) rfl rfl other
  · rename_i phase
    obtain ⟨⟨k',next⟩,chose,rfl⟩ := map_eq_some_iff.mp taken
    have takes := schedule_next_task_takes chose
    refine owned.claim takes (by rw [phase]; rfl) rfl rfl fun current => ?_
    have gone := owned.dying cpu next (by rw [phase]; rfl) current
    rw [takes.alive] at gone
    cases gone
  · cases taken

theorem look_owned {t : System} (taken : look m s cpu = some t) : Owned t := by
  unfold look at taken
  split at taken
  · rename_i task phase
    have moves : ∀ p, leaves p = true → claimed p = some task → old p = none → Owned (s.at cpu s.kernel p) := by
      intro p left claims nothing
      refine owned.move (by rw [phase,left]; rfl) (fun t mine => ?_) fun t mine => ?_
      · rw [phase]
        exact claims.symm.trans mine
      rw [nothing] at mine
      cases mine
    split at taken
    · split at taken
      · cases taken
        exact moves _ rfl (by simp [claimed]) rfl
      cases taken
      exact moves _ rfl rfl rfl
    cases taken
    exact moves _ rfl (by simp [claimed]) rfl
  · cases taken

/-- A commit publishes, or leaves the CPU what it had. -/
theorem commit_section_owned {next : Nat} (other : s.current cpu ≠ some next) (save : Bool) {phase : Phase}
    (same : leaves phase = leaves (s.phase cpu))
    (fewer : ∀ task, claimed phase = some task → claimed (s.phase cpu) = some task) (left : old phase = none) :
    Owned (if (scheduler_commit_next_for_switch m s.kernel cpu (s.current cpu) next).2 then
        s.publish cpu (scheduler_commit_next_for_switch m s.kernel cpu (s.current cpu) next).1 next save
      else s.at cpu (scheduler_commit_next_for_switch m s.kernel cpu (s.current cpu) next).1 phase) := by
  have released := owned.release_dead cpu
  have stays := released.move same fewer fun t mine => by rw [left] at mine; cases mine
  unfold scheduler_commit_next_for_switch
  rw [if_neg other]
  dsimp only
  split
  · split
    · rename_i marked
      exact released.publish (mark_running_takes marked) other save
    · exact stays
  · exact stays

/-- The same where the CPU leaves a dead task. -/
theorem commit_section_leaving {next : Nat} (gone : leaves (s.phase cpu) = true) {phase : Phase}
    (same : leaves phase = true) (fewer : ∀ task, claimed phase = some task → claimed (s.phase cpu) = some task)
    (left : old phase = none) :
    Owned (if (scheduler_commit_next_for_switch m s.kernel cpu (s.current cpu) next).2 then
        s.publish cpu (scheduler_commit_next_for_switch m s.kernel cpu (s.current cpu) next).1 next false
      else s.at cpu (scheduler_commit_next_for_switch m s.kernel cpu (s.current cpu) next).1 phase) := by
  by_cases other : s.current cpu = some next
  · have dies : (s.kernel.state next).dead = true := owned.dying cpu next gone other
    have failed : scheduler_commit_next_for_switch m s.kernel cpu (s.current cpu) next = (s.kernel,false) := by
      unfold scheduler_commit_next_for_switch
      rw [if_pos other]
      simp [dies]
    rw [failed,if_neg (by simp)]
    exact owned.move (same.trans gone.symm) fewer fun t mine => by rw [left] at mine; cases mine
  · exact commit_section_owned owned other false (same.trans gone.symm) fewer left

theorem commit_owned {t : System} (taken : commit m s cpu = some t) : Owned t := by
  unfold commit at taken
  split at taken
  · rename_i save next phase
    have other : s.current cpu ≠ some next := owned.apart cpu next (.inl (by rw [phase]; rfl))
    have after := @commit_section_owned m cpu s owned next other save (.refused save next) (by rw [phase]; rfl)
      (fun t mine => by rw [phase]; exact mine) rfl
    grind
  · rename_i task next phase
    have after := @commit_section_leaving m cpu s owned next (by rw [phase]; rfl) (.dropping task (next = task)) rfl
      (fun t mine => by rw [phase]; simpa [claimed] using mine) rfl
    grind
  · rename_i task phase
    cases taken
    exact (owned.release_dead cpu).move (by rw [phase]; rfl) nofun nofun
  · rename_i phase
    split at taken
    · cases taken
    rename_i idle _
    have after := @commit_section_leaving m cpu s owned idle (by rw [phase]; rfl) .idling rfl nofun rfl
    grind
  · cases taken

end

theorem local_idle_idle (idle : local_idle m cpu = some task) : task_is_idle_task m task = true := by
  unfold local_idle task_idle_on_cpu at idle
  unfold task_is_idle_task
  rw [Bool.or_eq_true,List.any_eq_true]
  split at idle
  · exact .inr (by simpa using idle)
  rename_i small
  rcases or_eq_some_iff.mp idle with own | ⟨_,boot⟩
  · exact .inl ⟨cpu,List.mem_range.mpr (Nat.lt_of_not_le small),by simpa using own⟩
  · exact .inr (by simpa using boot)

theorem rollback_owned {t : System} (owned : Owned s) (taken : rollback m s cpu = some t) : Owned t := by
  have back : ∀ (task : Nat) (phase : Phase), leaves phase = leaves (s.phase cpu) → claimed phase = none → old phase = none →
      Owned (s.at cpu (scheduler_rollback_uncommitted_next m s.kernel cpu (s.current cpu) task) phase) := by
    intro task phase same claims left
    have stays := owned.move same (fun t mine => by rw [claims] at mine; cases mine) fun t mine => by
      rw [left] at mine; cases mine
    unfold scheduler_rollback_uncommitted_next
    split
    · exact stays
    rename_i may
    split
    · rename_i held
      have keeps := @make_ready_keeps m { s.kernel with running_cpu := update s.kernel.running_cpu task none } cpu task
      exact owned.give held.2 (not_or.mp may).1 keeps.owner keeps.dead same claims left
    · exact stays
  unfold rollback at taken
  split at taken
  · rename_i save next phase
    cases taken
    exact back next _ (by rw [phase]; rfl) rfl rfl
  · rename_i task phase
    cases taken
    by_cases idle : local_idle m cpu = some task
    · -- an idle task is not put back
      have same : scheduler_rollback_uncommitted_next m s.kernel cpu (s.current cpu) task = s.kernel :=
        if_pos (.inr (local_idle_idle idle))
      rw [same,idle]
      exact owned.move (by rw [phase]; rfl) (fun t mine => by rw [phase]; simpa [claimed] using mine) nofun
    · exact back task _ (by rw [phase]; rfl) (if_neg idle) rfl
  · rename_i task held phase
    cases taken
    exact back task .idling (by rw [phase]; rfl) rfl rfl
  · cases taken

/-- Every step that spares tasks in hand keeps the invariant. -/
theorem step_owned {l : Label} {t : System} (owned : Owned s) (taken : step m s l = some t) (spared : spares s l) :
    Owned t := by
  cases l with
  | sched_start cpu =>
    obtain ⟨off,rfl⟩ := guarded taken
    exact owned.move (by rw [off]; rfl) nofun nofun
  | task_start_secondary_scheduler cpu =>
    simp only [step] at taken
    split at taken
    · rename_i off
      obtain ⟨idle,_,rest⟩ := bind_eq_some_iff.mp taken
      obtain ⟨k',marked,rfl⟩ := map_eq_some_iff.mp rest
      have takes := mark_running_takes marked
      refine owned.publish takes (fun current => ?_) false
      have gone := owned.dying cpu idle (by rw [off]; rfl) current
      rw [takes.alive] at gone
      cases gone
    · cases taken
  | add_to_ready_queue cpu task =>
    cases taken
    exact owned.keeps add_to_ready_queue_keeps
  | task_wake cpu task =>
    obtain ⟨_,rfl⟩ := guarded taken
    exact owned.keeps make_ready_keeps
  | task_set_priority task priority =>
    cases taken
    exact owned.keeps set_priority_keeps
  | task_set_state cpu state =>
    simp only [step] at taken
    split at taken
    · cases taken
    rename_i lively
    obtain ⟨task,runs,current,rfl⟩ := executing_map taken
    have alive := owned.alive cpu task (by rw [runs]; rfl) current
    exact owned.keeps (set_state_keeps alive.1 alive.2 (by simpa using lively))
  | remove_from_ready_queue cpu task =>
    cases taken
    exact owned.keeps remove_from_ready_queue_keeps
  | task_set_terminated cpu task =>
    simp only [step] at taken
    split at taken
    · cases taken
    · cases taken
      exact owned.terminate spared set_terminated_effect.1 set_terminated_effect.2
  | collect task =>
    obtain ⟨zombie,rfl⟩ := guarded taken
    exact owned.keeps ⟨rfl,dead_update (by simp [dead,zombie.1,TaskState.dead])⟩
  | remove_task_from_list task =>
    obtain ⟨_,rfl⟩ := guarded taken
    exact owned.keeps ⟨rfl,fun _ => rfl⟩
  | exit cpu | exit_thread cpu =>
    obtain ⟨task,runs,current,rfl⟩ := executing_map taken
    refine owned.exit current runs rfl fun t => ?_
    by_cases here : t = task <;> simp [dead,here,TaskState.dead]
  | yield cpu =>
    obtain ⟨_,rfl⟩ := guarded taken
    exact owned.keeps prepare_keeps
  | enter cpu =>
    obtain ⟨task,runs,current,rfl⟩ := executing_map taken
    exact owned.move (by rw [runs]; rfl) nofun nofun
  | prepare cpu =>
    simp only [step] at taken
    split at taken
    · rename_i save phase
      cases taken
      have keeps : Keeps s.kernel
          (if save then scheduler_prepare_current_for_switch m s.kernel cpu (s.current cpu) else s.kernel) := by
        split
        · exact prepare_keeps
        · exact .refl _
      exact (owned.keeps keeps).move (by rw [phase]; rfl) nofun nofun
    · cases taken
  | choose cpu => exact choose_owned owned taken
  | validate cpu sp_valid =>
    simp only [step] at taken
    split at taken
    · rename_i save next phase
      cases taken
      refine owned.move ?_ ?_ ?_
      · rw [phase]
        split <;> rfl
      · intro t mine
        rw [phase]
        split at mine <;> exact mine
      intro t mine
      split at mine <;> cases mine
    · cases taken
  | look cpu => exact look_owned owned taken
  | commit cpu => exact commit_owned owned taken
  | rollback cpu => exact rollback_owned owned taken
  | restore cpu =>
    simp only [step] at taken
    split at taken
    · rename_i restore phase
      cases taken
      have own : ∀ task, s.current cpu = some task → s.kernel.running_cpu task = some cpu := fun task current =>
        (owned.alive cpu task (by rw [phase]; rfl) current).2
      have keeps : Keeps s.kernel
          (if restore then scheduler_restore_current_if_needed m s.kernel cpu (s.current cpu) else s.kernel) := by
        split
        · unfold scheduler_restore_current_if_needed
          split
          · exact .refl _
          rename_i task current
          split
          · cases marked : scheduler_mark_running_locked m s.kernel cpu task with
            | none => exact .refl _
            | some k' =>
              have takes := mark_running_takes marked
              refine ⟨?_,takes.dead⟩
              rw [getD_some,takes.owner,← own task current,update_eq_self]
          · exact .refl _
        · exact .refl _
      exact (owned.keeps keeps).move (by rw [phase]; rfl) nofun nofun
    · cases taken
  | save_complete cpu =>
    simp only [step] at taken
    split at taken
    · rename_i task phase
      cases taken
      have other : s.current cpu ≠ some task := owned.apart cpu task (.inr (by rw [phase]; rfl))
      unfold task_context_save_complete
      split
      · rename_i saved
        refine owned.give saved.2 other ?_ ?_ ?_ ?_ ?_
        · rfl
        · exact fun _ => rfl
        · rw [phase]
          rfl
        · rfl
        · rfl
      · exact owned.move (by rw [phase]; rfl) nofun nofun
    · rename_i phase
      cases taken
      exact owned.move (by rw [phase]; rfl) nofun nofun
    · cases taken
  | tick ticks task debt =>
    cases taken
    exact owned.keeps ⟨rfl,fun _ => rfl⟩

theorem first_owned (priority : Nat → Nat) : Owned (first priority) := by
  refine ⟨?_,?_,nofun,nofun,?_⟩
  · rintro cpu task (current | claims | left)
    · cases current
    · cases claims
    · cases left
  · rintro cpu cpu' task (current | claims | left)
    · cases current
    · cases claims
    · cases left
  rintro cpu task (claims | left)
  · cases claims
  · cases left

/-- Where no CPU terminates a task in some CPU's hands, no task is executed, claimed
    or being saved by two CPUs, and a `RUNNING` one belongs to its CPU. -/
theorem one_cpu_per_task (m : Machine) (priority : Nat → Nat) {s : System}
    (reached : Reachable (Careful m) (first priority) s) :
    (∀ task cpu cpu', holds s cpu task → holds s cpu' task → cpu = cpu') ∧
      (∀ task cpu, old (s.phase cpu) = some task → ∀ cpu', s.current cpu' ≠ some task ∧ claimed (s.phase cpu') ≠ some task) ∧
      ∀ task cpu, s.kernel.state task = .RUNNING → holds s cpu task → s.kernel.running_cpu task = some cpu := by
  have kept : ∀ s l t, Owned s → Careful m s l t → Owned t := fun s l t owned taken => step_owned owned taken.1 taken.2
  have owned := reached.invariant kept (first_owned priority)
  refine ⟨fun task cpu cpu' => owned.single cpu cpu' task,?_,?_⟩
  · intro task cpu saving cpu'
    constructor
    · intro current
      obtain rfl := owned.single cpu cpu' task (.inr (.inr saving)) (.inl current)
      exact owned.apart cpu task (.inr saving) current
    intro claims
    obtain rfl := owned.single cpu cpu' task (.inr (.inr saving)) (.inr (.inl claims))
    cases phase : s.phase cpu <;> simp [phase,old,claimed] at saving claims
  · grind [Owned.holder,TaskState.dead,dead]

def three_cpus : Machine := ⟨3,fun _ => none,none,fun _ => true⟩

/-- Task 1 runs on the first CPU, which publishes task 2. -/
def switched : List Label :=
  [.add_to_ready_queue 0 1,.sched_start 0,.choose 0,.look 0,.commit 0,.save_complete 0,.add_to_ready_queue 1 2,
    .enter 0,.prepare 0,.choose 0,.validate 0 true,.commit 0]

theorem one_cpu_per_task_switched : ∃ s, Reachable (Careful three_cpus) (first fun _ => 0) s ∧
    s.kernel.state 1 = .READY ∧ old (s.phase 0) = some 1 ∧
    ∀ cpu', s.current cpu' ≠ some 1 ∧ claimed (s.phase cpu') ≠ some 1 := by
  have found : ((switched.foldlM (step three_cpus) (first fun _ => 0)).any fun s =>
      s.kernel.state 1 = .READY ∧ old (s.phase 0) = some 1) = true := by decide +kernel
  obtain ⟨s,run,ready⟩ := Run.ends found
  have careful : Run (Careful three_cpus) (first fun _ => 0) switched s := run.restrict (by simp [switched,spares])
  have ready : s.kernel.state 1 = .READY ∧ old (s.phase 0) = some 1 := by simpa using ready
  exact ⟨s,⟨_,careful⟩,ready.1,ready.2,(one_cpu_per_task three_cpus _ ⟨_,careful⟩).2.1 1 0 ready.2⟩

/-- Task 1 goes to sleep and is terminated before it switches, and so is the task its
    CPU has claimed; it goes on, sleeps again, and a third CPU takes it. -/
def terminated_asleep : List Label :=
  [.add_to_ready_queue 0 1,.sched_start 0,.choose 0,.look 0,.commit 0,.save_complete 0,
    .task_set_state 0 .INTERRUPTIBLE,.remove_from_ready_queue 1 1,.task_set_terminated 1 1,
    .add_to_ready_queue 1 2,.enter 0,.prepare 0,.choose 0,.validate 0 true,
    .remove_from_ready_queue 1 2,.task_set_terminated 1 2,.commit 0,.rollback 0,.restore 0,
    .task_set_state 0 .INTERRUPTIBLE,.task_wake 2 1,.sched_start 2,.choose 2,.look 2,.commit 2,.save_complete 2]

theorem terminated_task_on_two_cpus : ∃ s, Run (Step three_cpus) (first fun _ => 0) terminated_asleep s ∧
    s.executing 0 = some 1 ∧ s.executing 2 = some 1 ∧ s.kernel.state 1 = .RUNNING := by
  have found : ((terminated_asleep.foldlM (step three_cpus) (first fun _ => 0)).any fun s =>
      s.executing 0 = some 1 ∧ s.executing 2 = some 1 ∧ s.kernel.state 1 = .RUNNING) = true := by decide +kernel
  obtain ⟨s,run,both⟩ := Run.ends found
  exact ⟨s,run,by simpa using both⟩

/-- The task a CPU is on is dead just while it leaves it: no CPU executes a dead task. -/
theorem dead_task_leaves (m : Machine) (priority : Nat → Nat) {s : System}
    (reached : Reachable (Careful m) (first priority) s) {cpu task : Nat} (current : s.current cpu = some task) :
    dead s.kernel task = true ↔ leaves (s.phase cpu) = true := by
  have kept : ∀ s l t, Owned s → Careful m s l t → Owned t := fun s l t owned taken => step_owned owned taken.1 taken.2
  have owned := reached.invariant kept (first_owned priority)
  cases phase : leaves (s.phase cpu) with
  | true => simp [owned.dying cpu task phase current]
  | false => simp [owned.alive cpu task phase current]

/-- Task 1 runs and exits. -/
theorem dead_task_leaves_switched : ∃ s, Reachable (Careful three_cpus) (first fun _ => 0) s ∧
    s.current 0 = some 1 ∧ dead s.kernel 1 = true ∧ leaves (s.phase 0) = true := by
  have found : (((switched.take 6 ++ [Label.exit 0]).foldlM (step three_cpus) (first fun _ => 0)).any fun s =>
      s.current 0 = some 1 ∧ dead s.kernel 1 = true) = true := by decide +kernel
  obtain ⟨s,run,exited⟩ := Run.ends found
  obtain ⟨current,died⟩ := of_decide_eq_true exited
  have reached : Reachable (Careful three_cpus) _ s := ⟨_,run.restrict (by simp [switched,spares])⟩
  exact ⟨s,reached,current,died,(dead_task_leaves three_cpus _ reached current).mp died⟩

end ArmOS.Owners
