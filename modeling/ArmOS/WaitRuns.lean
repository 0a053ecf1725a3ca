import ArmOS.Waiting

/-!
Waiting loses no child and reports none twice, as long as no child exits in the
tick before the tick counter wraps: such an exit leaves the wake-up time at 0, so
the zombie can be reaped, but no scan ever wakes the parent for it.
-/
namespace ArmOS.WaitRuns
open Runs Waiting List Nat
open Prod (fst)

structure Fine (log : Log) (c : Child) : Prop where
  alive : c.state ≠ .ZOMBIE → ∀ status, (c.id,status) ∉ log.exits
  status : c.state = .ZOMBIE → (c.id,wait_status c) ∈ log.exits
  saving : c.state = .ZOMBIE → c.on_cpu = true → c.wakeup_time ≠ 0
  stops : ∀ n, (c.id,n) ∈ log.stops → n ≤ c.stops
  stop_due : stop_due c = true → (c.id,c.stops) ∉ log.stops
  continues : ∀ n, (c.id,n) ∈ log.continues → n ≤ c.continues
  continue_due : c.continue_pending = true → (c.id,c.continues) ∉ log.continues

/-- What the parent waits for has not happened, or its wake is on the way. -/
def Quiet (s : System) (w : Wait) (c : Child) : Prop :=
  child_matches_waitpid s.pgid c w.pid = true →
    (w.wuntraced = true → stop_due c = false) ∧ (w.wcontinued = true → c.continue_pending = false) ∧
    (reapable c = true → c.id ∈ s.wakes ∨ 0 < s.init_wakes)

structure Sound (s : System) : Prop where
  ids : (s.children.map Child.id ++ s.reaped.map Prod.fst).Perm (List.range s.created)
  exits : (s.log.exits.map Prod.fst).Nodup
  stops : s.log.stops.Nodup
  continues : s.log.continues.Nodup
  own : ∀ r ∈ s.reaped, r ∈ s.log.exits
  known : ∀ e, e ∈ s.log.exits ∨ e ∈ s.log.stops ∨ e ∈ s.log.continues → e.1 < s.created
  fine : ∀ c ∈ s.children, Fine s.log c
  zombie : ∀ w child, s.phase = .found w child →
    child < s.created ∧ ∀ c ∈ s.children, c.id = child → c.state = .ZOMBIE
  quiet : ∀ w, s.phase = .asleep w → ∀ c ∈ s.children, Quiet s w c

/-- The log has new entries for one child only. -/
structure Grows (child : Nat) (log log' : Log) : Prop where
  kept : ∀ e ∈ log.exits, e ∈ log'.exits
  exits : ∀ e ∈ log'.exits, e ∈ log.exits ∨ e.1 = child
  stops : ∀ e ∈ log'.stops, e ∈ log.stops ∨ e.1 = child
  continues : ∀ e ∈ log'.continues, e ∈ log.continues ∨ e.1 = child

variable {s : System} {before after : List Child} {c : Child} {log log' : Log} {child : Nat}

theorem Grows.refl (child : Nat) (log : Log) : Grows child log log :=
  ⟨fun _ member => member,fun _ => .inl,fun _ => .inl,fun _ => .inl⟩
theorem Grows.exit (child status : Nat) (log : Log) : Grows child log { log with exits := (child,status) :: log.exits } :=
  ⟨fun _ => mem_cons_of_mem _,fun _ member => (mem_cons.mp member).symm.imp_right (by rintro rfl; rfl),
    fun _ => .inl,fun _ => .inl⟩
theorem Grows.stop (child n : Nat) (log : Log) : Grows child log { log with stops := (child,n) :: log.stops } :=
  ⟨fun _ member => member,fun _ => .inl,fun _ member => (mem_cons.mp member).symm.imp_right (by rintro rfl; rfl),
    fun _ => .inl⟩
theorem Grows.continue (child n : Nat) (log : Log) : Grows child log { log with continues := (child,n) :: log.continues } :=
  ⟨fun _ member => member,fun _ => .inl,fun _ => .inl,
    fun _ member => (mem_cons.mp member).symm.imp_right (by rintro rfl; rfl)⟩

theorem Fine.other (fine : Fine log c) (grows : Grows child log log') (other : c.id ≠ child) : Fine log' c where
  alive := fun living status entry => fine.alive living status ((grows.exits _ entry).resolve_right other)
  status := fun dead => grows.kept _ (fine.status dead)
  saving := fine.saving
  stops := fun n entry => fine.stops n ((grows.stops _ entry).resolve_right other)
  stop_due := fun due entry => fine.stop_due due ((grows.stops _ entry).resolve_right other)
  continues := fun n entry => fine.continues n ((grows.continues _ entry).resolve_right other)
  continue_due := fun due entry => fine.continue_due due ((grows.continues _ entry).resolve_right other)

theorem Grows.known {created : Nat} (grows : Grows child log log') (new : child < created)
    (known : ∀ e, e ∈ log.exits ∨ e ∈ log.stops ∨ e ∈ log.continues → e.1 < created) :
    ∀ e, e ∈ log'.exits ∨ e ∈ log'.stops ∨ e ∈ log'.continues → e.1 < created := by
  rintro e (entry | entry | entry)
  · exact (grows.exits e entry).elim (fun old => known e (.inl old)) fun same => same ▸ new
  · exact (grows.stops e entry).elim (fun old => known e (.inr (.inl old))) fun same => same ▸ new
  · exact (grows.continues e entry).elim (fun old => known e (.inr (.inr old))) fun same => same ▸ new

section
variable (sound : Sound s)
include sound

theorem Sound.id_lt (member : c ∈ s.children) : c.id < s.created := by
  have inside : c.id ∈ s.children.map Child.id ++ s.reaped.map fst :=
    mem_append_left _ (mem_map_of_mem member)
  exact mem_range.mp (sound.ids.subset inside)
theorem Sound.ids_nodup : (s.children.map Child.id ++ s.reaped.map fst).Nodup :=
  sound.ids.nodup_iff.mpr nodup_range
variable {d : Child}

theorem Sound.same_child (member : c ∈ s.children) (member' : d ∈ s.children) (same : c.id = d.id) : c = d :=
  inj_on_of_nodup_map (nodup_append.mp sound.ids_nodup).1 member member' same
theorem Sound.other (here : s.children = before ++ c :: after) (member : d ∈ before ∨ d ∈ after) : d.id ≠ c.id := by
  have distinct := (nodup_append.mp sound.ids_nodup).1
  grind

variable {new : Child} {wakes : List Nat} {phase : Phase}

theorem Sound.replace (here : s.children = before ++ c :: after) (same : new.id = c.id) (grows : Grows c.id s.log log)
    (once : (log.exits.map fst).Nodup ∧ log.stops.Nodup ∧ log.continues.Nodup) (fine : Fine log new)
    (dead : c.state = .ZOMBIE → new.state = .ZOMBIE) (found : ∀ w child, phase = .found w child → s.phase = .found w child)
    (more : ∀ x ∈ s.wakes, x ∈ wakes)
    (quiet : ∀ w, phase = .asleep w → s.phase = .asleep w ∧
      (Quiet s w c → Quiet { s with wakes := wakes } w new)) :
    Sound { s with children := before ++ new :: after, log := log, phase := phase, wakes := wakes } := by
  have member : c ∈ s.children := by simp [here]
  have split : ∀ d ∈ before ++ new :: after, d = new ∨ ((d ∈ before ∨ d ∈ after) ∧ d ∈ s.children) := by
    intro d inside
    rw [here]
    simp only [mem_append,mem_cons] at inside ⊢
    tauto
  constructor
  case ids =>
    have ids := sound.ids
    rw [here] at ids
    simpa [same] using ids
  case exits => exact once.1
  case stops => exact once.2.1
  case continues => exact once.2.2
  case own => exact fun r entry => grows.kept r (sound.own r entry)
  case known => exact grows.known (sound.id_lt member) sound.known
  case fine =>
    intro d inside
    rcases split d inside with rfl | ⟨beside,old⟩
    · exact fine
    · exact (sound.fine d old).other grows (sound.other here beside)
  case zombie =>
    intro w id at_found
    obtain ⟨old_id,was⟩ := sound.zombie w id (found w id at_found)
    grind
  case quiet =>
    intro w sleeping d inside
    obtain ⟨slept,keeps⟩ := quiet w sleeping
    rcases split d inside with rfl | ⟨_,old⟩
    · exact keeps (sound.quiet w slept c member)
    intro matching
    obtain ⟨no_stop,no_continue,reap⟩ := sound.quiet w slept d old matching
    exact ⟨no_stop,no_continue,fun ready => (reap ready).imp_left (more d.id)⟩

variable {init_wakes : Nat}

theorem Sound.add (number : new.id = s.created) (grows : Grows new.id s.log log)
    (once : (log.exits.map fst).Nodup ∧ log.stops.Nodup ∧ log.continues.Nodup) (fine : Fine log new)
    (more : s.init_wakes ≤ init_wakes)
    (quiet : ∀ w, s.phase = .asleep w → Quiet { s with init_wakes := init_wakes } w new) :
    Sound { s with
      children := new :: s.children, created := s.created + 1, log := log, init_wakes := init_wakes } := by
  have other : ∀ c ∈ s.children, c.id ≠ new.id := fun c member => by
    have := sound.id_lt member
    omega
  constructor
  case ids => grind [ids]
  case exits => exact once.1
  case stops => exact once.2.1
  case continues => exact once.2.2
  case own => exact fun r entry => grows.kept r (sound.own r entry)
  case known => exact grows.known (number ▸ lt_succ_self _) fun e entry => lt_succ_of_lt (sound.known e entry)
  case fine =>
    intro c inside
    rcases mem_cons.mp inside with rfl | old
    · exact fine
    · exact (sound.fine c old).other grows (other c old)
  case zombie =>
    intro w child at_found
    obtain ⟨old_id,was⟩ := sound.zombie w child at_found
    grind
  case quiet =>
    intro w sleeping c inside
    rcases mem_cons.mp inside with rfl | old
    · exact quiet w sleeping
    intro matching
    obtain ⟨no_stop,no_continue,reap⟩ := sound.quiet w sleeping c old matching
    exact ⟨no_stop,no_continue,fun ready => (reap ready).imp_right fun pending => pending.trans_le more⟩

theorem Sound.move (found : ∀ w child, phase = .found w child →
      child < s.created ∧ ∀ c ∈ s.children, c.id = child → c.state = .ZOMBIE)
    (quiet : ∀ w, phase = .asleep w → ∀ c ∈ s.children, Quiet { s with wakes := wakes, init_wakes := init_wakes } w c) :
    Sound { s with phase := phase, wakes := wakes, init_wakes := init_wakes } :=
  { sound with zombie := found, quiet := quiet }

end

/-! ### The exits, stops and continuations -/

/-- No exit in the tick before the wrap; init is handed no unreported change. -/
def careful (s : System) : Label → Prop
  | .exit _ _ => (s.ticks + 1) % 2 ^ 32 ≠ 0
  | .adopt c =>
    (c.state = .ZOMBIE → c.on_cpu = true → c.wakeup_time ≠ 0) ∧
    ∀ w, s.phase = .asleep w → child_matches_waitpid s.pgid c w.pid = true →
      (w.wuntraced = true → stop_due c = false) ∧ (w.wcontinued = true → c.continue_pending = false)
  | _ => True

def Careful (s : System) (l : Label) (t : System) : Prop := Step s l t ∧ careful s l

theorem Sound.unlogged (sound : Sound s) (number : s.created ≤ child) (n : Nat) :
    (child,n) ∉ s.log.exits ∧ (child,n) ∉ s.log.stops ∧ (child,n) ∉ s.log.continues := by
  refine ⟨fun entry => ?_,fun entry => ?_,fun entry => ?_⟩
  · have := sound.known _ (.inl entry)
    dsimp only at this
    omega
  · have := sound.known _ (.inr (.inl entry))
    dsimp only at this
    omega
  have := sound.known _ (.inr (.inr entry))
  dsimp only at this
  omega

theorem Sound.once (sound : Sound s) : (s.log.exits.map fst).Nodup ∧ s.log.stops.Nodup ∧ s.log.continues.Nodup :=
  ⟨sound.exits,sound.stops,sound.continues⟩

theorem exits_nodup (once : (log.exits.map fst).Nodup) (status : Nat)
    (absent : ∀ n, (child,n) ∉ log.exits) : (((child,status) :: log.exits).map fst).Nodup := by
  refine nodup_cons.mpr ⟨?_,once⟩
  intro entry
  obtain ⟨⟨id,n⟩,inside,rfl⟩ := mem_map.mp entry
  exact absent n inside

variable {w : Wait}

theorem wakeup_found (phase : wakeup_parent_under_lock s c = .found w child) : s.phase = .found w child := by
  cases was : s.phase with
  | asleep v =>
    simp only [wakeup_parent_under_lock,was] at phase
    split at phase <;> cases phase
  | _ =>
    simp only [wakeup_parent_under_lock,was] at phase
    exact phase

/-- The parent sleeps on only without a matching child. -/
theorem wakeup_asleep (phase : wakeup_parent_under_lock s c = .asleep w) :
    s.phase = .asleep w ∧ child_matches_waitpid s.pgid c w.pid = false := by
  cases was : s.phase with
  | asleep v => grind [wakeup_parent_under_lock]
  | _ => simp [wakeup_parent_under_lock,was] at phase

section
variable (sound : Sound s)
include sound

theorem Sound.readied (init_wakes : Nat) : Sound { s with phase := set_ready s.phase, init_wakes := init_wakes } := by
  apply sound.move
  · intro w child phase
    apply sound.zombie w child
    cases was : s.phase with
    | asleep v => simp [set_ready,was] at phase
    | _ =>
      rw [was] at phase
      exact phase
  intro w sleeping
  cases was : s.phase <;> simp [set_ready,was] at sleeping

section
variable (here : s.children = before ++ c :: after)
include here

theorem Sound.exited (living : c.state = .alive) (status : Nat) (early : (s.ticks + 1) % 2 ^ 32 ≠ 0) :
    Sound { s with
      children := before ++ exit_child (get_system_ticks s) status c :: after
      log := { s.log with exits := (c.id,exit_status c.term_signal status) :: s.log.exits } } := by
  have fine := sound.fine c (by simp [here])
  have due : (get_system_ticks s + 1) % 2 ^ 32 ≠ 0 := by
    simp only [get_system_ticks]
    omega
  have absent := fine.alive (by rw [living]; nofun)
  have once := exits_nodup sound.exits (exit_status c.term_signal status) absent
  refine sound.replace here rfl (Grows.exit _ _ _) ⟨once,sound.stops,sound.continues⟩ ?_ (fun _ => rfl)
    (fun _ _ same => same) (fun _ member => member) ?_
  · constructor
    case alive => exact fun living => absurd rfl living
    case status =>
      intro _
      have same : wait_status (exit_child (get_system_ticks s) status c) = exit_status c.term_signal status := by
        simp only [wait_status,exit_child,exit_status]
        split <;> simp
      rw [same]
      exact mem_cons_self
    case saving => exact fun _ _ => due
    case stops => exact fine.stops
    case stop_due => simp [stop_due,exit_child]
    case continues => exact fine.continues
    case continue_due => exact fine.continue_due
  intro w sleeping
  refine ⟨sleeping,fun quiet matching => ?_⟩
  obtain ⟨_,no_continue,_⟩ := quiet matching
  refine ⟨fun _ => by simp [stop_due,exit_child],no_continue,?_⟩
  simp [reapable,exit_child]

/-- A child that is not dead changes, and its parent is told. -/
theorem Sound.told (living : c.state ≠ .ZOMBIE) {new : Child} (same : new.id = c.id) (fine : Fine s.log new) :
    Sound { s with children := before ++ new :: after, phase := wakeup_parent_under_lock s new } := by
  refine sound.replace here same (Grows.refl _ _) sound.once fine (fun dead => absurd dead living) (fun _ _ => wakeup_found)
    (fun _ member => member) fun w sleeping => ?_
  obtain ⟨slept,other⟩ := wakeup_asleep sleeping
  exact ⟨slept,fun _ matching => absurd (other.symm.trans matching) nofun⟩

theorem Sound.stopped (living : c.state = .alive) (sig : Nat) :
    Sound { s with
      children := before ++ stop_child sig c :: after, phase := wakeup_parent_under_lock s (stop_child sig c) } := by
  have fine := sound.fine c (by simp [here])
  have living : c.state ≠ .ZOMBIE := by rw [living]; nofun
  refine sound.told here living rfl ?_
  constructor
  case alive => exact fun _ => fine.alive living
  case status => exact nofun
  case saving => exact nofun
  case stops => exact fun n entry => le_succ_of_le (fine.stops n entry)
  case stop_due => exact fun _ entry => absurd (fine.stops _ entry) (not_succ_le_self _)
  case continues => exact fine.continues
  case continue_due => exact nofun

theorem Sound.resumed (halted : c.state = .STOPPED) :
    Sound { s with
      children := before ++ continue_child c :: after, phase := wakeup_parent_under_lock s (continue_child c) } := by
  have fine := sound.fine c (by simp [here])
  have living : c.state ≠ .ZOMBIE := by rw [halted]; nofun
  refine sound.told here living rfl ?_
  constructor
  case alive => exact fun _ => fine.alive living
  case status => exact nofun
  case saving => exact nofun
  case stops => exact fine.stops
  case stop_due => simp [stop_due,continue_child]
  case continues => exact fun n entry => le_succ_of_le (fine.continues n entry)
  case continue_due => exact fun _ entry => absurd (fine.continues _ entry) (not_succ_le_self _)

/-- A child that is neither stopped nor dead. -/
theorem Sound.revived (living : c.state ≠ .ZOMBIE) {new : Child}
    (same : new.id = c.id ∧ new.stops = c.stops ∧ new.continues = c.continues ∧
      new.continue_pending = c.continue_pending ∧ new.pid = c.pid ∧ new.pgid = c.pgid) (revived : new.state = .alive) :
    Sound { s with children := before ++ new :: after } := by
  have fine := sound.fine c (by simp [here])
  obtain ⟨id,stops,continues,pending,pid,pgid⟩ := same
  refine sound.replace here id (Grows.refl _ _) sound.once ?_ (fun dead => absurd dead living) (fun _ _ same => same)
    (fun _ member => member) ?_
  · constructor
    case alive => exact fun _ => id ▸ fine.alive living
    case status => exact fun dead => absurd (revived.symm.trans dead) nofun
    case saving => exact fun dead => absurd (revived.symm.trans dead) nofun
    case stops => exact fun n entry => stops ▸ fine.stops n (id ▸ entry)
    case stop_due => simp [stop_due,revived]
    case continues => exact fun n entry => continues ▸ fine.continues n (id ▸ entry)
    case continue_due =>
      rw [id,continues,pending]
      exact fine.continue_due
  intro w sleeping
  refine ⟨sleeping,fun quiet matching => ?_⟩
  have before_it : child_matches_waitpid s.pgid c w.pid = true := by
    simpa [child_matches_waitpid,pid,pgid] using matching
  refine ⟨fun _ => by simp [stop_due,revived],?_,by simp [reapable,revived]⟩
  rw [pending]
  exact (quiet before_it).2.1

theorem Sound.saved : Sound { s with children := before ++ { c with on_cpu := false } :: after } := by
  have fine := sound.fine c (by simp [here])
  refine sound.replace here rfl (Grows.refl _ _) sound.once ?_ (fun same => same) (fun _ _ same => same)
    (fun _ member => member) ?_
  · exact { fine with saving := fun _ => nofun }
  intro w sleeping
  refine ⟨sleeping,fun quiet matching => ?_⟩
  obtain ⟨no_stop,no_continue,reap⟩ := quiet matching
  refine ⟨no_stop,no_continue,fun ready => ?_⟩
  -- a zombie on its CPU still has a wake-up time
  grind [reapable,WaitRuns.Fine.saving]

theorem Sound.collected (off : c.on_cpu = false) :
    Sound { s with children := before ++ { c with wakeup_time := 0 } :: after, wakes := c.id :: s.wakes } := by
  have fine := sound.fine c (by simp [here])
  refine sound.replace here rfl (Grows.refl _ _) sound.once ?_ (fun same => same) (fun _ _ same => same)
    (fun _ member => mem_cons_of_mem _ member) ?_
  · refine { fine with saving := ?_ }
    intro _ saving
    exact absurd (off.symm.trans saving) nofun
  intro w sleeping
  refine ⟨sleeping,fun quiet matching => ?_⟩
  obtain ⟨no_stop,no_continue,_⟩ := quiet matching
  exact ⟨no_stop,no_continue,fun _ => .inl mem_cons_self⟩

end

end

/-! ### Runs -/

variable {pgid : Int}

theorem find_none {test : Child → Bool} {pid : Int} {children : List Child}
    (none_found : children.find? (fun c => child_matches_waitpid pgid c pid && test c) = none) (member : c ∈ children)
    (matching : child_matches_waitpid pgid c pid = true) : test c = false := by
  have := find?_eq_none.mp none_found c member
  simpa [matching] using this

section
variable (sound : Sound s)
include sound

theorem Sound.slept (none_dead : find_zombie_child_locked s w.pid = none)
    (none_stopped : w.wuntraced = true → find_stopped_child_locked s w.pid = none)
    (none_continued : w.wcontinued = true → find_continued_child_locked s w.pid = none) :
    Sound { s with phase := .asleep w } := by
  refine sound.move nofun ?_
  rintro _ ⟨⟩ c member matching
  refine ⟨fun on => find_none (none_stopped on) member matching,fun on => find_none (none_continued on) member matching,?_⟩
  intro ready
  exact absurd ((find_none none_dead member matching).symm.trans ready) nofun

omit sound in
theorem reported_le {id last : Nat} {log : List (Nat × Nat)} (old : ∀ n, (id,n) ∈ log → n ≤ last) :
    ∀ n, (id,n) ∈ (id,last) :: log → n ≤ last := by
  intro n entry
  rcases mem_cons.mp entry with same | before
  · exact le_of_eq (Prod.mk.inj same).2
  · exact old n before

section
variable (here : s.children = before ++ c :: after)
include here

theorem Sound.reported_stop (due : stop_due c = true) :
    Sound { s with
      phase := .outside, children := before ++ { c with stop_reported := true } :: after
      log := { s.log with stops := (c.id,c.stops) :: s.log.stops } } := by
  have fine := sound.fine c (by simp [here])
  have once := nodup_cons.mpr ⟨fine.stop_due due,sound.stops⟩
  refine sound.replace here rfl (Grows.stop _ _ _) ⟨sound.exits,once,sound.continues⟩ ?_ (fun same => same) nofun
    (fun _ member => member) nofun
  exact { fine with stops := reported_le fine.stops, stop_due := by simp [stop_due] }

theorem Sound.reported_continue (due : c.continue_pending = true) :
    Sound { s with
      phase := .outside, children := before ++ { c with continue_pending := false } :: after
      log := { s.log with continues := (c.id,c.continues) :: s.log.continues } } := by
  have fine := sound.fine c (by simp [here])
  have once := nodup_cons.mpr ⟨fine.continue_due due,sound.continues⟩
  refine sound.replace here rfl (Grows.continue _ _ _) ⟨sound.exits,sound.stops,once⟩ ?_ (fun same => same) nofun
    (fun _ member => member) nofun
  exact { fine with continues := reported_le fine.continues, continue_due := nofun }

theorem Sound.reaped (dead : c.state = .ZOMBIE) :
    Sound { s with
      phase := .outside, children := before ++ after, reaped := (c.id,wait_status c) :: s.reaped } := by
  have fine := sound.fine c (by simp [here])
  have still : ∀ d ∈ before ++ after, d ∈ s.children := by
    intro d member
    rw [here]
    simp only [mem_append,mem_cons] at member ⊢
    tauto
  refine { sound with
    ids := ?_, own := ?_, fine := fun d member => sound.fine d (still d member), zombie := nofun, quiet := nofun }
  · grind [ids]
  · simp_all [own,WaitRuns.Fine.status]

end

theorem Sound.adopted (number : c.id = s.created) (care : careful s (.adopt c)) :
    Sound { s with
      children := c :: s.children, created := s.created + 1
      log := { s.log with
        exits := if c.state = .ZOMBIE then (c.id,wait_status c) :: s.log.exits else s.log.exits }
      init_wakes := if c.state = .ZOMBIE ∧ s.phase.blocked then s.init_wakes + 1 else s.init_wakes } := by
  obtain ⟨saving,wanted⟩ := care
  have absent := fun n => sound.unlogged number.ge n
  by_cases dead : c.state = .ZOMBIE
  · simp only [dead,true_and,if_true]
    have once := exits_nodup sound.exits (wait_status c) fun n => (absent n).1
    refine sound.add number (Grows.exit _ _ _) ⟨once,sound.stops,sound.continues⟩ ?_ (by split <;> omega) ?_
    · exact ⟨fun living => absurd dead living,fun _ => mem_cons_self,saving,
        fun n entry => absurd entry (absent n).2.1,fun _ => (absent _).2.1,
        fun n entry => absurd entry (absent n).2.2,fun _ => (absent _).2.2⟩
    intro w sleeping matching
    grind [Phase.blocked]
  simp only [dead,false_and,if_false]
  refine sound.add number (Grows.refl _ _) sound.once ?_ le_rfl ?_
  · exact ⟨fun _ n => (absent n).1,fun died => absurd died dead,saving,
      fun n entry => absurd entry (absent n).2.1,fun _ => (absent _).2.1,
      fun n entry => absurd entry (absent n).2.2,fun _ => (absent _).2.2⟩
  intro w sleeping matching
  grind [reapable]

theorem Sound.step {l : Label} {next : System} (taken : Careful s l next) : Sound next := by
  obtain ⟨taken,care⟩ := taken
  cases taken with
  | @fork pid pgid outside =>
    refine sound.add rfl (Grows.refl _ _) sound.once ?_ le_rfl (fun w sleeping => ?_)
    · have absent := fun n => sound.unlogged (Nat.le_refl s.created) n
      exact ⟨fun _ n => (absent n).1,nofun,nofun,fun n entry => absurd entry (absent n).2.1,nofun,
        fun n entry => absurd entry (absent n).2.2,nofun⟩
    · rw [outside] at sleeping
      cases sleeping
  | @adopt c number => exact sound.adopted number care
  | @exit before after c status here living => exact sound.exited here living status care
  | save here _ => exact sound.saved here
  | collect here _ off => exact sound.collected here off
  | @wake c member pending =>
    refine sound.move (fun w child phase => sound.zombie w child (wakeup_found phase)) ?_
    intro w sleeping d inside matching
    obtain ⟨slept,other⟩ := wakeup_asleep sleeping
    obtain ⟨no_stop,no_continue,reap⟩ := sound.quiet w slept d inside matching
    refine ⟨no_stop,no_continue,fun ready => (reap ready).imp_left fun waiting => ?_⟩
    refine (mem_erase_of_ne fun same => ?_).mpr waiting
    rw [sound.same_child inside member same] at matching
    exact absurd (other.symm.trans matching) nofun
  | wake_gone pending gone =>
    refine sound.move sound.zombie ?_
    intro w sleeping d inside matching
    obtain ⟨no_stop,no_continue,reap⟩ := sound.quiet w sleeping d inside matching
    grind
  | init_wake | interrupt => exact sound.readied _
  | stop here living => exact sound.stopped here living _
  | resume here halted => exact sound.resumed here halted
  | kill here halted =>
    exact sound.revived here (by rw [halted]; nofun) ⟨rfl,rfl,rfl,rfl,rfl,rfl⟩ rfl
  | signal_child here living =>
    exact sound.revived here (by rw [living]; nofun) ⟨rfl,rfl,rfl,rfl,rfl,rfl⟩ living
  | tick => exact { sound with }
  | waitpid | no_zombie | interrupted | no_stopped | no_continued | return_none | some_child | no_sleep | clear_sleep =>
    exact sound.move nofun nofun
  | @find w c at_search found =>
    have member := mem_of_find?_eq_some found
    refine sound.move ?_ nofun
    rintro _ _ ⟨⟩
    refine ⟨sound.id_lt member,fun d inside same => ?_⟩
    rw [sound.same_child inside member same]
    have ready := find?_some found
    simp only [reapable,Bool.and_eq_true,decide_eq_true_eq] at ready
    exact ready.2.1.1
  | @reap w before after c at_found here =>
    exact sound.reaped here ((sound.zombie w c.id at_found).2 c (by simp [here]) rfl)
  | consume_stopped _ _ found here =>
    have due := find?_some found
    exact sound.reported_stop here (Bool.and_eq_true_iff.mp due).2
  | consume_continued _ _ found here =>
    have due := find?_some found
    exact sound.reported_continue here (Bool.and_eq_true_iff.mp due).2
  | sleep _ dead stopped continued => exact sound.slept dead stopped continued

end

theorem sound_reachable {ticks : Nat} (reached : Reachable Careful (System.first ticks pgid) s) : Sound s :=
  reached.invariant (fun _ _ _ sound taken => sound.step taken)
    ⟨.refl _,.nil,.nil,.nil,nofun,by simp [System.first],nofun,nofun,nofun⟩

end ArmOS.WaitRuns

