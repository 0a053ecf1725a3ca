import ArmOS.Runs
import Mathlib.Tactic

/-!
A parent that waits for its children, which exit, stop and continue on their own
CPUs; a zombie can be reaped once its context is saved and the scan has cleared its
wake-up time, and the scan then wakes the parent in a later section. The parent is
the only waiter of its process and does not ignore SIGCHLD. Exits, stops and
continuations are numbered and their reports recorded.
-/
namespace ArmOS.Waiting

inductive ChildState
  | alive | STOPPED | ZOMBIE
  deriving DecidableEq, Repr

structure Child where
  id : Nat
  (pid pgid : Int)
  state : ChildState
  /-- `running_cpu` is some CPU. -/
  on_cpu : Bool
  (wakeup_time exit_code term_signal stop_signal : Nat)
  (stop_reported continue_pending : Bool)
  /-- How often the child has stopped and continued. -/
  (stops continues : Nat)

structure Wait where
  pid : Int
  (wnohang wuntraced wcontinued : Bool)

/-- Where the parent is in `kernel_waitpid`. -/
inductive Phase
  | outside
  | search (w : Wait)
  /-- Has found this zombie. -/
  | found (w : Wait) (child : Nat)
  | stopped (w : Wait)
  | continued (w : Wait)
  | eligible (w : Wait)
  | prepare (w : Wait)
  /-- `TASK_BLOCKED` with `waitpid_active`. -/
  | asleep (w : Wait)
  | woken (w : Wait)

def Phase.blocked : Phase → Bool
  | .asleep _ => true
  | _ => false

/-- Exits with status, reported stops and continuations. -/
structure Log where
  exits : List (Nat × Nat)
  stops : List (Nat × Nat)
  continues : List (Nat × Nat)

structure System where
  ticks : Nat
  pgid : Int
  children : List Child
  created : Nat
  phase : Phase
  /-- Collected zombies whose parent is not woken yet. -/
  wakes : List Nat
  /-- Hand-overs to init that are still to wake it. -/
  init_wakes : Nat
  reaped : List (Nat × Nat)
  log : Log

def System.first (ticks : Nat) (pgid : Int) : System := ⟨ticks,pgid,[],0,.outside,[],0,[],⟨[],[],[]⟩⟩

/-- Ticks are 32 bits wide. -/
def get_system_ticks (s : System) : Nat := s.ticks % 2 ^ 32

def child_matches_waitpid (pgid : Int) (c : Child) (pid : Int) : Bool :=
  if pid = -1 then true
  else if 0 < pid then c.pid = pid
  else if pid = 0 then c.pgid = pgid
  else c.pgid = -pid

/-- What `find_zombie_child_locked` looks for. -/
def reapable (c : Child) : Bool := decide (c.state = .ZOMBIE) && !c.on_cpu && decide (c.wakeup_time = 0)

/-- What `find_stopped_child_locked` looks for. -/
def stop_due (c : Child) : Bool := decide (c.state = .STOPPED) && !c.stop_reported
def find_zombie_child_locked (s : System) (pid : Int) : Option Child :=
  s.children.find? fun c => child_matches_waitpid s.pgid c pid && reapable c
def find_stopped_child_locked (s : System) (pid : Int) : Option Child :=
  s.children.find? fun c => child_matches_waitpid s.pgid c pid && stop_due c
def find_continued_child_locked (s : System) (pid : Int) : Option Child :=
  s.children.find? fun c => child_matches_waitpid s.pgid c pid && c.continue_pending
def has_children (s : System) (pid : Int) : Bool := s.children.any fun c => child_matches_waitpid s.pgid c pid

/-- The parent's phase after `wakeup_parent_under_lock`. -/
def wakeup_parent_under_lock (s : System) (c : Child) : Phase :=
  match s.phase with
  | .asleep w => if child_matches_waitpid s.pgid c w.pid then .woken w else .asleep w
  | phase => phase

/-- `task_set_ready` of the parent, or any other wake of it. -/
def set_ready (phase : Phase) : Phase :=
  match phase with
  | .asleep w => .woken w
  | phase => phase

/-! ### What happens to a child -/

def new_child (id : Nat) (pid pgid : Int) : Child := ⟨id,pid,pgid,.alive,false,0,0,0,0,false,false,0,0⟩

/-- The section of `sys_exit` that publishes the zombie. -/
def exit_child (now status : Nat) (c : Child) : Child :=
  { c with
    state := .ZOMBIE, on_cpu := true, wakeup_time := (now + 1) % 2 ^ 32
    exit_code := if 0 < c.term_signal then 0 else status % 256 }
def stop_child (sig : Nat) (c : Child) : Child :=
  { c with
    state := .STOPPED, stop_signal := sig, stop_reported := false, continue_pending := false, stops := c.stops + 1 }
def continue_child (c : Child) : Child :=
  { c with
    state := .alive, stop_signal := 0, stop_reported := false, continue_pending := true, continues := c.continues + 1 }

/-- SIGKILL to a stopped process. -/
def kill_child (c : Child) : Child := { c with state := .alive, stop_signal := 0, stop_reported := false }

/-- The status that `kernel_waitpid` returns for a zombie. -/
def wait_status (c : Child) : Nat := if 0 < c.term_signal then c.term_signal % 128 else c.exit_code % 256 * 256

/-- The signal that ended it, or the low byte of `exit`. -/
def exit_status (term_signal status : Nat) : Nat := if 0 < term_signal then term_signal % 128 else status % 256 * 256

/-- The status that a stop is reported with, `0x7f | sig << 8`. -/
def stop_status (c : Child) : Nat := 0x7f + c.stop_signal % 256 * 256

/-! ### The system -/

inductive Label
  | fork
  | adopt (c : Child)
  | exit (child status : Nat)
  | save (child : Nat)
  | collect (child : Nat)
  | wake (child : Nat)
  | init_wake
  | stop (child : Nat)
  | resume (child : Nat)
  | kill (child : Nat)
  | signal_child (child : Nat)
  | tick
  | waitpid (w : Wait)
  | proceed
  | reap (child status : Nat)
  | report_stopped (child status : Nat)
  | report_continued (child : Nat)
  | sleep
  | interrupt
  | return_none

inductive Step (s : System) : Label → System → Prop
  | fork {pid pgid : Int} : s.phase = .outside →
      Step s .fork { s with children := new_child s.created pid pgid :: s.children, created := s.created + 1 }
  /-- The parent is init and an exiting process hands it a child. -/
  | adopt {c : Child} : c.id = s.created →
      Step s (.adopt c)
        { s with
          children := c :: s.children, created := s.created + 1
          log := { s.log with
            exits := if c.state = .ZOMBIE then (c.id,wait_status c) :: s.log.exits else s.log.exits }
          init_wakes := if c.state = .ZOMBIE ∧ s.phase.blocked then s.init_wakes + 1 else s.init_wakes }
  | exit {before after : List Child} {c : Child} {status : Nat} :
      s.children = before ++ c :: after → c.state = .alive →
      Step s (.exit c.id status)
        { s with
          children := before ++ exit_child (get_system_ticks s) status c :: after
          log := { s.log with exits := (c.id,exit_status c.term_signal status) :: s.log.exits } }
  /-- `task_context_save_complete` of an exited child. -/
  | save {before after : List Child} {c : Child} :
      s.children = before ++ c :: after → c.state = .ZOMBIE →
      Step s (.save c.id) { s with children := before ++ { c with on_cpu := false } :: after }
  /-- A scan that started at tick `now` comes to a zombie that it may have room for. -/
  | collect {before after : List Child} {c : Child} {now : Nat} :
      s.children = before ++ c :: after → c.state = .ZOMBIE → c.on_cpu = false → 0 < c.wakeup_time → now ≤ s.ticks →
      c.wakeup_time ≤ now % 2 ^ 32 →
      Step s (.collect c.id)
        { s with children := before ++ { c with wakeup_time := 0 } :: after, wakes := c.id :: s.wakes }
  | wake {c : Child} : c ∈ s.children → c.id ∈ s.wakes →
      Step s (.wake c.id) { s with phase := wakeup_parent_under_lock s c, wakes := s.wakes.erase c.id }
  /-- The child has been reaped before; the code reads its freed structure. -/
  | wake_gone {child : Nat} : child ∈ s.wakes → (∀ c ∈ s.children, c.id ≠ child) →
      Step s (.wake child) { s with wakes := s.wakes.erase child }
  | init_wake : 0 < s.init_wakes →
      Step s .init_wake { s with phase := set_ready s.phase, init_wakes := s.init_wakes - 1 }
  | stop {before after : List Child} {c : Child} {sig : Nat} :
      s.children = before ++ c :: after → c.state = .alive →
      Step s (.stop c.id)
        { s with children := before ++ stop_child sig c :: after, phase := wakeup_parent_under_lock s (stop_child sig c) }
  | resume {before after : List Child} {c : Child} :
      s.children = before ++ c :: after → c.state = .STOPPED →
      Step s (.resume c.id)
        { s with children := before ++ continue_child c :: after, phase := wakeup_parent_under_lock s (continue_child c) }
  | kill {before after : List Child} {c : Child} :
      s.children = before ++ c :: after → c.state = .STOPPED →
      Step s (.kill c.id) { s with children := before ++ kill_child c :: after }
  /-- A fatal signal is noted; the child will call `sys_exit`. -/
  | signal_child {before after : List Child} {c : Child} {sig : Nat} :
      s.children = before ++ c :: after → c.state = .alive →
      Step s (.signal_child c.id) { s with children := before ++ { c with term_signal := sig } :: after }
  | tick : Step s .tick { s with ticks := s.ticks + 1 }
  | waitpid {w : Wait} : s.phase = .outside → Step s (.waitpid w) { s with phase := .search w }
  | find {w : Wait} {c : Child} : s.phase = .search w → find_zombie_child_locked s w.pid = some c →
      Step s .proceed { s with phase := .found w c.id }
  | reap {w : Wait} {before after : List Child} {c : Child} :
      s.phase = .found w c.id → s.children = before ++ c :: after →
      Step s (.reap c.id (wait_status c))
        { s with phase := .outside, children := before ++ after, reaped := (c.id,wait_status c) :: s.reaped }
  | no_zombie {w : Wait} : s.phase = .search w → find_zombie_child_locked s w.pid = none →
      Step s .proceed { s with phase := .stopped w }
  /-- Pending signals end the call. -/
  | interrupted {w : Wait} : s.phase = .stopped w → Step s .return_none { s with phase := .outside }
  | consume_stopped {w : Wait} {before after : List Child} {c : Child} :
      (s.phase = .stopped w ∨ (s.phase = .prepare w ∧ find_zombie_child_locked s w.pid = none)) → w.wuntraced = true →
      find_stopped_child_locked s w.pid = some c → s.children = before ++ c :: after →
      Step s (.report_stopped c.id (stop_status c))
        { s with
          phase := .outside, children := before ++ { c with stop_reported := true } :: after
          log := { s.log with stops := (c.id,c.stops) :: s.log.stops } }
  | no_stopped {w : Wait} : s.phase = .stopped w →
      (w.wuntraced = true → find_stopped_child_locked s w.pid = none) → Step s .proceed { s with phase := .continued w }
  | consume_continued {w : Wait} {before after : List Child} {c : Child} :
      (s.phase = .continued w ∨ (s.phase = .prepare w ∧ find_zombie_child_locked s w.pid = none ∧
        (w.wuntraced = true → find_stopped_child_locked s w.pid = none))) → w.wcontinued = true →
      find_continued_child_locked s w.pid = some c → s.children = before ++ c :: after →
      Step s (.report_continued c.id)
        { s with
          phase := .outside, children := before ++ { c with continue_pending := false } :: after
          log := { s.log with continues := (c.id,c.continues) :: s.log.continues } }
  | no_continued {w : Wait} : s.phase = .continued w →
      (w.wcontinued = true → find_continued_child_locked s w.pid = none) → Step s .proceed { s with phase := .eligible w }
  | return_none {w : Wait} : s.phase = .eligible w → (has_children s w.pid = false ∨ w.wnohang = true) →
      Step s .return_none { s with phase := .outside }
  | some_child {w : Wait} : s.phase = .eligible w → has_children s w.pid = true → w.wnohang = false →
      Step s .proceed { s with phase := .prepare w }
  /-- `waitpid_prepare_sleep` finds a zombie or a pending signal. -/
  | no_sleep {w : Wait} : s.phase = .prepare w → Step s .proceed { s with phase := .search w }
  | sleep {w : Wait} : s.phase = .prepare w → find_zombie_child_locked s w.pid = none →
      (w.wuntraced = true → find_stopped_child_locked s w.pid = none) →
      (w.wcontinued = true → find_continued_child_locked s w.pid = none) →
      Step s .sleep { s with phase := .asleep w }
  /-- A signal, or anyone else, wakes the parent. -/
  | interrupt : Step s .interrupt { s with phase := set_ready s.phase }
  | clear_sleep {w : Wait} : s.phase = .woken w → Step s .proceed { s with phase := .search w }

end ArmOS.Waiting

