import ArmOS.Signals
import ArmOS.Endpoints
import ArmOS.Timeouts
import Mathlib

/-!
A process that waits in `pause`, `sigsuspend` or a terminal read, and any number of
senders, whose looks, load, store and wake are steps of their own. The process
sleeps through a signal that comes after it looked and before it was marked.
-/
namespace ArmOS.SignalWaits
open Runs Signals List
open Endpoints (Tty ends_line no_output)
open Scheduler (TaskState)
open Timeouts (TIMER_FREQ)

/-- A read with `read` characters that waits for `left` more, and its deadlines. -/
structure Reader where
  (read left : Nat)
  interbyte : Option Nat
  deadline : Nat
inductive Wait
  | pause
  | sigsuspend
  | read (r : Reader)

/-- Where the process is; `looking` and `dropping` are in `signal_deliverable_mask`. -/
inductive Phase
  | outside
  | checking (w : Wait)
  | looking (w : Wait) (sig : Nat) (found : Mask)
  | dropping (w : Wait) (sig : Nat) (found word : Mask)
  | reading (r : Reader)
  | marking (w : Wait) (deadline : Nat)
  | rechecking (r : Reader)
  | scheduling (w : Wait)

/-- Where a sender is in `send_signal`. -/
inductive Sender
  | idle
  | asking (sig : Nat)
  | loading (sig : Nat) (wake : Bool)
  | storing (sig : Nat) (wake : Bool) (word : Mask)
  | ignoring (sig : Nat)
  | clearing (sig : Nat) (word : Mask)
  | waking (sig : Nat)

/-- `read_wait` of the terminal. -/
inductive Waiter
  | none
  | self
  | other (state : TaskState)
  deriving DecidableEq

structure System where
  process : Process
  ticks : Nat
  tty : Tty
  read_wait : Waiter
  phase : Phase
  senders : List Sender

def get_system_ticks (s : System) : Nat := s.ticks % 2 ^ 32

inductive Label
  | outside (signals : SignalState)
  | pause
  | sigsuspend (mask : Pointer Mask)
  | read (count : Nat)
  | proceed
  | send (k sig : Nat)
  | continue_send (k : Nat)
  | terminal (tty : Tty) (read_wait : Waiter)
  | wake_reader
  | tick
  | scan

def deliverable (signals : SignalState) : Mask := (signal_deliverable_mask signals).2

/-! ### The process -/

def System.set_pending (s : System) (pending : Mask) : System :=
  { s with process := { s.process with signals := { s.process.signals with pending := pending } } }

/-- `task_set_state` and `task_set_interruptible_until` of the current task. -/
def System.set_state (s : System) (state : TaskState) (wakeup_time : Nat) : System :=
  { s with process := { s.process with state := state, wakeup_time := wakeup_time } }
def System.set_wakeup_time (s : System) (wakeup_time : Nat) : System :=
  s.set_state s.process.state wakeup_time
def clear_self (w : Waiter) : Waiter := if w = .self then .none else w

/-- The wait after `has_pending_signals` found no signal. -/
def no_signal (s : System) : Wait → System
  | .pause => { s with phase := .marking .pause 0 }
  | .sigsuspend =>
    { s with phase := .marking .sigsuspend ((get_system_ticks s + (TIMER_FREQ + 999) / 1000) % 2 ^ 32) }
  | .read r =>
    let phase := if r.deadline ≠ 0 ∧ r.deadline ≤ get_system_ticks s then .outside else .reading r
    { s.set_wakeup_time 0 with phase := phase }

/-- A turn of the loop in `signal_deliverable_mask`. -/
def look (s : System) (w : Wait) (sig : Nat) (found : Mask) : System :=
  if sig < MAX_SIGNALS then
    if found.getLsbD sig && (s.process.signals.actions sig).sa_handler = .SIG_IGN then
      { s with phase := .dropping w sig found s.process.signals.pending }
    else { s with phase := .looking w (sig + 1) found }
  else if found = 0 then no_signal s w
  else { s with phase := .outside }

def timeout_ticks (tty : Tty) : Nat := tty.termios.VTIME.toNat * (TIMER_FREQ / 10)

/-- The deadline of a read's next wait, and its byte timer. -/
def read_deadline (s : System) (r : Reader) : Reader :=
  let later := (get_system_ticks s + timeout_ticks s.tty) % 2 ^ 32
  if s.tty.termios.ICANON ∨ timeout_ticks s.tty = 0 then { r with deadline := 0 }
  else if s.tty.termios.VMIN = 0 ∧ r.read = 0 then { r with deadline := later }
  else if 0 < r.read then { r with interbyte := some (r.interbyte.getD later), deadline := r.interbyte.getD later }
  else { r with deadline := 0 }

/-- Whether a read with an empty queue returns what it has. -/
def read_ends (s : System) (r : Reader) : Bool :=
  let tio := s.tty.termios
  (0 < r.read && (tio.ICANON || tio.VMIN = 0 || tio.VMIN.toNat ≤ r.read ||
    r.interbyte.any (· ≤ get_system_ticks s))) ||
  (!tio.ICANON && tio.VMIN = 0 && timeout_ticks s.tty = 0)

/-- A character that was read, and the queue after it. -/
def take_char (s : System) (r : Reader) (ch : UInt8) (rest : List UInt8) : System :=
  let s := { s with tty := { s.tty with input := rest } }
  let tio := s.tty.termios
  let more : Reader := { r with read := r.read + 1, left := r.left - 1 }
  if tio.ICANON then { s with phase := if ends_line ch then .outside else .reading more }
  else if 0 < tio.VMIN.toNat ∧ tio.VMIN.toNat ≤ r.read + 1 then { s with phase := .outside }
  else if timeout_ticks s.tty = 0 then { s with phase := .reading more }
  else { s with phase := .reading { more with interbyte := some ((get_system_ticks s + timeout_ticks s.tty) % 2 ^ 32) } }

/-- A turn of `tty_read_to`, up to marking the task. -/
def read_turn (s : System) (r : Reader) : System :=
  if r.left = 0 then { s with phase := .outside }
  else
    match s.tty.input with
    | ch :: rest => take_char s r ch rest
    | [] =>
      if s.tty.eof_pending then { s with tty := { s.tty with eof_pending := false }, phase := .outside }
      else if read_ends s r then { s with phase := .outside }
      else if s.read_wait = .other .INTERRUPTIBLE then s
      else { s with read_wait := .self, phase := .marking (.read (read_deadline s r)) (read_deadline s r).deadline }

/-- Without timers the turns of a read are those of the loop of a terminal: a read that
    is over has returned its characters, and one that marks its task waits. -/
theorem read_turn_loop (s : System) (r : Reader) (untimed : s.tty.termios.VTIME = 0) (fresh : r.interbyte = none)
    (alone : s.read_wait ≠ .other .INTERRUPTIBLE) : Endpoints.tty_read_loop s.tty r.read r.left =
      match (read_turn s r).phase with
      | .reading more => Endpoints.tty_read_loop (read_turn s r).tty more.read more.left
      | .outside =>
        ((read_turn s r).tty,some (.ok (r.read + (s.tty.input.length - (read_turn s r).tty.input.length))))
      | _ => ((read_turn s r).tty,none) := by
  have no_ticks : timeout_ticks s.tty = 0 := by simp [timeout_ticks,untimed]
  rcases left : r.left with _ | n
  · simp [read_turn,left,Endpoints.tty_read_loop]
  rcases queue : s.tty.input with _ | ⟨ch,rest⟩
  · simp only [read_turn,left,queue,read_ends,fresh,no_ticks,if_neg alone,Endpoints.tty_read_loop]
    grind
  · simp only [read_turn,left,queue,take_char,Endpoints.tty_read_loop]
    grind [timeout_ticks]

/-- A marked task's wake-up time; `pause` leaves the old one. -/
def mark_time (s : System) (deadline : Nat) : Wait → Nat
  | .pause => s.process.wakeup_time
  | _ => deadline % 2 ^ 32

def mark (s : System) (w : Wait) (deadline : Nat) : System :=
  { s.set_state .INTERRUPTIBLE (mark_time s deadline w) with
    phase :=
      match w with
      | .read r => .rechecking r
      | w => .scheduling w }

/-- A reader looks at the queue again before it sleeps. -/
def recheck (s : System) (r : Reader) : System :=
  if s.tty.input ≠ [] ∨ s.tty.eof_pending ∨ s.read_wait ≠ .self then
    { s.set_state .RUNNING 0 with read_wait := clear_self s.read_wait, phase := .reading r }
  else { s with phase := .scheduling (.read r) }

/-- The return of `schedule`. -/
def resume (s : System) (w : Wait) : System :=
  match w with
  | .pause => { s.set_state .RUNNING s.process.wakeup_time with phase := .checking w }
  | .sigsuspend => { s.set_state .RUNNING 0 with phase := .checking w }
  | .read _ =>
    { s.set_state .RUNNING s.process.wakeup_time with read_wait := clear_self s.read_wait, phase := .checking w }

/-- The next section of the process, if it is ready. -/
def proceed (s : System) : Option System :=
  match s.phase with
  | .outside => none
  | .checking w => some { s with phase := .looking w 1 (s.process.signals.pending &&& ~~~s.process.signals.blocked) }
  | .looking w sig found => some (look s w sig found)
  | .dropping w sig found word =>
    some { s.set_pending (word &&& ~~~bit sig) with phase := .looking w (sig + 1) (found &&& ~~~bit sig) }
  | .reading r => some (read_turn s r)
  | .marking w deadline => some (mark s w deadline)
  | .rechecking r => some (recheck s r)
  | .scheduling w => if s.process.state = .READY then some (resume s w) else none

/-! ### The senders -/

def System.set_sender (s : System) (k : Nat) (sender : Sender) : System :=
  { s with senders := s.senders.set k sender }

/-- The checks of `send_signal` up to the handler. -/
def begin_send (s : System) (k sig : Nat) : System :=
  if sig = 0 ∨ MAX_SIGNALS ≤ sig ∨ s.process.state = .TERMINATED then s
  else if s.process.pid = 1 ∧ signal_would_kill_or_stop_init_effective s.process sig then s
  else if sig = SIGKILL ∨ sig = SIGSTOP then s.set_sender k (.loading sig true)
  else
    let s := if sig = SIGCONT then { s with process := continue_process s.process } else s
    if (s.process.signals.actions sig).sa_handler = .SIG_IGN then s.set_sender k (.ignoring sig)
    else s.set_sender k (.asking sig)

/-- The last section, for `SIGKILL` to a stopped process. -/
def finish_send (s : System) (sig : Nat) : System :=
  { s with
    process := wake_up_process_for_signal (if sig = SIGKILL then continue_process s.process else s.process) }

def continue_send (s : System) (k : Nat) : Sender → Option System
  | .idle => none
  | .asking sig => some (s.set_sender k (.loading sig (!s.process.signals.blocked.getLsbD sig)))
  | .loading sig wake => some (s.set_sender k (.storing sig wake s.process.signals.pending))
  | .storing sig wake word =>
    some ((s.set_pending (word ||| bit sig)).set_sender k (if wake then .waking sig else .idle))
  | .ignoring sig => some (s.set_sender k (.clearing sig s.process.signals.pending))
  | .clearing sig word => some ((s.set_pending (word &&& ~~~bit sig)).set_sender k .idle)
  | .waking sig => some ((finish_send s sig).set_sender k .idle)

/-! ### The system -/

/-- `scheduler_scan_waiters` for the process. -/
def scan_process (now : Nat) (p : Process) : Process :=
  if (p.state = .INTERRUPTIBLE ∨ p.state = .UNINTERRUPTIBLE) ∧ 0 < p.wakeup_time ∧ p.wakeup_time ≤ now then
    { p with state := .READY, wakeup_time := 0 }
  else p

/-- `task_wake` of a reader; one that runs again, on another CPU, or is dead keeps its state. -/
def task_wake (p : Process) : Process :=
  { p with state := if p.state = .RUNNING ∨ p.state.dead then p.state else .READY, wakeup_time := 0 }

/-- Outside the waits anything happens to signals and terminal. -/
def step (s : System) : Label → Option System
  | .outside signals =>
    match s.phase with
    | .outside => some { s with process := { s.process with signals := signals } }
    | _ => none
  | .pause =>
    match s.phase with
    | .outside => some { s with phase := .checking .pause }
    | _ => none
  | .sigsuspend mask =>
    match s.phase with
    | .outside =>
      match sys_sigsuspend s.process.signals mask with
      | .ok signals => some { s with process := { s.process with signals := signals }, phase := .checking .sigsuspend }
      | .error _ => some s
    | _ => none
  | .read count =>
    match s.phase with
    | .outside => some { s with phase := .reading ⟨0,count,none,0⟩ }
    | _ => none
  | .proceed => proceed s
  | .send k sig =>
    match s.senders[k]? with
    | some .idle => some (begin_send s k sig)
    | _ => none
  | .continue_send k => s.senders[k]?.bind (continue_send s k)
  | .terminal tty read_wait => some { s with tty := tty, read_wait := read_wait }
  | .wake_reader => some { s with process := task_wake s.process }
  | .tick => some { s with ticks := s.ticks + 1 }
  | .scan => some { s with process := scan_process (get_system_ticks s) s.process }

def Step (s : System) (l : Label) (t : System) : Prop := step s l = some t

/-- The process, running, at a terminal, with so many senders. -/
def first (p : Process) (tty : Tty) (senders : Nat) : System :=
  ⟨{ p with state := .RUNNING, wakeup_time := 0 },0,tty,.none,.outside,List.replicate senders .idle⟩

/-- The process has called `schedule` and is not ready. -/
def asleep (s : System) : Bool :=
  s.process.state = .INTERRUPTIBLE &&
    match s.phase with
    | .scheduling _ => true
    | _ => false

/-- What goes on by itself: the clock, scans, and senders at work. -/
def goes_on : Label → Bool
  | .tick | .scan | .continue_send _ | .proceed => true
  | _ => false

/-- A sender that will make the process ready. -/
def owes_wake : Sender → Bool
  | .loading _ wake => wake
  | .storing _ wake _ => wake
  | .waking _ => true
  | _ => false

/-- No deliverable signal, or something will wake the process. -/
def heard (wakeup_time : Nat) (signals : SignalState) (senders : List Sender) : Bool :=
  wakeup_time ≠ 0 || deliverable signals = 0 || senders.any owes_wake

/-- The phases of a task that has been marked. -/
def Phase.sleeps : Phase → Bool
  | .rechecking _ | .scheduling _ => true
  | _ => false
def marked (s : System) : Bool := s.process.state = .INTERRUPTIBLE && s.phase.sleeps

/-- A store of `pending` that no wake-up follows. -/
def quiet_store (signals : SignalState) : Sender → Option SignalState
  | .storing sig false word => some { signals with pending := word ||| bit sig }
  | .clearing sig word => some { signals with pending := word &&& ~~~bit sig }
  | _ => none

/-- The process is marked only with a deadline, no signal, or a sender that wakes it. -/
def orderly (s : System) : Label → Bool
  | .proceed =>
    match s.phase with
    | .marking w deadline => heard (mark_time s deadline w) s.process.signals s.senders
    | _ => true
  | .continue_send k =>
    match s.senders[k]?.bind (quiet_store s.process.signals) with
    | some signals => !marked s || heard s.process.wakeup_time signals (s.senders.set k .idle)
    | none => true
  | _ => true

def Careful (s : System) (l : Label) (t : System) : Prop := Step s l t ∧ orderly s l = true

variable {s t : System} {signals : SignalState} {senders : List Sender} {k sig time : Nat} {old new : Sender}

/-! ### Wake-ups that are on their way -/

section
variable (here : senders[k]? = some old)
include here

theorem any_set (owed : owes_wake old = true → owes_wake new = true)
    (some_owes : senders.any owes_wake = true) : (senders.set k new).any owes_wake = true := by
  obtain ⟨sender,inside,owes⟩ := List.any_eq_true.mp some_owes
  obtain ⟨i,found⟩ := mem_iff_getElem?.mp inside
  obtain ⟨small,_⟩ := List.getElem?_eq_some_iff.mp here
  rw [List.any_eq_true]
  by_cases same : k = i
  · subst same
    rw [here] at found
    cases found
    exact ⟨new,mem_iff_getElem?.mpr ⟨k,getElem?_set_self small⟩,owed owes⟩
  · exact ⟨sender,mem_iff_getElem?.mpr ⟨i,by rw [getElem?_set_ne same,found]⟩,owes⟩

theorem any_set_owes (owes : owes_wake new = true) : (senders.set k new).any owes_wake = true := by
  obtain ⟨small,_⟩ := List.getElem?_eq_some_iff.mp here
  exact List.any_eq_true.mpr ⟨new,mem_iff_getElem?.mpr ⟨k,getElem?_set_self small⟩,owes⟩

theorem heard_owes (owes : owes_wake new = true) : heard time signals (senders.set k new) = true := by
  simp [heard,any_set_owes here owes]

end

/-! ### What every step keeps -/

structure Sound (s : System) : Prop where
  time : s.process.wakeup_time < 2 ^ 32
  heard : marked s = true → heard s.process.wakeup_time s.process.signals s.senders = true
theorem Sound.of_running (time : s.process.wakeup_time < 2 ^ 32) (running : s.process.state ≠ .INTERRUPTIBLE) :
    Sound s := by
  refine ⟨time,fun asleep => ?_⟩
  simp [marked,running] at asleep
theorem Sound.of_phase (time : s.process.wakeup_time < 2 ^ 32) (awake : s.phase.sleeps = false) : Sound s := by
  refine ⟨time,fun asleep => ?_⟩
  simp [marked,awake] at asleep

theorem no_signal_phase (s : System) (w : Wait) : (no_signal s w).phase.sleeps = false := by
  cases w with
  | pause | sigsuspend => rfl
  | read r =>
    dsimp only [no_signal]
    split <;> rfl

theorem no_signal_time (w : Wait) (time : s.process.wakeup_time < 2 ^ 32) :
    (no_signal s w).process.wakeup_time < 2 ^ 32 := by
  cases w with
  | pause | sigsuspend => exact time
  | read r => exact Nat.two_pow_pos 32

theorem look_sound (w : Wait) (found : Mask) (time : s.process.wakeup_time < 2 ^ 32) : Sound (look s w sig found) := by
  unfold look
  split
  · split
    · exact .of_phase time rfl
    · exact .of_phase time rfl
  split
  · exact .of_phase (no_signal_time w time) (no_signal_phase s w)
  · exact .of_phase time rfl

variable {r : Reader}

theorem read_turn_sound (here : s.phase = .reading r) (time : s.process.wakeup_time < 2 ^ 32) :
    Sound (read_turn s r) := by
  unfold read_turn
  split
  · exact .of_phase time rfl
  split
  · unfold take_char
    dsimp only
    split
    · split <;> exact .of_phase time rfl
    split
    · exact .of_phase time rfl
    split <;> exact .of_phase time rfl
  split
  · exact .of_phase time rfl
  split
  · exact .of_phase time rfl
  split
  · exact .of_phase time (by rw [here]; rfl)
  · exact .of_phase time rfl

theorem recheck_sound (sound : Sound s) (here : s.phase = .rechecking r) : Sound (recheck s r) := by
  unfold recheck
  split
  · exact .of_running (Nat.two_pow_pos 32) (by simp [System.set_state])
  refine ⟨sound.time,fun asleep => sound.heard ?_⟩
  simp only [marked,Bool.and_eq_true] at asleep ⊢
  exact ⟨asleep.1,by rw [here]; rfl⟩

theorem resume_sound (w : Wait) (time : s.process.wakeup_time < 2 ^ 32) : Sound (resume s w) := by
  cases w with
  | pause | read r => exact .of_phase time rfl
  | sigsuspend => exact .of_phase (Nat.two_pow_pos 32) rfl

theorem proceed_sound (sound : Sound s) (given : orderly s .proceed = true) (taken : proceed s = some t) : Sound t := by
  unfold orderly at given
  unfold proceed at taken
  split at taken
  · cases taken
  · cases taken
    exact .of_phase sound.time rfl
  · cases taken
    exact look_sound _ _ sound.time
  · cases taken
    exact .of_phase sound.time rfl
  · rename_i here
    cases taken
    exact read_turn_sound here sound.time
  · rename_i w deadline here
    cases taken
    rw [here] at given
    refine ⟨?_,fun _ => given⟩
    cases w with
    | pause => exact sound.time
    | sigsuspend | read r => exact Nat.mod_lt _ (Nat.two_pow_pos 32)
  · rename_i here
    cases taken
    exact recheck_sound sound here
  split at taken
  · cases taken
    exact resume_sound _ sound.time
  · cases taken

/-- A sender that takes no wake-up back keeps the invariant. -/
theorem Sound.set_sender (sound : Sound s) (here : s.senders[k]? = some old)
    (owed : owes_wake old = true → owes_wake new = true) : Sound (s.set_sender k new) := by
  refine ⟨sound.time,fun asleep => ?_⟩
  have before := sound.heard asleep
  unfold SignalWaits.heard at before ⊢
  rw [Bool.or_eq_true] at before ⊢
  exact before.imp_right (any_set here owed)

theorem continue_process_sound (sound : Sound s) : Sound { s with process := continue_process s.process } := by
  unfold continue_process
  split
  · exact .of_running sound.time (by simp)
  · exact sound

theorem begin_send_sound (sound : Sound s) (here : s.senders[k]? = some .idle) (sig : Nat) :
    Sound (begin_send s k sig) := by
  have nothing : ∀ new, owes_wake .idle = true → owes_wake new = true := by
    intro new owes
    cases owes
  unfold begin_send
  split
  · exact sound
  split
  · exact sound
  split
  · exact sound.set_sender here (nothing _)
  dsimp only
  generalize next : (if sig = SIGCONT then { s with process := continue_process s.process } else s) = r
  have kept : Sound r ∧ r.senders = s.senders := by
    rw [← next]
    split
    · exact ⟨continue_process_sound sound,rfl⟩
    · exact ⟨sound,rfl⟩
  have there : r.senders[k]? = some .idle := by rw [kept.2,here]
  split <;> exact kept.1.set_sender there (nothing _)

theorem wake_up_running (p : Process) : (wake_up_process_for_signal p).state ≠ .INTERRUPTIBLE := by
  unfold wake_up_process_for_signal
  split
  · simp
  rename_i awake
  exact fun asleep => awake (.inr asleep)

variable {p : Process}

theorem wake_up_time (time : p.wakeup_time < 2 ^ 32) : (wake_up_process_for_signal p).wakeup_time < 2 ^ 32 := by
  unfold wake_up_process_for_signal
  split
  · exact Nat.two_pow_pos 32
  · exact time

theorem quiet_sound (sound : Sound s)
    (given : (!marked s || heard s.process.wakeup_time signals (s.senders.set k .idle)) = true)
    (stored : p = { s.process with signals := signals }) : Sound (({ s with process := p } : System).set_sender k .idle) := by
  subst stored
  refine ⟨sound.time,fun asleep => ?_⟩
  have before : marked s = true := asleep
  rw [before] at given
  exact given

variable {sender : Sender}

theorem continue_send_sound (sound : Sound s) (here : s.senders[k]? = some sender)
    (given : orderly s (.continue_send k) = true) (taken : continue_send s k sender = some t) : Sound t := by
  simp only [orderly,here,Option.bind_some] at given
  cases sender with
  | idle => cases taken
  | asking sig | ignoring sig =>
    cases taken
    exact sound.set_sender here nofun
  | loading sig wake =>
    cases taken
    exact sound.set_sender here (fun owes => owes)
  | storing sig wake word =>
    cases taken
    cases wake with
    | true => exact ⟨sound.time,fun _ => heard_owes here rfl⟩
    | false => exact quiet_sound sound given rfl
  | clearing sig word =>
    cases taken
    exact quiet_sound sound given rfl
  | waking sig =>
    cases taken
    refine .of_running (wake_up_time ?_) (wake_up_running _)
    unfold continue_process
    split
    · split <;> exact sound.time
    · exact sound.time

theorem scan_sound (sound : Sound s) (now : Nat) : Sound { s with process := scan_process now s.process } := by
  unfold scan_process
  split
  · exact .of_running (Nat.two_pow_pos 32) (by simp)
  · exact sound

theorem task_wake_sound (s : System) : Sound { s with process := task_wake s.process } := by
  refine .of_running (Nat.two_pow_pos 32) ?_
  unfold task_wake
  dsimp only
  split
  · grind [Scheduler.TaskState.dead]
  · simp

theorem step_sound {l : Label} (sound : Sound s) (taken : Careful s l t) : Sound t := by
  obtain ⟨taken,given⟩ := taken
  cases l with
  | proceed => exact proceed_sound sound given taken
  | send k sig =>
    dsimp only [Step,step] at taken
    split at taken
    · rename_i here
      cases taken
      exact begin_send_sound sound here sig
    · cases taken
  | continue_send k =>
    obtain ⟨sender,here,taken⟩ := Option.bind_eq_some_iff.mp taken
    exact continue_send_sound sound here given taken
  | terminal tty read_wait | tick =>
    cases taken
    exact ⟨sound.time,sound.heard⟩
  | wake_reader =>
    cases taken
    exact task_wake_sound s
  | scan =>
    cases taken
    exact scan_sound sound _
  | sigsuspend mask =>
    dsimp only [Step,step] at taken
    split at taken
    · split at taken
      · cases taken
        exact .of_phase sound.time rfl
      cases taken
      exact sound
    · cases taken
  | outside signals =>
    dsimp only [Step,step] at taken
    split at taken
    · rename_i here
      cases taken
      exact .of_phase sound.time (by rw [here]; rfl)
    · cases taken
  | pause | read count =>
    dsimp only [Step,step] at taken
    split at taken
    · cases taken
      exact .of_phase sound.time rfl
    · cases taken

/-! ### Waking -/

def console : Tty :=
  ⟨⟨false,true,false,true,true,true,true,true,3,26,4,127,21,23,1,0⟩,[],false,⟨[],no_output⟩,false,[],0⟩

end ArmOS.SignalWaits

