import ArmOS.Scheduler

/-!
The signals of a process: pending, blocked, its handlers and whether one runs. A
mask is a 32-bit word. The frame that a handler returns through lies in memory that
the process can write.
-/
namespace ArmOS.Signals
open Runs Function
open Scheduler (TaskState)

abbrev Mask := BitVec 32

def MAX_SIGNALS : Nat := 32
def SIGKILL : Nat := 9
def SIGUSR1 : Nat := 10
def SIGCONT : Nat := 18
def SIGSTOP : Nat := 19

/-- `1u << sig` for the number of a signal. -/
def bit (sig : Nat) : Mask := BitVec.twoPow 32 sig
def SA_RESTART : Mask := 1
def SA_NODEFER : Mask := 2
def SA_RESETHAND : Mask := 4

inductive Handler
  | SIG_DFL
  | SIG_IGN
  | user (address : Nat)
  deriving DecidableEq, Repr

/-- What `sigaction` installs; the restorer `0` is none. -/
structure SigAction where
  sa_handler : Handler
  (sa_mask sa_flags : Mask)
  sa_restorer : Nat
  deriving DecidableEq, Repr

def SigAction.default : SigAction := ⟨.SIG_DFL,0,0,0⟩
inductive DefaultAction
  | TERM | IGN | CORE | STOP | CONT
  deriving DecidableEq, Repr

/-- `default_signal_actions`; unlisted signals have the first value. -/
def default_signal_actions (sig : Nat) : DefaultAction :=
  if sig ∈ [0,17,28] then .IGN
  else if sig ∈ [3,4,5,6,7,8,11] then .CORE
  else if sig = SIGCONT then .CONT
  else if sig ∈ [SIGSTOP,20,21,22] then .STOP
  else .TERM

structure SignalState where
  actions : Nat → SigAction
  (pending blocked in_handler : Mask)
  return_override : Bool
  suspend_saved_mask : Mask
  suspend_active : Bool

/-- The words of a frame that the signal state comes from. -/
structure Frame where
  old_blocked : Mask
  sig : Nat
  deriving DecidableEq, Repr

structure Process where
  pid : Nat
  state : TaskState
  wakeup_time : Nat
  signals : SignalState
  (signal_stack_base signal_stack_size term_signal stop_signal : Nat)

inductive Check
  | NONE | IGNORED | USER_FRAME | STOPPED | EXITED | DEFERRED
  deriving DecidableEq, Repr
inductive Errno
  | EPERM | EINVAL | EFAULT | EINTR | failed
  deriving DecidableEq, Repr

/-- A pointer of a process: null, unmapped, or good. -/
inductive Pointer (α : Type) where
  | null
  | bad
  | good (target : α)

/-- Frame size, stack alignment, address width, and `1u << n` for large `n`. -/
structure Machine where
  (frame_size stack_alignment address_bits : Nat)
  wide_shift : Nat → Mask

variable (m : Machine)

/-! ### Masks -/

def signal_sanitize_block_mask (mask : Mask) : Mask := mask &&& ~~~bit 0 &&& ~~~bit SIGKILL &&& ~~~bit SIGSTOP

/-- One turn of the loop that drops ignored signals. -/
def drop_ignored (actions : Nat → SigAction) (masks : Mask × Mask) (sig : Nat) : Mask × Mask :=
  if masks.2.getLsbD sig && (actions sig).sa_handler = .SIG_IGN then (masks.1 &&& ~~~bit sig,masks.2 &&& ~~~bit sig)
  else masks

/-- The signals above zero. -/
def signal_numbers : List Nat := List.range' 1 (MAX_SIGNALS - 1)

/-- The pending signals left, and the deliverable ones. -/
def signal_deliverable_mask (s : SignalState) : SignalState × Mask :=
  let masks := signal_numbers.foldl (drop_ignored s.actions) (s.pending,s.pending &&& ~~~s.blocked)
  ({ s with pending := masks.1 },masks.2)
def find_highest_priority_signal (mask : Mask) : Nat :=
  if mask.getLsbD SIGKILL then SIGKILL
  else if mask.getLsbD SIGSTOP then SIGSTOP
  else (signal_numbers.find? (mask.getLsbD ·)).getD 0

/-! ### The life of a signal state -/

def init_process_signals : SignalState := ⟨fun _ => .default,0,0,0,false,0,false⟩

/-- What a child inherits, if it gets a signal stack. -/
def inherit_process_signals (stack : Bool) (parent : SignalState) : SignalState :=
  if stack then { init_process_signals with actions := parent.actions, blocked := parent.blocked }
  else init_process_signals
def reset_action (sig : Nat) (action : SigAction) : SigAction :=
  if sig = 0 ∨ action.sa_handler = .SIG_IGN then action else .default

def reset_process_signals_for_exec (s : SignalState) : SignalState :=
  { s with
    actions := fun sig => reset_action sig (s.actions sig)
    blocked := signal_sanitize_block_mask s.blocked
    in_handler := 0, return_override := false, suspend_saved_mask := 0, suspend_active := false }

/-! ### Sending -/

def signal_would_kill_or_stop_init (sig : Nat) : Bool :=
  default_signal_actions sig ∈ [.TERM,.CORE,.STOP]
def signal_would_kill_or_stop_init_effective (p : Process) (sig : Nat) : Bool :=
  (p.signals.actions sig).sa_handler = .SIG_DFL && signal_would_kill_or_stop_init sig
def Process.pend (p : Process) (sig : Nat) : Process :=
  { p with signals := { p.signals with pending := p.signals.pending ||| bit sig } }
def wake_up_process_for_signal (p : Process) : Process :=
  if p.state = .BLOCKED ∨ p.state = .INTERRUPTIBLE then { p with state := .READY, wakeup_time := 0 } else p
def continue_process (p : Process) : Process :=
  if p.state = .STOPPED then { p with state := .READY, stop_signal := 0 } else p

/-- `SIGKILL` and `SIGSTOP` look at no mask or handler. -/
def send_forced (p : Process) (sig : Nat) : Process :=
  let p := p.pend sig
  wake_up_process_for_signal (if sig = SIGKILL then continue_process p else p)

def send_ordinary (p : Process) (sig : Nat) : Process :=
  let p := if sig = SIGCONT then continue_process p else p
  if (p.signals.actions sig).sa_handler = .SIG_IGN then
    { p with signals := { p.signals with pending := p.signals.pending &&& ~~~bit sig } }
  else if p.signals.blocked.getLsbD sig then p.pend sig
  else wake_up_process_for_signal (p.pend sig)

def send_signal (p : Process) (sig : Nat) : Except Errno Process :=
  if sig = 0 ∨ MAX_SIGNALS ≤ sig ∨ p.state = .TERMINATED then .error .failed
  else if p.pid = 1 ∧ signal_would_kill_or_stop_init_effective p sig then .error .EPERM
  else if sig = SIGKILL ∨ sig = SIGSTOP then .ok (send_forced p sig)
  else .ok (send_ordinary p sig)

/-! ### System calls -/

def catchable (sig : Nat) : Bool := sig ≠ 0 && sig < MAX_SIGNALS && sig ≠ SIGKILL && sig ≠ SIGSTOP

def sys_signal (s : SignalState) (sig : Nat) (handler : Handler) : Except Errno SignalState :=
  if catchable sig then
    let action := { s.actions sig with sa_handler := handler, sa_mask := 0, sa_flags := SA_RESTART }
    .ok { s with actions := update s.actions sig action }
  else .error .EINVAL

def sys_sigaction (s : SignalState) (sig : Nat) (act : Pointer SigAction) (oldact : Pointer Unit) :
    Except Errno SignalState :=
  if catchable sig then
    match oldact, act with
    | .bad, _ => .error .EFAULT
    | _, .null => .ok s
    | _, .bad => .error .EFAULT
    | _, .good action => .ok { s with actions := update s.actions sig action }
  else .error .EINVAL

def ARMOS_SIG_SETMASK : Nat := 0
def ARMOS_SIG_BLOCK : Nat := 1
def ARMOS_SIG_UNBLOCK : Nat := 2

/-- The mask that `how` makes of the old and the given one. -/
def changed_mask (how : Nat) (blocked new_mask : Mask) : Option Mask :=
  if how = ARMOS_SIG_SETMASK then some new_mask
  else if how = ARMOS_SIG_BLOCK then some (signal_sanitize_block_mask (blocked ||| new_mask))
  else if how = ARMOS_SIG_UNBLOCK then some (signal_sanitize_block_mask (blocked &&& ~~~new_mask))
  else none

def sys_sigprocmask (s : SignalState) (how : Nat) (set : Pointer Mask) (oldset : Pointer Unit) :
    Except Errno SignalState :=
  match oldset, set with
  | .bad, _ => .error .EFAULT
  | _, .null => .ok s
  | _, .bad => .error .EFAULT
  | _, .good new_mask =>
    match changed_mask how s.blocked (signal_sanitize_block_mask new_mask) with
    | some blocked => .ok { s with blocked := blocked }
    | none => .error .EINVAL

/-- The part of `sigsuspend` before its wait. -/
def sys_sigsuspend (s : SignalState) (mask : Pointer Mask) : Except Errno SignalState :=
  match mask with
  | .good new_mask =>
    .ok { s with
      suspend_saved_mask := s.blocked, suspend_active := true, blocked := signal_sanitize_block_mask new_mask }
  | _ => .error .EFAULT

def frame_bit (sig : Nat) : Mask := if sig < MAX_SIGNALS then bit sig else m.wide_shift sig

/-- The frame is what is at the stack pointer, if readable. -/
def sys_sigreturn (s : SignalState) : Option Frame → SignalState
  | none => s
  | some frame =>
    { s with
      blocked := frame.old_blocked, in_handler := s.in_handler &&& ~~~frame_bit m frame.sig, return_override := true }

/-! ### Delivery -/

/-- Below the top of the signal stack, aligned. -/
def frame_address (p : Process) : Nat :=
  let signal_sp := (p.signal_stack_base + p.signal_stack_size + (2 ^ m.address_bits - 16)) % 2 ^ m.address_bits
  let lowest := (signal_sp + (2 ^ m.address_bits - m.frame_size)) % 2 ^ m.address_bits
  lowest - lowest % m.stack_alignment

/-- The frame, with a restorer, room and a copy that works. -/
def setup_signal_frame (p : Process) (sig : Nat) (action : SigAction) (old_blocked : Mask) (copied : Bool) :
    Option Frame :=
  if action.sa_restorer = 0 ∨ frame_address m p < p.signal_stack_base ∨ copied = false then none
  else some ⟨old_blocked,sig⟩

/-- The mask that the frame restores; it ends a `sigsuspend`. -/
def take_saved_mask (s : SignalState) : SignalState × Mask :=
  if s.suspend_active then ({ s with suspend_active := false },s.suspend_saved_mask) else (s,s.blocked)

/-- The signal state in which the handler of `sig` starts. -/
def enter_handler (s : SignalState) (sig : Nat) (action : SigAction) : SignalState :=
  let blocked := s.blocked ||| action.sa_mask
  { s with
    in_handler := s.in_handler ||| bit sig
    blocked := if action.sa_flags &&& SA_NODEFER = 0 then blocked ||| bit sig else blocked
    actions :=
      if action.sa_flags &&& SA_RESETHAND = 0 then s.actions
      else update s.actions sig { action with sa_handler := .SIG_DFL }
    return_override := true }

/-- The state after the attempt, and the frame that was written. -/
def setup_signal_handler (p : Process) (sig : Nat) (action : SigAction) (copied : Bool) : Process × Option Frame :=
  let (s,old_blocked) := take_saved_mask p.signals
  match setup_signal_frame m p sig action old_blocked copied with
  | none => ({ p with signals := s },none)
  | some frame => ({ p with signals := enter_handler s sig action },some frame)

def terminate_process (p : Process) (sig : Nat) : Process := { p with state := .ZOMBIE, term_signal := sig }
def stop_process (p : Process) (sig : Nat) : Process := { p with state := .STOPPED, stop_signal := sig }

def handle_default_signal_action (p : Process) (sig : Nat) : Process × Check :=
  match default_signal_actions sig with
  | .TERM => (terminate_process p sig,.EXITED)
  | .CORE => (terminate_process p sig,.EXITED)
  | .STOP => (stop_process p sig,.STOPPED)
  | .CONT => (continue_process p,.NONE)
  | .IGN => (p,.IGNORED)

def deliver_signal (p : Process) (sig : Nat) (copied : Bool) : Process × Check :=
  let action := p.signals.actions sig
  match action.sa_handler with
  | .SIG_IGN => (p,.IGNORED)
  | .SIG_DFL => handle_default_signal_action p sig
  | .user _ =>
    match setup_signal_handler m p sig action copied with
    | (p,none) => (p.pend sig,.DEFERRED)
    | (p,some _) => (p,.USER_FRAME)

/-- The delivery of the first of the deliverable signals. -/
def deliver_first (p : Process) (deliverable : Mask) (copied : Bool) : Process × Check :=
  let sig := find_highest_priority_signal deliverable
  if sig = 0 then (p,.NONE)
  else deliver_signal m { p with signals := { p.signals with pending := p.signals.pending &&& ~~~bit sig } } sig copied

def check_pending_signals (p : Process) (copied : Bool) : Process × Check :=
  if p.state = .UNINTERRUPTIBLE ∨ p.signals.in_handler ≠ 0 then (p,.DEFERRED)
  else
    let (s,deliverable) := signal_deliverable_mask p.signals
    deliver_first m { p with signals := s } deliverable copied

/-! ### Runs -/

/-- What can happen to signals; `fork` goes on with the child. -/
inductive Label
  | signal (sig : Nat) (handler : Handler)
  | sigaction (sig : Nat) (act : Pointer SigAction) (oldact : Pointer Unit)
  | sigprocmask (how : Nat) (set : Pointer Mask) (oldset : Pointer Unit)
  | sigsuspend (mask : Pointer Mask)
  | sigreturn (frame : Option Frame)
  | send (sig : Nat)
  | check (copied : Bool)
  | set_state (state : TaskState)
  | fork (pid : Nat) (stack : Bool)
  | exec

/-- The process after a call that may fail. -/
def Process.call (p : Process) : Except Errno SignalState → Process
  | .ok s => { p with signals := s }
  | .error _ => p

def step (p : Process) : Label → Process
  | .signal sig handler => p.call (sys_signal p.signals sig handler)
  | .sigaction sig act oldact => p.call (sys_sigaction p.signals sig act oldact)
  | .sigprocmask how set oldset => p.call (sys_sigprocmask p.signals how set oldset)
  | .sigsuspend mask => p.call (sys_sigsuspend p.signals mask)
  | .sigreturn frame => { p with signals := sys_sigreturn m p.signals frame }
  | .send sig => (send_signal p sig).toOption.getD p
  | .check copied => (check_pending_signals m p copied).1
  | .set_state state => { p with state := state }
  | .fork pid stack => { p with pid := pid, signals := inherit_process_signals stack p.signals }
  | .exec => { p with signals := reset_process_signals_for_exec p.signals }

def Step (p : Process) (l : Label) (q : Process) : Prop := step m p l = q
def clean (mask : Mask) : Bool := !mask.getLsbD SIGKILL && !mask.getLsbD SIGSTOP

/-- The masks given to `sigaction` and in frames are clean. -/
def careful : Label → Bool
  | .sigaction _ (.good action) _ => clean action.sa_mask
  | .sigreturn (some frame) => clean frame.old_blocked
  | _ => true
def Careful (p : Process) (l : Label) (q : Process) : Prop := Step m p l q ∧ careful l = true

def Process.first (pid signal_stack_base signal_stack_size : Nat) : Process where
  pid := pid
  state := .READY
  wakeup_time := 0
  signals := init_process_signals
  signal_stack_base := signal_stack_base
  signal_stack_size := signal_stack_size
  term_signal := 0
  stop_signal := 0

variable {m} {p q : Process} {s : SignalState} {sig : Nat}

/-! ### What the masks hold -/

@[simp] theorem bit_get (sig i : Nat) : (bit sig).getLsbD i = (decide (sig < 32) && decide (sig = i)) := by
  simp [bit]
theorem clean_sanitized (mask : Mask) : clean (signal_sanitize_block_mask mask) = true := by
  simp [clean,signal_sanitize_block_mask,SIGKILL,SIGSTOP]
theorem clean_or {a b : Mask} (left : clean a = true) (right : clean b = true) : clean (a ||| b) = true := by
  simp only [clean,Bool.and_eq_true,Bool.not_eq_true'] at left right
  simp [clean,left,right]
theorem clean_bit (caught : catchable sig = true) : clean (bit sig) = true := by
  simp only [catchable,Bool.and_eq_true,decide_eq_true_eq] at caught
  simp [clean,caught.1.2,caught.2]

/-- Masks are clean, and the two signals keep their actions. -/
structure Sound (s : SignalState) : Prop where
  blocked : clean s.blocked = true
  masks : ∀ sig, clean (s.actions sig).sa_mask = true
  defaults : ∀ sig, catchable sig = false → (s.actions sig).sa_handler = .SIG_DFL

variable {t : SignalState}

theorem Sound.congr (sound : Sound s) (blocked : t.blocked = s.blocked)
    (actions : t.actions = s.actions) : Sound t := by
  obtain ⟨first,masks,defaults⟩ := sound
  rw [← blocked] at first
  rw [← actions] at masks defaults
  exact ⟨first,masks,defaults⟩

theorem Sound.install (sound : Sound s) {action : SigAction} (given : clean action.sa_mask = true)
    (allowed : catchable sig = true ∨ action.sa_handler = .SIG_DFL) :
    Sound { s with actions := update s.actions sig action } := by
  refine ⟨sound.blocked,fun other => ?_,fun other fixed => ?_⟩
  · by_cases same : other = sig
    · simp [same,given]
    · simp [same,sound.masks]
  · grind [defaults]

theorem init_sound : Sound init_process_signals := by
  constructor
  · decide
  · intro sig
    exact (by decide : clean SigAction.default.sa_mask = true)
  intro sig fixed
  rfl

theorem inherit_sound (sound : Sound s) (stack : Bool) : Sound (inherit_process_signals stack s) := by
  cases stack with
  | true => exact ⟨sound.blocked,sound.masks,sound.defaults⟩
  | false => exact init_sound

theorem reset_sound (sound : Sound s) : Sound (reset_process_signals_for_exec s) := by
  refine ⟨clean_sanitized _,fun sig => ?_,fun sig fixed => ?_⟩
  · change clean (reset_action sig (s.actions sig)).sa_mask = true
    unfold reset_action
    split
    · exact sound.masks sig
    · decide
  change (reset_action sig (s.actions sig)).sa_handler = .SIG_DFL
  unfold reset_action
  split
  · exact sound.defaults sig fixed
  · rfl

variable {how : Nat}

section
variable (sound : Sound s)
include sound

theorem sys_signal_sound {handler : Handler} (called : sys_signal s sig handler = .ok t) : Sound t := by
  unfold sys_signal at called
  split at called
  · rename_i caught
    cases called
    exact sound.install (by decide : clean 0 = true) (.inl caught)
  · cases called

theorem sys_sigaction_sound {act : Pointer SigAction} {oldact : Pointer Unit}
    (given : careful (.sigaction sig act oldact) = true) (called : sys_sigaction s sig act oldact = .ok t) :
    Sound t := by
  unfold sys_sigaction at called
  split at called
  · rename_i caught
    split at called
    · cases called
    · cases called
      exact sound
    · cases called
    cases called
    exact sound.install given (.inl caught)
  · cases called

theorem sys_sigprocmask_sound {set : Pointer Mask} {oldset : Pointer Unit}
    (called : sys_sigprocmask s how set oldset = .ok t) : Sound t := by
  unfold sys_sigprocmask at called
  split at called
  · cases called
  · cases called
    exact sound
  · cases called
  split at called
  · rename_i blocked changed
    cases called
    refine ⟨?_,sound.masks,sound.defaults⟩
    unfold changed_mask at changed
    split at changed
    · cases changed
      exact clean_sanitized _
    split at changed
    · cases changed
      exact clean_sanitized _
    split at changed
    · cases changed
      exact clean_sanitized _
    · cases changed
  · cases called

theorem sys_sigsuspend_sound {mask : Pointer Mask} (called : sys_sigsuspend s mask = .ok t) : Sound t := by
  unfold sys_sigsuspend at called
  split at called
  · cases called
    exact ⟨clean_sanitized _,sound.masks,sound.defaults⟩
  · cases called

theorem sys_sigreturn_sound {frame : Option Frame} (given : careful (.sigreturn frame) = true) :
    Sound (sys_sigreturn m s frame) := by
  cases frame with
  | none => exact sound
  | some frame => exact ⟨given,sound.masks,sound.defaults⟩

end

theorem wake_up_signals (p : Process) : (wake_up_process_for_signal p).signals = p.signals := by
  unfold wake_up_process_for_signal
  split <;> rfl
theorem continue_signals (p : Process) : (continue_process p).signals = p.signals := by
  unfold continue_process
  split <;> rfl

theorem pend_sound (sound : Sound p.signals) (sig : Nat) : Sound (p.pend sig).signals := sound.congr rfl rfl

theorem send_ordinary_pends (p : Process) (sig : Nat) :
    ∃ pending, (send_ordinary p sig).signals = { p.signals with pending := pending } := by
  have continued : (if sig = SIGCONT then continue_process p else p).signals = p.signals := by
    split
    · exact continue_signals p
    · rfl
  unfold send_ordinary
  generalize (if sig = SIGCONT then continue_process p else p) = r at continued
  dsimp only
  rw [← continued]
  split
  · exact ⟨_,rfl⟩
  split
  · exact ⟨_,rfl⟩
  · exact ⟨_,wake_up_signals _⟩

/-- A signal that is sent changes what is pending, and no more. -/
theorem send_signal_pends (sent : send_signal p sig = .ok q) :
    ∃ pending, q.signals = { p.signals with pending := pending } := by
  unfold send_signal at sent
  split at sent
  · cases sent
  split at sent
  · cases sent
  split at sent
  · cases sent
    rw [send_forced,wake_up_signals]
    split
    · exact ⟨_,continue_signals _⟩
    · exact ⟨_,rfl⟩
  cases sent
  exact send_ordinary_pends p sig

theorem send_signal_sound (sound : Sound p.signals) (sent : send_signal p sig = .ok q) : Sound q.signals := by
  obtain ⟨pending,same⟩ := send_signal_pends sent
  exact sound.congr (by rw [same]) (by rw [same])

theorem take_saved_mask_sound (sound : Sound s) : Sound (take_saved_mask s).1 := by
  unfold take_saved_mask
  split
  · exact sound.congr rfl rfl
  · exact sound

theorem enter_handler_sound (sound : Sound s) {action : SigAction} (given : clean action.sa_mask = true)
    (caught : catchable sig = true) : Sound (enter_handler s sig action) := by
  have masked : clean (s.blocked ||| action.sa_mask) = true := clean_or sound.blocked given
  have installed := @Sound.install _ sig sound { action with sa_handler := .SIG_DFL } given (.inr rfl)
  refine ⟨?_,?_,?_⟩
  · dsimp only [enter_handler]
    split
    · exact clean_or masked (clean_bit caught)
    · exact masked
  · dsimp only [enter_handler]
    split
    · exact sound.masks
    · exact installed.masks
  dsimp only [enter_handler]
  split
  · exact sound.defaults
  · exact installed.defaults

theorem setup_signal_handler_sound (sound : Sound p.signals) (caught : catchable sig = true) {action : SigAction}
    (given : clean action.sa_mask = true) (copied : Bool) :
    Sound (setup_signal_handler m p sig action copied).1.signals := by
  have saved := take_saved_mask_sound sound
  unfold setup_signal_handler
  dsimp only
  split
  · exact saved
  · exact enter_handler_sound saved given caught

theorem default_action_signals (p : Process) (sig : Nat) :
    (handle_default_signal_action p sig).1.signals = p.signals := by
  unfold handle_default_signal_action
  split
  · rfl
  · rfl
  · rfl
  · exact continue_signals p
  · rfl

section
variable (sound : Sound p.signals)
include sound

theorem deliver_signal_sound (sig : Nat) (copied : Bool) : Sound (deliver_signal m p sig copied).1.signals := by
  unfold deliver_signal
  dsimp only
  split
  · exact sound
  · rw [default_action_signals]
    exact sound
  rename_i user
  have caught : catchable sig = true := by
    by_contra fixed
    rw [sound.defaults sig (by simpa using fixed)] at user
    cases user
  have entered := @setup_signal_handler_sound m p sig sound caught (p.signals.actions sig) (sound.masks sig) copied
  split
  · rename_i failed
    rw [failed] at entered
    exact pend_sound entered sig
  rename_i failed
  rw [failed] at entered
  exact entered

theorem check_pending_signals_sound (copied : Bool) : Sound (check_pending_signals m p copied).1.signals := by
  unfold check_pending_signals
  split
  · exact sound
  dsimp only [deliver_first]
  split
  · exact sound.congr rfl rfl
  apply deliver_signal_sound
  exact sound.congr rfl rfl

theorem call_sound {result : Except Errno SignalState}
    (given : ∀ t, result = .ok t → Sound t) : Sound (p.call result).signals := by
  cases result with
  | ok t => exact given t rfl
  | error _ => exact sound

theorem step_sound {l : Label} (taken : Careful m p l q) : Sound q.signals := by
  obtain ⟨rfl,given⟩ := taken
  cases l with
  | signal sig handler => exact call_sound sound fun t called => sys_signal_sound sound called
  | sigaction sig act oldact => exact call_sound sound fun t called => sys_sigaction_sound sound given called
  | sigprocmask how set oldset => exact call_sound sound fun t called => sys_sigprocmask_sound sound called
  | sigsuspend mask => exact call_sound sound fun t called => sys_sigsuspend_sound sound called
  | sigreturn frame => exact sys_sigreturn_sound sound given
  | send sig =>
    change Sound ((send_signal p sig).toOption.getD p).signals
    cases sent : send_signal p sig with
    | ok q => exact send_signal_sound sound sent
    | error _ => exact sound
  | check copied => exact check_pending_signals_sound sound copied
  | set_state state => exact sound
  | fork pid stack => exact inherit_sound sound stack
  | exec => exact reset_sound sound

end

/-- A handler that leaves its frame alone returns to the signal state before it. -/
theorem handler_returns {action : SigAction} {copied : Bool} {frame : Frame} (small : sig < MAX_SIGNALS)
    (outside : p.signals.in_handler = 0) (entered : setup_signal_handler m p sig action copied = (q,some frame)) :
    sys_sigreturn m q.signals (some frame) = { p.signals with
      actions := if action.sa_flags &&& SA_RESETHAND = 0 then p.signals.actions
        else update p.signals.actions sig { action with sa_handler := .SIG_DFL }
      blocked := if p.signals.suspend_active then p.signals.suspend_saved_mask else p.signals.blocked
      suspend_active := false, return_override := true } := by
  simp only [setup_signal_handler] at entered
  split at entered
  · cases entered
  next written =>
  cases entered
  obtain ⟨_,⟨⟩⟩ := Option.ite_none_left_eq_some.mp written
  unfold take_saved_mask
  split <;> simp_all [sys_sigreturn,enter_handler,frame_bit]

theorem handler_returns_caught : (sys_sigreturn ⟨288,16,64,fun _ => 0⟩ (setup_signal_handler ⟨288,16,64,fun _ => 0⟩
    (.first 7 0 0x4000) SIGUSR1 ⟨.user 0x8000,1,0,0x9000⟩ true).1.signals (some ⟨0,SIGUSR1⟩)).blocked = 0 :=
  congrArg SignalState.blocked (handler_returns (by decide) (Eq.refl 0) (Prod.ext rfl (by decide +kernel)))

/-- The signal that a check takes. -/
def first_signal (p : Process) : Nat := find_highest_priority_signal (signal_deliverable_mask p.signals).2

/-- A check takes a signal that has a handler. -/
def caught (p : Process) : Bool :=
  p.state ≠ .UNINTERRUPTIBLE && p.signals.in_handler = 0 && first_signal p ≠ 0 &&
    (p.signals.actions (first_signal p)).sa_handler ∉ [.SIG_IGN,.SIG_DFL]

section
variable (m)

/-- The frame for the handler of `sig`. -/
def written_frame (p : Process) (sig : Nat) (copied : Bool) : Option Frame :=
  setup_signal_frame m p sig (p.signals.actions sig) (take_saved_mask p.signals).2 copied

/-- Back in the program: after the check on the way out and, if it entered a handler,
    the `sigreturn` from the frame. -/
def sigsuspend_back (p : Process) (copied : Bool) : SignalState :=
  let after := check_pending_signals m p copied
  if after.2 = .USER_FRAME then sys_sigreturn m after.1.signals (written_frame m p (first_signal p) copied)
  else after.1.signals

end

theorem back_iff (suspended : p.signals.suspend_active = true) (copied : Bool) :
    ((sigsuspend_back m p copied).blocked = p.signals.suspend_saved_mask ∧
        (sigsuspend_back m p copied).suspend_active = false) ↔
      caught p = true ∧ ((written_frame m p (first_signal p) copied).isSome = true ∨
        p.signals.blocked = p.signals.suspend_saved_mask) := by
  unfold sigsuspend_back check_pending_signals caught
  by_cases deferred : p.state = .UNINTERRUPTIBLE ∨ p.signals.in_handler ≠ 0
  · rw [if_pos deferred]
    grind
  rw [if_neg deferred]
  push Not at deferred
  dsimp only [deliver_first]
  rw [← first_signal]
  generalize first_signal p = sig
  by_cases none_left : sig = 0
  · simp [none_left,suspended,signal_deliverable_mask]
  rw [if_neg none_left]
  generalize taken : signal_deliverable_mask p.signals = d
  have same : d.1 = { p.signals with pending := d.1.pending } := by simp [← taken,signal_deliverable_mask]
  rw [same]
  dsimp only
  generalize d.1.pending &&& ~~~bit sig = pending
  rcases handler : (p.signals.actions sig).sa_handler with _ | _ | address
  · have other : ∀ r, (handle_default_signal_action r sig).2 ≠ .USER_FRAME := by
      intro r
      unfold handle_default_signal_action
      split <;> simp
    simp [deliver_signal,handler,other,default_action_signals,suspended]
  · simp [deliver_signal,handler,suspended]
  by_cases refused : (p.signals.actions sig).sa_restorer = 0 ∨ frame_address m p < p.signal_stack_base ∨ copied = false
  all_goals
    have address : ∀ s, frame_address m { p with signals := s } = frame_address m p := fun _ => rfl
    simp [deliver_signal,handler,setup_signal_handler,setup_signal_frame,written_frame,take_saved_mask,suspended,
      address,refused,Process.pend,enter_handler,sys_sigreturn,deferred,none_left]

theorem sends_pend (m : Machine) (p : Process) (sigs : List Nat) :
    ∃ pending, ((sigs.map Label.send).foldl (step m) p).signals = { p.signals with pending := pending } := by
  induction sigs generalizing p with
  | nil => exact ⟨_,rfl⟩
  | cons sig sigs ih =>
    have sent : ∃ pending, (step m p (.send sig)).signals = { p.signals with pending := pending } := by
      dsimp only [step]
      rcases result : send_signal p sig with _ | q
      · exact ⟨_,rfl⟩
      · exact send_signal_pends result
    obtain ⟨_,before⟩ := sent
    obtain ⟨pending,same⟩ := ih (step m p (.send sig))
    exact ⟨pending,by rw [List.map_cons,List.foldl_cons,same,before]⟩

/-- The mask from before `sigsuspend` is back, and no suspend state, exactly where the
    check on the way out takes a signal with a handler, and the frame can be written or
    the mask given is that mask. -/
theorem sigsuspend_restores (m : Machine) (p : Process) (mask : Mask) (sigs : List Nat) (state : TaskState) (copied : Bool) :
    let q := { (sigs.map Label.send).foldl (step m) (step m p (.sigsuspend (.good mask))) with state := state }
    ((sigsuspend_back m q copied).blocked = p.signals.blocked ∧ (sigsuspend_back m q copied).suspend_active = false) ↔
      caught q = true ∧ ((written_frame m q (first_signal q) copied).isSome = true ∨
        signal_sanitize_block_mask mask = p.signals.blocked) := by
  intro q
  obtain ⟨pending,same⟩ := sends_pend m (step m p (.sigsuspend (.good mask))) sigs
  have here : q.signals = _ := same
  have known := @back_iff m q (by rw [here]; rfl) copied
  rw [here] at known
  exact known

/-- After `SIGCONT` the program goes on with the mask given to `sigsuspend`. -/
theorem sigsuspend_keeps_mask : let m : Machine := ⟨288,16,64,fun _ => 0⟩
    let q := [.sigsuspend (.good (bit SIGUSR1)),.send SIGCONT,.set_state .RUNNING].foldl (step m) (.first 7 0x10000 0x4000)
    (signal_deliverable_mask q.signals).2 ≠ 0 ∧ (check_pending_signals m q true).2 = .NONE ∧
      (sigsuspend_back m q true).blocked = bit SIGUSR1 ∧ (sigsuspend_back m q true).suspend_active = true := by
  decide +kernel

end ArmOS.Signals

