import ArmOS.Pipes
import Mathlib.Data.List.DropRight

/-!
Connected local sockets, eventfds and terminals, with what a read or a write of them
does. What a call that cannot go on gets, with `O_NONBLOCK` or a pending signal, is
part of the call.
-/
namespace ArmOS.Endpoints
open Rings (RingBuffer)

def MAX_FILES : Nat := 256

inductive Errno
  | EINTR | EBADF | EAGAIN | EACCES | EINVAL | EPIPE | ENOTCONN
  deriving DecidableEq, Repr

/-- What a call returns, or nothing when it has to wait. -/
abbrev Call := Option (Except Errno Nat)

/-- A pending signal, and whether `SIGTTIN` turns a read away. -/
structure Caller where
  (signal background : Bool)
  deriving DecidableEq

/-- `task_poll_wait` when nothing has been notified. -/
def task_poll_wait (c : Caller) : Call := if c.signal then some (.error .EINTR) else none

/-! ### Eventfds -/

def EVENT_TIMER_U64_MAX : Nat := 2 ^ 64 - 1
def EVENTFD_COUNTER_MAX : Nat := EVENT_TIMER_U64_MAX - 1
structure Eventfd where
  counter : Nat
  semaphore : Bool
  within : counter ≤ EVENTFD_COUNTER_MAX

def eventfd_read (nonblock : Bool) (c : Caller) (count : Nat) (e : Eventfd) : Eventfd × Call :=
  if count ≠ 8 then (e,some (.error .EINVAL))
  else if e.counter ≠ 0 then
    if e.semaphore then ({ e with counter := e.counter - 1, within := (Nat.sub_le _ _).trans e.within },some (.ok 8))
    else ({ e with counter := 0, within := Nat.zero_le _ },some (.ok 8))
  else if nonblock then (e,some (.error .EAGAIN))
  else (e,task_poll_wait c)

def eventfd_write (nonblock : Bool) (c : Caller) (count : Nat) (value : UInt64) (e : Eventfd) : Eventfd × Call :=
  if count ≠ 8 then (e,some (.error .EINVAL))
  else if value.toNat = EVENT_TIMER_U64_MAX then (e,some (.error .EINVAL))
  else if room : value.toNat ≤ EVENTFD_COUNTER_MAX - e.counter then
    ({ e with
      counter := e.counter + value.toNat
      within := by have := e.within; omega },some (.ok 8))
  else if nonblock then (e,some (.error .EAGAIN))
  else (e,task_poll_wait c)

def eventfd_read_ready (e : Eventfd) : Bool := e.counter ≠ 0
def eventfd_write_ready (e : Eventfd) : Bool := e.counter < EVENTFD_COUNTER_MAX

/-! ### Local sockets -/

def ARMOS_SOCKET_BUFFER_SIZE : Nat := 16384
inductive SocketState
  | CREATED | BOUND | LISTENING | CONNECTED | CLOSED
  deriving DecidableEq, Repr

/-- The two directions of a connection, one for each side. -/
structure Channel where
  ring : Bool → RingBuffer UInt8
  read_closed : Bool → Bool
  write_closed : Bool → Bool

structure Socket where
  state : SocketState
  channel : Option Channel
  side : Bool
  pending : Nat

def Socket.connected (s : Socket) : Option Channel := if s.state = .CONNECTED then s.channel else none

/-- A section of `armos_socket_channel_read` without control data. -/
def armos_socket_channel_read (c : Caller) (length : Nat) (s : Socket) : Socket × Call :=
  match s.connected with
  | none => (s,some (.error .ENOTCONN))
  | some channel =>
    if channel.read_closed s.side then (s,some (.ok 0))
    else
      let taken := (channel.ring s.side).drain ARMOS_SOCKET_BUFFER_SIZE length
      let after := { s with channel := some { channel with ring := Function.update channel.ring s.side taken.2 } }
      if taken.1 ≠ [] then (after,some (.ok taken.1.length))
      else if channel.write_closed (!s.side) then (s,some (.ok 0))
      else (s,task_poll_wait c)

/-- A section of `armos_socket_channel_write` without control data that has written nothing yet. -/
def armos_socket_channel_write (c : Caller) (bytes : List UInt8) (s : Socket) : Socket × Call :=
  match s.connected with
  | none => (s,some (.error .ENOTCONN))
  | some channel =>
    if channel.write_closed s.side || channel.read_closed (!s.side) then (s,some (.error .EPIPE))
    else
      let filled := (channel.ring (!s.side)).fill ARMOS_SOCKET_BUFFER_SIZE bytes
      let after := { s with channel := some { channel with ring := Function.update channel.ring (!s.side) filled.1 } }
      let written := bytes.length - filled.2.length
      if filled.2 = [] then (after,some (.ok written))
      else if c.signal then (after,some (if 0 < written then .ok written else .error .EINTR))
      else (after,none)

def armos_socket_read_ready (s : Socket) : Bool :=
  if s.state = .LISTENING then 0 < s.pending
  else
    match s.connected with
    | none => false
    | some channel => 0 < (channel.ring s.side).count || channel.read_closed s.side || channel.write_closed (!s.side)

def armos_socket_write_ready (s : Socket) : Bool :=
  match s.connected with
  | none => false
  | some channel =>
    !channel.write_closed s.side && !channel.read_closed (!s.side) &&
      decide ((channel.ring (!s.side)).count < ARMOS_SOCKET_BUFFER_SIZE)

/-! ### Terminals -/

def TTY_INPUT_BUF_SIZE : Nat := 512
def TTY_OUTPUT_BUF_SIZE : Nat := 4096
theorem no_output : ([] : List UInt8).length < TTY_OUTPUT_BUF_SIZE := by decide
def TTY_TX_DRAIN_BUDGET : Nat := 64

/-- What the line discipline uses of a `termios`. -/
structure Termios where
  IGNCR : Bool
  ICRNL : Bool
  INLCR : Bool
  OPOST : Bool
  ONLCR : Bool
  ISIG : Bool
  ICANON : Bool
  ECHO : Bool
  VINTR : UInt8
  VSUSP : UInt8
  VEOF : UInt8
  VERASE : UInt8
  VKILL : UInt8
  VWERASE : UInt8
  VMIN : UInt8
  VTIME : UInt8
  deriving DecidableEq

/-- A terminal with what its backend has ready and can take. -/
structure Tty where
  termios : Termios
  input : List UInt8
  eof_pending : Bool
  output : { queued : List UInt8 // queued.length < TTY_OUTPUT_BUF_SIZE }
  output_only : Bool
  received : List UInt8
  tx_room : Nat

def newline : UInt8 := 10
def carriage_return : UInt8 := 13
def blank : UInt8 := 32
def ends_line (ch : UInt8) : Bool := ch = newline || ch = carriage_return

def tty_normalize_input_char (tio : Termios) (ch : UInt8) : Option UInt8 :=
  if ch = carriage_return then
    if tio.IGNCR then none else if tio.ICRNL then some newline else some ch
  else if ch = newline && tio.INLCR then some carriage_return
  else some ch

/-- The queue after an editing character of canonical echo mode; an item of the queue
    has the character `char`. -/
def tty_handle_canonical_edit {Item : Type} (char : Item → UInt8) (tio : Termios) (input : List Item) (ch : UInt8) :
    Option (List Item) :=
  if ch = 8 || ch = tio.VERASE then
    some (match input.getLast? with
      | some last => if ends_line (char last) then input else input.dropLast
      | none => input)
  else if ch = tio.VKILL then some (input.rdropWhile fun last => !ends_line (char last))
  else if ch = tio.VWERASE then
    some ((input.rdropWhile fun last => char last = blank).rdropWhile fun last =>
      !(ends_line (char last) || char last = blank))
  else none

/-- What a received character does to the queue, where it becomes an `item`, and to the
    pending end of file. -/
def tty_input_queue {Item : Type} (char : Item → UInt8) (item : UInt8 → Item) (tio : Termios) (input : List Item)
    (eof_pending : Bool) (received : UInt8) : List Item × Bool :=
  match tty_normalize_input_char tio received with
  | none => (input,eof_pending)
  | some ch =>
    let canonical_echo := tio.ICANON && tio.ECHO
    if tio.ISIG && (ch = tio.VINTR || ch = tio.VSUSP) then (input,eof_pending)
    else if canonical_echo && ch = tio.VEOF then (input,true)
    else
      match if canonical_echo then tty_handle_canonical_edit char tio input ch else none with
      | some edited => (edited,eof_pending)
      | none => if input.length + 1 < TTY_INPUT_BUF_SIZE then (input ++ [item ch],eof_pending) else (input,eof_pending)
def tty_input_char_to (t : Tty) (received : UInt8) : Tty :=
  let queue := tty_input_queue id id t.termios t.input t.eof_pending received
  { t with input := queue.1, eof_pending := queue.2 }

/-- What was received goes through the line discipline. -/
def tty_drain_input (t : Tty) : Tty := { t.received.foldl tty_input_char_to t with received := [] }

def tty_read_ready_for_id (t : Tty) : Bool :=
  let t := tty_drain_input t
  if t.eof_pending then true
  else if t.input = [] then false
  else if !t.termios.ICANON then true
  else t.input.any ends_line

/-- The loop of `tty_read_to` after `read` characters. -/
def tty_read_loop (t : Tty) (read : Nat) : Nat → Tty × Call
  | 0 => (t,some (.ok read))
  | n+1 =>
    match t.input with
    | [] =>
      if t.eof_pending then ({ t with eof_pending := false },some (.ok read))
      else if 0 < read ∧ (t.termios.ICANON ∨ t.termios.VMIN = 0 ∨ t.termios.VMIN.toNat ≤ read) then (t,some (.ok read))
      else if !t.termios.ICANON ∧ t.termios.VMIN = 0 ∧ t.termios.VTIME = 0 then (t,some (.ok read))
      else (t,none)
    | ch :: rest =>
      let after := { t with input := rest }
      if !t.termios.ICANON then
        if 0 < t.termios.VMIN.toNat ∧ t.termios.VMIN.toNat ≤ read + 1 then (after,some (.ok (read + 1)))
        else tty_read_loop after (read + 1) n
      else if ends_line ch then (after,some (.ok (read + 1)))
      else tty_read_loop after (read + 1) n

def tty_file_read (c : Caller) (count : Nat) (t : Tty) : Tty × Call :=
  if t.output_only then (t,some (.error .EACCES))
  else if count = 0 then (t,some (.ok 0))
  else if c.background then (t,some (.error .EINTR))
  else tty_read_loop (tty_drain_input t) 0 count

def tty_drain_output_limited_to (budget : Nat) (t : Tty) : Tty :=
  let sent := min budget (min t.tx_room t.output.1.length)
  { t with
    output := ⟨t.output.1.drop sent,by rw [List.length_drop]; have := t.output.2; omega⟩
    tx_room := t.tx_room - sent }

/-- A character into the output queue, if it is not full. -/
def tty_enqueue (t : Tty) (ch : UInt8) : Option Tty :=
  if room : t.output.1.length + 1 < TTY_OUTPUT_BUF_SIZE then
    some { t with output := ⟨t.output.1 ++ [ch],by simpa using room⟩ }
  else none
inductive Put
  | done (t : Tty)
  | interrupted (t : Tty)
  | waits (t : Tty)

/-- One character of `tty_write_to`; a full queue is drained. -/
def tty_put (c : Caller) (t : Tty) (ch : UInt8) : Put :=
  match tty_enqueue t ch with
  | some t => .done t
  | none =>
    let t := tty_drain_output_limited_to TTY_TX_DRAIN_BUDGET t
    if c.signal then .interrupted t
    else
      match tty_enqueue t ch with
      | some t => .done t
      | none => .waits t

/-- The characters that one character is sent as. -/
def tty_expand (tio : Termios) (ch : UInt8) : List UInt8 :=
  if tio.OPOST && tio.ONLCR && ch = newline then [carriage_return,ch] else [ch]

def tty_put_all (c : Caller) (t : Tty) : List UInt8 → Put
  | [] => .done t
  | ch :: rest =>
    match tty_put c t ch with
    | .done t => tty_put_all c t rest
    | stopped => stopped

def tty_write_to (c : Caller) (t : Tty) (written : Nat) : List UInt8 → Tty × Call
  | [] => (tty_drain_output_limited_to TTY_OUTPUT_BUF_SIZE t,some (.ok written))
  | ch :: rest =>
    match tty_put_all c t (tty_expand t.termios ch) with
    | .done t => tty_write_to c t (written + 1) rest
    | .interrupted t => (t,some (if 0 < written then .ok written else .error .EINTR))
    | .waits t => (t,none)

end ArmOS.Endpoints

