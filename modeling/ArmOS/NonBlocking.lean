import ArmOS.Readiness
import ArmOS.NetStack
import ArmOS.Sleepers

/-!
Reads and writes through a descriptor up to where they return, yield or sleep. The
flag `O_NONBLOCK` is on the description; pipes, eventfds, timers, the input device
and pseudo-terminal masters look at it before they wait, sockets and terminals do
not.
-/
namespace ArmOS.NonBlocking
open Option List NetStack
open Rings (RingBuffer)
open Pipes (Access PipeBuffer pipe_read pipe_write)
open Endpoints (Caller Call Eventfd Tty no_output eventfd_read eventfd_write task_poll_wait tty_drain_input
  tty_read_loop tty_write_to armos_socket_channel_read armos_socket_channel_write ARMOS_SOCKET_BUFFER_SIZE
  EVENT_TIMER_U64_MAX)
open Sleepers (passed)

inductive Errno
  | of (e : Endpoints.Errno)
  | stored (e : Tcp.Errno)
  | ENOSYS | ENODEV | EDESTADDRREQ | EMSGSIZE | EIO | ETIMEDOUT
  deriving DecidableEq, Repr

inductive Ending
  | returns (result : Except Errno Nat)
  | yields
  | sleeps

/-- `task_poll_wait` that does not return at once sleeps. -/
def Ending.of : Call → Ending
  | some (.ok n) => .returns (.ok n)
  | some (.error e) => .returns (.error (.of e))
  | none => .sleeps

/-- `task_sleep_interruptible_ms` returns for a pending signal. -/
def task_sleep_interruptible_ms (c : Caller) (interrupted : Except Errno Nat) : Ending :=
  if c.signal then .returns interrupted else .sleeps

/-- The bytes done, or the error of a call that has done none. -/
def partly (done : Nat) (error : Errno) : Except Errno Nat := if 0 < done then .ok done else .error error

/-! ### Pipes -/

def pipe_file_read (nonblock : Bool) (c : Caller) (count : Nat) (b : PipeBuffer) : Ending :=
  match (pipe_read count b).2 with
  | some bytes => .returns (.ok bytes.length)
  | none => if nonblock then .returns (.error (.of .EAGAIN)) else .of (task_poll_wait c)

def pipe_file_write (nonblock : Bool) (c : Caller) (bytes : List UInt8) (b : PipeBuffer) : Ending :=
  match (pipe_write bytes b).2 with
  | none => .returns (.error (.of .EPIPE))
  | some [] => .returns (.ok bytes.length)
  | some (byte :: left) =>
    let written := bytes.length - (byte :: left).length
    if nonblock then .returns (partly written (.of .EAGAIN))
    else if c.signal then .returns (partly written (.of .EINTR))
    else .sleeps

/-! ### Timers, input and pseudo-terminals -/

structure Timerfd where
  armed : Bool
  (deadline interval expirations : Nat)

def timerfd_update_locked (now : Nat) (t : Timerfd) : Timerfd :=
  if !t.armed || !passed now t.deadline then t
  else if t.interval = 0 then
    { t with armed := false, expirations := min EVENT_TIMER_U64_MAX (t.expirations + 1) }
  else
    let count := 1 + (now + 2 ^ 32 - t.deadline) % 2 ^ 32 / t.interval
    { t with
      deadline := (t.deadline + count * t.interval) % 2 ^ 32
      expirations := min EVENT_TIMER_U64_MAX (t.expirations + count) }

def timerfd_read (nonblock : Bool) (c : Caller) (now count : Nat) (t : Timerfd) : Ending :=
  if count ≠ 8 then .returns (.error (.of .EINVAL))
  else if (timerfd_update_locked now t).expirations ≠ 0 then .returns (.ok 8)
  else if nonblock then .returns (.error (.of .EAGAIN))
  -- the deadline of the timer, if it is armed, has not passed
  else .of (task_poll_wait c)

/-- The size of an `armos_input_event_t`. -/
def INPUT_EVENT_SIZE : Nat := 12

/-- The events, and whether the description owns the device. -/
structure Input where
  owner : Bool
  events : Nat

def input_read (nonblock : Bool) (c : Caller) (count : Nat) (i : Input) : Ending :=
  let capacity := count / INPUT_EVENT_SIZE
  if capacity = 0 then .returns (.error (.of .EINVAL))
  else if !i.owner then .returns (.error (.of .EACCES))
  else if i.events ≠ 0 then .returns (.ok (min capacity i.events * INPUT_EVENT_SIZE))
  else if nonblock then .returns (.error (.of .EAGAIN))
  else .of (task_poll_wait c)

structure PtyPair where
  used : Bool
  output : List UInt8
def pty_master_read (nonblock : Bool) (c : Caller) (count : Nat) (p : PtyPair) : Ending :=
  if p.output ≠ [] then .returns (.ok (min count p.output.length))
  else if nonblock then .returns (.error (.of .EAGAIN))
  else .of (task_poll_wait c)
def pty_master_write (count : Nat) (p : PtyPair) : Ending :=
  if p.used then .returns (.ok count) else .returns (.error (.of .EINVAL))

/-! ### Sockets -/

def armos_socket_file_read (c : Caller) (length : Nat) (s : Endpoints.Socket) : Ending :=
  if length = 0 then .returns (.ok 0) else .of (armos_socket_channel_read c length s).2
def armos_socket_file_write (c : Caller) (bytes : List UInt8) (s : Endpoints.Socket) : Ending :=
  if bytes = [] then .returns (.ok 0) else .of (armos_socket_channel_write c bytes s).2
def NET_TCP_MSS : Nat := 1200

/-- Whether the device transmits, whether its driver sleeps first (`cyw43_device_transmit`
    with a closed window, in `task_sleep_ms`, which no signal ends), and which
    acknowledgements are there. -/
structure Network where
  state : NetStack.State
  transmits : Bool
  (waits acked : Nat → Bool)

/-- A packet is refused, waits for its next hop, or is sent. -/
inductive Route
  | fails
  | unresolved
  | sent
  deriving DecidableEq, Repr

/-- `net_stack_send_ipv4` up to the wait of `net_wait_for_arp`. -/
def net_stack_send_ipv4 (net : Network) (device destination length : Nat) : Route :=
  match NetStack.net_interface_for_device net.state device with
  | none => .fails
  | some interface =>
    let hop := NetStack.next_hop interface.config destination
    if !interface.config.configured || hop = 0 || !net.transmits then .fails
    else if interface.arp_valid && interface.arp_address = hop then
      if NetStack.NET_ETH_HEADER_SIZE + NetStack.IPV4_SIZE + length > NetStack.NET_ETH_FRAME_MAX then .fails else .sent
    else .unresolved

/-- The error that a reset has left, or `ECONNRESET`. -/
def reset_error (s : Tcp.Socket) : Errno := .stored (s.error.getD .ECONNRESET)
def net_socket_read (c : Caller) (count : Nat) (s : Tcp.Socket) : Ending :=
  if s.rx = [] ∧ s.peer_closed = false ∧ s.state ≠ .RESET then task_sleep_interruptible_ms c (.error (.of .EINTR))
  else if s.state = .RESET then .returns (.error (reset_error s))
  else .returns (.ok (min s.rx.length count))

/-- The segments of a `net_tcp_write` from the `k`-th on, each sent and acknowledged. -/
def send_segments (c : Caller) (route : Route) (net : Network) (segment : { size : Nat // 0 < size })
    (k left written : Nat) : Ending :=
  if _ : left = 0 then .returns (.ok written)
  else
    match route with
    | .fails => .returns (partly written Errno.EIO)
    | .unresolved => if net.waits k then .sleeps else task_sleep_interruptible_ms c (partly written (.of .EINTR))
    | .sent =>
      if net.waits k then .sleeps
      else if net.acked k then
        send_segments c route net segment (k + 1) (left - segment.1) (written + min left segment.1)
      else task_sleep_interruptible_ms c (partly written (.of .EINTR))
termination_by left
decreasing_by
  have := segment.2
  omega

def net_tcp_write (c : Caller) (net : Network) (count : Nat) (s : Tcp.Socket) : Ending :=
  if count = 0 then .returns (.ok 0)
  else if none_open : s.peer_window = 0 then
    if s.peer_closed then .returns (.error .ETIMEDOUT)
    else task_sleep_interruptible_ms c (.error (.of .EINTR))
  else if s.peer_closed then .returns (.error (.of .EPIPE))
  else
    let segment : { size : Nat // 0 < size } := ⟨min NET_TCP_MSS s.peer_window,by unfold NET_TCP_MSS; omega⟩
    send_segments c (net_stack_send_ipv4 net s.device s.remote_address (NetStack.TCP_SIZE + min count segment.1))
      net segment 0 count 0

/-- A datagram goes out or not; the address of the next hop may have to be asked for. -/
def net_udp_write (c : Caller) (net : Network) (count : Nat) (s : Tcp.Socket) : Ending :=
  if s.remote_address = 0 ∨ s.remote_port = 0 then .returns (.error .EDESTADDRREQ)
  else if NetStack.NET_UDP_RX_SIZE < count then .returns (.error .EMSGSIZE)
  else
    match net_stack_send_ipv4 net s.device s.remote_address (NetStack.UDP_SIZE + count) with
    | .fails => .returns (.error Errno.EIO)
    | .unresolved => if net.waits 0 then .sleeps else task_sleep_interruptible_ms c (.error Errno.EIO)
    | .sent => if net.waits 0 then .sleeps else .returns (.ok count)

def net_socket_write (c : Caller) (net : Network) (count : Nat) (s : Tcp.Socket) : Ending :=
  if count = 0 then .returns (.ok 0)
  else
    match s.type with
    | .STREAM =>
      if s.state ≠ .ESTABLISHED ∧ s.state ≠ .CLOSE_WAIT then .returns (.error (.of .ENOTCONN))
      else net_tcp_write c net count s
    | .DGRAM => net_udp_write c net count s

/-! ### Terminals -/

/-- A terminal, the ticks, and whether another read sleeps. -/
structure Terminal where
  tty : Tty
  now : Nat
  other_reader : Bool

/-- The timer between two bytes is over. -/
def interbyte_passed (now : Nat) (t : Tty) : Bool :=
  t.termios.VTIME ≠ 0 && (now + t.termios.VTIME.toNat * 100) % 2 ^ 32 ≤ now

/-- The loop of `tty_read_to` with its timer; it gets to its wait with the queue empty. -/
def tty_read_turns (now : Nat) (other_reader : Bool) (t : Tty) (read n : Nat) : Ending :=
  match (tty_read_loop t read n).2 with
  | some result => .of (some result)
  | none =>
    if 0 < read + t.input.length ∧ interbyte_passed now t then .returns (.ok (read + t.input.length))
    else if other_reader then .yields
    else .sleeps

def tty_file_read (c : Caller) (count : Nat) : Option Terminal → Ending
  | none => .returns (.error .ENODEV)
  | some t =>
    if t.tty.output_only then .returns (.error (.of .EACCES))
    else if count = 0 then .returns (.ok 0)
    else if c.background then .returns (.error (.of .EINTR))
    else tty_read_turns t.now t.other_reader (tty_drain_input t.tty) 0 count

/-- A full output queue makes the caller yield. -/
def tty_file_write (c : Caller) (bytes : List UInt8) : Option Terminal → Ending
  | none => .returns (.error .ENODEV)
  | some t =>
    match (tty_write_to c t.tty 0 bytes).2 with
    | some (.ok n) => .returns (.ok n)
    | some (.error e) => .returns (.error (.of e))
    | none => .yields

/-! ### Descriptions -/

inductive Object
  | pipe (b : PipeBuffer)
  | local_socket (s : Endpoints.Socket)
  | net_socket (s : Tcp.Socket) (net : Network)
  | tty (t : Option Terminal)
  | pty_master (p : PtyPair)
  | eventfd (e : Eventfd)
  | timerfd (now : Nat) (t : Timerfd)
  | input (i : Input)

structure Description where
  access : Access
  nonblock : Bool
  object : Object

/-- `file_read_buffer`, with a buffer for so many bytes. -/
def file_read (f : Description) (c : Caller) (count : Nat) : Ending :=
  if count = 0 then .returns (.ok 0)
  else if !f.access.reads then .returns (.error (.of .EBADF))
  else
    match f.object with
    | .pipe b => pipe_file_read f.nonblock c count b
    | .local_socket s => armos_socket_file_read c count s
    | .net_socket s _ => net_socket_read c count s
    | .tty t => tty_file_read c count t
    | .pty_master p => pty_master_read f.nonblock c count p
    | .eventfd e => .of (eventfd_read f.nonblock c count e).2
    | .timerfd now t => timerfd_read f.nonblock c now count t
    | .input i => input_read f.nonblock c count i

/-- The value that the first eight bytes of a buffer are. -/
def value_of (bytes : List UInt8) : UInt64 :=
  UInt64.ofNat ((bytes.take 8).foldr (fun byte value => byte.toNat + 256 * value) 0)

/-- A chunk of `file_write_buffer`. -/
def file_write (f : Description) (c : Caller) (bytes : List UInt8) : Ending :=
  if bytes = [] then .returns (.ok 0)
  else if !f.access.writes then .returns (.error (.of .EBADF))
  else
    match f.object with
    | .pipe b => pipe_file_write f.nonblock c bytes b
    | .local_socket s => armos_socket_file_write c bytes s
    | .net_socket s net => net_socket_write c net bytes.length s
    | .tty t => tty_file_write c bytes t
    | .pty_master p => pty_master_write bytes.length p
    | .eventfd e => .of (eventfd_write f.nonblock c bytes.length (value_of bytes) e).2
    | .timerfd _ _ => .returns (.error .ENOSYS)
    | .input _ => .returns (.error .ENOSYS)

/-! ### Where a call sleeps in spite of the flag -/

variable {c : Caller} {count : Nat}

@[simp] theorem wait_eq_none : task_poll_wait c = none ↔ c.signal = false := by
  cases signal : c.signal <;> simp [task_poll_wait,signal]

/-! ### Drivers that look at the flag -/

/-- The driver's view from the `k`-th segment on. -/
def Network.from (net : Network) (k : Nat) : Network :=
  { net with waits := fun i => net.waits (k + i), acked := fun i => net.acked (k + i) }

variable {f : Description}

def datagram : Tcp.Socket where
  id := 1
  accept_next := none
  accept_head := none
  accept_tail := none
  listener := none
  device := 0
  state := .BOUND
  type := .DGRAM
  backlog := 0
  pending_count := 0
  accepted := false
  peer_closed := false
  local_closed := false
  error := none
  local_address := 0
  remote_address := 0
  local_port := 5000
  remote_port := 0
  snd_una := 0
  snd_nxt := 0
  rcv_nxt := 0
  state_since := 0
  peer_window := 0
  rx := []
  udp_source_address := 0
  udp_source_port := 0
  fits := by decide

/-- An established connection whose peer has closed its window. -/
def stalled : Tcp.Socket :=
  { datagram with type := .STREAM, state := .ESTABLISHED, remote_address := 0x0a000002, remote_port := 80 }

/-- How a try to send a segment ends. -/
inductive Try
  | acknowledged | interrupted | failed (error : Errno)
  deriving DecidableEq

/-- The loop over the tries, numbered from the last; `ret` is the result before. -/
def data_retries (tries : Nat → Try) (ret : Errno) : Nat → Try
  | 0 => .failed ret
  | left + 1 =>
    match tries left with
    | .failed ret => data_retries tries ret left
    | ends => ends
def NET_TCP_DATA_RETRIES : Nat := 5

/-- The socket when the wait for a window ends, whether a signal ended it, and the tries. -/
structure Round where
  interrupted : Bool
  socket : Tcp.Socket
  tries : Nat → Try

abbrev Sent := Except Errno Nat × List (List UInt8 × Try)

/-- The loop of `net_tcp_write`, with the segments taken off the buffer; `none` while it has
    not returned. -/
def write_rounds (buffer : List UInt8) : List Round → Nat → List (List UInt8 × Try) → Option Sent
  | [],written,sent => if written < buffer.length then none else some (.ok written,sent)
  | round :: rest,written,sent =>
    if written < buffer.length then
      let s := round.socket
      if round.interrupted then some (partly written (.of .EINTR),sent)
      else if s.state = .RESET then some (partly written (reset_error s),sent)
      else if s.peer_window = 0 then some (partly written .ETIMEDOUT,sent)
      else if s.peer_closed then some (partly written (.of .EPIPE),sent)
      else
        let segment := min (Words.wrap32 (buffer.length - written)) (min NET_TCP_MSS s.peer_window)
        let ended := data_retries round.tries .ETIMEDOUT NET_TCP_DATA_RETRIES
        let sent := sent ++ [((buffer.drop written).take segment,ended)]
        match ended with
        | .acknowledged => write_rounds buffer rest (written + segment) sent
        | .interrupted => some (partly written (.of .EINTR),sent)
        | .failed ret => some (partly written ret,sent)
    else some (.ok written,sent)

/-- As many bytes of the buffer are in the stream as the result says, none for an error. -/
def Sent.exact (buffer : List UInt8) (s : Sent) : Prop := s.2.flatMap Prod.fst = buffer.take (s.1.toOption.getD 0)

/-- The round gets as far as to send a segment. -/
def Round.sends (round : Round) : Prop :=
  round.interrupted = false ∧ round.socket.state ≠ .RESET ∧ round.socket.peer_window ≠ 0 ∧ round.socket.peer_closed = false

/-- A try is acknowledged, and each one before it failed without a signal. -/
def Round.acknowledged (round : Round) : Prop :=
  ∃ k < NET_TCP_DATA_RETRIES, round.tries k = .acknowledged ∧
    ∀ j < NET_TCP_DATA_RETRIES, k < j → ∃ error, round.tries j = .failed error

/-- Each round that the call comes to with data to send is acknowledged. -/
def Settled (count : Nat) : Nat → List Round → Prop
  | _,[] => True
  | written,round :: rest =>
    let segment := min (Words.wrap32 (count - written)) (min NET_TCP_MSS round.socket.peer_window)
    written < count → round.sends → (segment ≠ 0 → round.acknowledged) ∧
      (round.acknowledged → Settled count (written + segment) rest)

theorem data_retries_acknowledged (tries : Nat → Try) (ret : Errno) (n : Nat) :
    data_retries tries ret n = .acknowledged ↔
      ∃ k < n, tries k = .acknowledged ∧ ∀ j < n, k < j → ∃ error, tries j = .failed error := by
  induction n generalizing ret with
  | zero => simp [data_retries]
  | succ n ih =>
    rw [data_retries]
    rcases last : tries n with _ | _ | error
    · exact iff_of_true rfl ⟨n,by omega,last,fun j _ later => by omega⟩
    · refine iff_of_false nofun ?_
      rintro ⟨k,inside,found,before⟩
      rcases Nat.lt_or_eq_of_le (Nat.le_of_lt_succ inside) with earlier | rfl
      · obtain ⟨_,failed⟩ := before n (by omega) earlier
        simp [last] at failed
      · simp [last] at found
    · rw [ih]
      constructor
      · rintro ⟨k,inside,found,before⟩
        refine ⟨k,by omega,found,fun j below later => ?_⟩
        rcases Nat.lt_or_eq_of_le (Nat.le_of_lt_succ below) with earlier | rfl
        · exact before j earlier later
        · exact ⟨error,last⟩
      · rintro ⟨k,inside,found,before⟩
        have other : k ≠ n := by
          rintro rfl
          simp [last] at found
        exact ⟨k,by omega,found,fun j below later => before j (by omega) later⟩

theorem partly_count (written : Nat) (error : Errno) : (partly written error).toOption.getD 0 = written := by
  unfold partly
  split
  · rfl
  · simp [Except.toOption]
    omega

theorem write_rounds_exact {buffer : List UInt8} {rounds : List Round} {written : Nat} {sent : List (List UInt8 × Try)}
    {outcome : Sent} (appended : sent.flatMap Prod.fst = buffer.take written)
    (returned : write_rounds buffer rounds written sent = some outcome) :
    outcome.exact buffer ↔ Settled buffer.length written rounds := by
  induction rounds generalizing written sent with
  | nil =>
    simp only [write_rounds,ite_none_left_eq_some,some.injEq] at returned
    exact returned.2 ▸ iff_of_true appended trivial
  | cons round rest ih =>
    have stopped (error : Errno) : Sent.exact buffer (partly written error,sent) := by rw [Sent.exact,partly_count,appended]
    simp only [Settled]
    simp only [write_rounds] at returned
    generalize min (Words.wrap32 (buffer.length - written)) (min NET_TCP_MSS round.socket.peer_window) = segment at returned ⊢
    split at returned
    case isFalse done => exact some.inj returned ▸ iff_of_true appended fun more => absurd more done
    rename_i more
    by_cases sends : round.sends
    case neg =>
      refine iff_of_true ?_ fun _ waits => absurd waits sends
      simp only [Round.sends] at sends
      split at returned
      case isTrue => exact some.inj returned ▸ stopped _
      split at returned
      case isTrue => exact some.inj returned ▸ stopped _
      split at returned
      case isTrue => exact some.inj returned ▸ stopped _
      split at returned
      case isTrue => exact some.inj returned ▸ stopped _
      simp_all
    obtain ⟨calm,whole,window,opened⟩ := id sends
    simp only [calm,whole,window,opened,Bool.false_eq_true,if_false] at returned
    have acknowledged := data_retries_acknowledged round.tries .ETIMEDOUT NET_TCP_DATA_RETRIES
    generalize data_retries round.tries .ETIMEDOUT NET_TCP_DATA_RETRIES = ended at returned acknowledged
    change _ ↔ round.acknowledged at acknowledged
    simp only [more,sends,forall_const]
    -- a segment that was not acknowledged is past what the result counts
    have cut (error : Errno) :
        Sent.exact buffer (partly written error,sent ++ [((buffer.drop written).take segment,ended)]) ↔ segment = 0 := by
      simp only [Sent.exact,partly_count,flatMap_append,appended,flatMap_singleton,append_right_eq_self,take_eq_nil_iff,
        drop_eq_nil_iff]
      omega
    cases ended with
    | acknowledged =>
      have all := acknowledged.mp rfl
      simp only [all,forall_const,implies_true,true_and]
      exact ih (by simp [appended,take_add]) returned
    | interrupted | failed ret =>
      have lost : ¬ round.acknowledged := fun found => nomatch acknowledged.mpr found
      rw [← some.inj returned,cut]
      simp [lost]

/-- When `net_tcp_write` returns, what it says is in the stream, exactly where every round
    that it comes to with data is acknowledged. -/
theorem tcp_write_exact_iff (buffer : List UInt8) (rounds : List Round) (sent : Sent)
    (returned : write_rounds buffer rounds 0 [] = some sent) : sent.exact buffer ↔ Settled buffer.length 0 rounds :=
  write_rounds_exact rfl returned

def connected : Tcp.Socket := { stalled with peer_window := 2 }

theorem tcp_write_exact_two : Sent.exact [1,2] (.ok 2,[([1,2],.acknowledged)]) :=
  (tcp_write_exact_iff [1,2] [⟨false,connected,fun _ => .acknowledged⟩] (.ok 2,[([1,2],.acknowledged)]) rfl).mpr
    fun _ _ => ⟨fun _ => ⟨4,by decide,rfl,fun j below later => absurd below (not_lt.mpr later)⟩,fun _ => trivial⟩

/-- A signal after two of three bytes were sent: the call fails, and the bytes are in the stream. -/
theorem tcp_write_interrupted : write_rounds [1,2,3] [⟨false,connected,fun _ => .interrupted⟩] 0 [] =
    some (.error (.of .EINTR),[([1,2],.interrupted)]) :=
  rfl

end ArmOS.NonBlocking
