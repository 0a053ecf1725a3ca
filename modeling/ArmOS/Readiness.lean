import ArmOS.Endpoints
import ArmOS.PipeRuns

/-!
What `poll` and `select` say about a descriptor, beside what a read or a write of it
would do, compared in all states of every kind of object.
-/
namespace ArmOS.Readiness
open Endpoints List
open Rings (RingBuffer)
open Pipes (Access PipeBuffer PIPE_BUF_SIZE pipe_read pipe_write)

inductive Object
  | pipe (b : PipeBuffer)
  | socket (s : Socket)
  | eventfd (e : Eventfd)
  | tty (t : Tty)

structure File where
  access : Access
  nonblock : Bool
  object : Object

def fd_read_ready (f : File) : Bool :=
  if !f.access.reads then false
  else
    match f.object with
    | .tty t => tty_read_ready_for_id t
    | .pipe b => 0 < b.ring.count || b.writers = 0 || b.closed_write
    | .socket s => armos_socket_read_ready s
    | .eventfd e => eventfd_read_ready e

def fd_write_ready (f : File) : Bool :=
  if !f.access.writes then false
  else
    match f.object with
    | .pipe b => 0 < b.readers && !b.closed_read && decide (b.ring.count < PIPE_BUF_SIZE)
    | .socket s => armos_socket_write_ready s
    | .eventfd e => eventfd_write_ready e
    | .tty _ => true

/-! ### The calls -/

/-- `select_scan` with the sets as lists of descriptors. -/
structure Scan where
  out_read : List Nat
  out_write : List Nat
  ready : Nat

section
variable (files : Nat → Option File)

def scan_fd (in_read in_write : Nat → Bool) (scan : Scan) (fd : Nat) : Scan :=
  match files fd with
  | none => scan
  | some f =>
    let scan :=
      if in_read fd && fd_read_ready f then { scan with out_read := fd :: scan.out_read, ready := scan.ready + 1 } else scan
    if in_write fd && fd_write_ready f then { scan with out_write := fd :: scan.out_write, ready := scan.ready + 1 }
    else scan

def select_scan (nfds : Nat) (in_read in_write : Nat → Bool) : Scan :=
  (List.range (min nfds MAX_FILES)).foldl (scan_fd files in_read in_write) ⟨[],[],0⟩
structure Pollfd where
  fd : Int
  POLLIN : Bool
  POLLOUT : Bool
structure Revents where
  POLLIN : Bool
  POLLOUT : Bool
  POLLNVAL : Bool

/-- The events that one pass of `sys_poll` reports for an entry. -/
def poll_scan (p : Pollfd) : Revents :=
  if p.fd < 0 then ⟨false,false,false⟩
  else if MAX_FILES ≤ p.fd then ⟨false,false,true⟩
  else
    match files p.fd.toNat with
    | none => ⟨false,false,true⟩
    | some f => ⟨p.POLLIN && fd_read_ready f,p.POLLOUT && fd_write_ready f,false⟩

end

/-- A read of one byte, or of the eight bytes of an eventfd. -/
def sys_read (f : File) (c : Caller) : Call :=
  if !f.access.reads then some (.error .EBADF)
  else
    match f.object with
    | .pipe b =>
      match (pipe_read 1 b).2 with
      | some bytes => some (.ok bytes.length)
      | none => if f.nonblock then some (.error .EAGAIN) else task_poll_wait c
    | .socket s => (armos_socket_channel_read c 1 s).2
    | .eventfd e => (eventfd_read f.nonblock c 8 e).2
    | .tty t => (tty_file_read c 1 t).2

/-- A write of one byte, or of the value `value` to an eventfd. -/
def sys_write (f : File) (c : Caller) (byte : UInt8) (value : UInt64) : Call :=
  if !f.access.writes then some (.error .EBADF)
  else
    match f.object with
    | .pipe b =>
      match (pipe_write [byte] b).2 with
      | none => some (.error .EPIPE)
      | some [] => some (.ok 1)
      | some (_ :: _) => if f.nonblock then some (.error .EAGAIN) else task_poll_wait c
    | .socket s => (armos_socket_channel_write c [byte] s).2
    | .eventfd e => (eventfd_write f.nonblock c 8 value e).2
    | .tty t => (tty_write_to c t 0 [byte]).2

/-! ### Where they agree -/

/-- The states in which a read agrees with its report. -/
def ReadAgrees (f : File) (c : Caller) : Prop :=
  f.access.reads = true ∧
  match f.object with
  | .pipe b => 0 < b.ring.count ∨ b.writers = 0 ∨ (f.nonblock = false ∧ c.signal = false)
  | .socket s =>
    match s.connected with
    | none => s.state = .LISTENING ∧ 0 < s.pending
    | some channel =>
      0 < (channel.ring s.side).count ∨ channel.read_closed s.side = true ∨ channel.write_closed (!s.side) = true ∨
        c.signal = false
  | .eventfd e => e.counter ≠ 0 ∨ (f.nonblock = false ∧ c.signal = false)
  | .tty t =>
    (tty_drain_input t).eof_pending = true ∨
    if (tty_drain_input t).input = [] then
      t.output_only = false ∧ c.background = false ∧
        ((tty_drain_input t).termios.ICANON = true ∨ (tty_drain_input t).termios.VMIN ≠ 0 ∨
          (tty_drain_input t).termios.VTIME ≠ 0)
    else (tty_drain_input t).termios.ICANON = false ∨ (tty_drain_input t).input.any ends_line = true

/-- The room in the output queue after its backend takes some. -/
def tty_room (t : Tty) : Nat := TTY_OUTPUT_BUF_SIZE - 1 - t.output.1.length + t.tx_room

/-- The states in which a write agrees with its report. -/
def WriteAgrees (f : File) (c : Caller) (byte : UInt8) (value : UInt64) : Prop :=
  f.access.writes = true ∧
  match f.object with
  | .pipe b => 0 < b.readers ∧ (b.ring.count < PIPE_BUF_SIZE ∨ (f.nonblock = false ∧ c.signal = false))
  | .socket s =>
    match s.connected with
    | none => False
    | some channel =>
      channel.write_closed s.side = false ∧ channel.read_closed (!s.side) = false ∧
        ((channel.ring (!s.side)).count < ARMOS_SOCKET_BUFFER_SIZE ∨ c.signal = false)
  | .eventfd e =>
    if e.counter < EVENTFD_COUNTER_MAX then
      value.toNat = EVENT_TIMER_U64_MAX ∨ value.toNat ≤ EVENTFD_COUNTER_MAX - e.counter ∨ f.nonblock = true ∨
        c.signal = true
    else
      value.toNat ≠ EVENT_TIMER_U64_MAX ∧ value.toNat ≠ 0 ∧ f.nonblock = false ∧ c.signal = false
  | .tty t =>
    (tty_expand t.termios byte).length ≤ tty_room t ∨ c.signal = true

/-- A pipe end is in a state that some run of its pipe leads to. -/
def File.Reached (f : File) : Prop :=
  match f.object with
  | .pipe b =>
    ∃ named s file, Runs.Reachable Pipes.Step (Pipes.System.first named) s ∧ s.buffer = some b ∧ (file,f.access) ∈ s.files
  | _ => True

theorem wait_isSome (c : Caller) : (task_poll_wait c).isSome = c.signal := by
  cases signal : c.signal <;> simp [task_poll_wait,signal]

/-! ### Reading -/

theorem pipe_read_one (b : PipeBuffer) : (pipe_read 1 b).2.isSome = decide (0 < b.ring.count ∨ b.writers = 0) := by
  by_cases some_byte : 0 < b.ring.count
  · simp [pipe_read,RingBuffer.drain,some_byte,some_byte.ne']
  have no_byte : b.ring.count = 0 := by omega
  by_cases ended : b.writers = 0
  · simp [pipe_read,no_byte,ended]
  · simp [pipe_read,RingBuffer.drain,no_byte,ended]

theorem socket_read_one (c : Caller) (s : Socket) :
    (armos_socket_channel_read c 1 s).2.isSome =
      match s.connected with
      | none => true
      | some channel =>
        decide (0 < (channel.ring s.side).count) || channel.read_closed s.side || channel.write_closed (!s.side) ||
          c.signal := by
  rcases here : s.connected with _ | channel
  · simp [armos_socket_channel_read,here]
  rcases closed : channel.read_closed s.side
  · by_cases some_byte : 0 < (channel.ring s.side).count
    · simp [armos_socket_channel_read,here,closed,RingBuffer.drain,some_byte]
    rcases ended : channel.write_closed (!s.side)
    · simp [armos_socket_channel_read,here,closed,RingBuffer.drain,some_byte,ended,wait_isSome]
    · simp [armos_socket_channel_read,here,closed,RingBuffer.drain,some_byte,ended]
  · simp [armos_socket_channel_read,here,closed]

theorem eventfd_read_one (nonblock : Bool) (c : Caller) (e : Eventfd) :
    (eventfd_read nonblock c 8 e).2.isSome = (decide (e.counter ≠ 0) || nonblock || c.signal) := by
  by_cases some_count : e.counter = 0
  · cases nonblock <;> simp [eventfd_read,some_count,wait_isSome]
  · cases semaphore : e.semaphore <;> simp [eventfd_read,some_count,semaphore]

theorem tty_read_one (c : Caller) (t : Tty) :
    (tty_file_read c 1 t).2.isSome =
      (t.output_only || c.background || (tty_drain_input t).eof_pending || decide ((tty_drain_input t).input ≠ []) ||
        decide ((tty_drain_input t).termios.ICANON = false ∧ (tty_drain_input t).termios.VMIN = 0 ∧
          (tty_drain_input t).termios.VTIME = 0)) := by
  rcases only : t.output_only
  · rcases away : c.background
    · rcases queue : (tty_drain_input t).input with _ | ⟨ch,rest⟩
      · grind [tty_file_read,tty_read_loop]
      simp only [tty_file_read,only,away,tty_read_loop,queue]
      split_ifs <;> simp
    · simp [tty_file_read,only,away]
  · simp [tty_file_read,only]

/-- The report for reading is right exactly in `ReadAgrees`. -/
theorem read_report (f : File) (c : Caller) (reached : f.Reached) :
    (fd_read_ready f = true ↔ (sys_read f c).isSome = true) ↔ ReadAgrees f c := by
  obtain ⟨access,nonblock,object⟩ := f
  rcases reads : access.reads
  · simp [fd_read_ready,sys_read,ReadAgrees,reads]
  cases object with
  | pipe b =>
    obtain ⟨named,s,file,run,here,_⟩ := reached
    have flag := ((PipeRuns.sound_reachable run).tidy b here).closed_write
    have section_returns := pipe_read_one b
    simp only [fd_read_ready,sys_read,ReadAgrees,reads,Bool.not_true,Bool.false_eq_true,if_false,true_and,
      Bool.or_eq_true,decide_eq_true_eq,flag]
    rcases result : (pipe_read 1 b).2 with _ | bytes
    · have waits : ¬ (0 < b.ring.count ∨ b.writers = 0) := by simpa [result] using section_returns.symm
      cases nonblock <;> cases signal : c.signal <;> simp [waits,wait_isSome,signal] <;> tauto
    · grind
  | socket s =>
    simp only [fd_read_ready,sys_read,ReadAgrees,reads,Bool.not_true,Bool.false_eq_true,if_false,true_and,
      socket_read_one,armos_socket_read_ready]
    rcases here : s.connected with _ | channel
    · by_cases listening : s.state = .LISTENING <;> simp [listening]
    have connected : s.state ≠ .LISTENING := by
      intro listening
      simp [Socket.connected,listening] at here
    cases signal : c.signal <;> simp [connected] <;> tauto
  | eventfd e =>
    simp only [fd_read_ready,sys_read,ReadAgrees,reads,Bool.not_true,Bool.false_eq_true,if_false,true_and,
      eventfd_read_one,eventfd_read_ready]
    cases nonblock <;> cases signal : c.signal <;> by_cases some_count : e.counter = 0 <;> simp [some_count]
  | tty t =>
    simp only [fd_read_ready,sys_read,ReadAgrees,reads,Bool.not_true,Bool.false_eq_true,if_false,true_and,
      tty_read_one,tty_read_ready_for_id]
    grind

/-! ### Writing -/

theorem pipe_write_one (byte : UInt8) (b : PipeBuffer) :
    (pipe_write [byte] b).2 =
      if b.readers = 0 then none else if b.ring.count < PIPE_BUF_SIZE then some [] else some [byte] := by
  by_cases broken : b.readers = 0
  · simp [pipe_write,broken]
  by_cases room : b.ring.count < PIPE_BUF_SIZE <;> simp [pipe_write,broken,RingBuffer.fill,room]

theorem socket_write_one (c : Caller) (byte : UInt8) (s : Socket) :
    (armos_socket_channel_write c [byte] s).2.isSome =
      match s.connected with
      | none => true
      | some channel =>
        channel.write_closed s.side || channel.read_closed (!s.side) ||
          decide ((channel.ring (!s.side)).count < ARMOS_SOCKET_BUFFER_SIZE) || c.signal := by
  rcases here : s.connected with _ | channel
  · simp [armos_socket_channel_write,here]
  by_cases closed : channel.write_closed s.side || channel.read_closed (!s.side)
  · simp [armos_socket_channel_write,here,closed]
  by_cases room : (channel.ring (!s.side)).count < ARMOS_SOCKET_BUFFER_SIZE
  · simp [armos_socket_channel_write,here,closed,RingBuffer.fill,room]
  · cases signal : c.signal <;> simp [armos_socket_channel_write,here,closed,RingBuffer.fill,room,signal]

theorem eventfd_write_one (nonblock : Bool) (c : Caller) (value : UInt64) (e : Eventfd) :
    (eventfd_write nonblock c 8 value e).2.isSome =
      (decide (value.toNat = EVENT_TIMER_U64_MAX) || decide (value.toNat ≤ EVENTFD_COUNTER_MAX - e.counter) || nonblock ||
        c.signal) := by
  by_cases invalid : value.toNat = EVENT_TIMER_U64_MAX
  · simp [eventfd_write,invalid]
  by_cases room : value.toNat ≤ EVENTFD_COUNTER_MAX - e.counter
  · simp [eventfd_write,invalid,room]
  · cases nonblock <;> simp [eventfd_write,invalid,room,wait_isSome]

variable {t after : Tty} {ch : UInt8}

theorem enqueue_some (put : tty_enqueue t ch = some after) : tty_room after + 1 = tty_room t := by
  by_cases room : t.output.1.length + 1 < TTY_OUTPUT_BUF_SIZE
  · rw [tty_enqueue,dif_pos room,Option.some.injEq] at put
    subst put
    simp only [tty_room,length_append,length_singleton]
    omega
  rw [tty_enqueue,dif_neg room] at put
  nomatch put

theorem enqueue_none (full : tty_enqueue t ch = none) : t.output.1.length = TTY_OUTPUT_BUF_SIZE - 1 := by
  have within := t.output.2
  by_cases room : t.output.1.length + 1 < TTY_OUTPUT_BUF_SIZE
  · rw [tty_enqueue,dif_pos room] at full
    nomatch full
  · omega

theorem room_drain (budget : Nat) (t : Tty) : tty_room (tty_drain_output_limited_to budget t) = tty_room t := by
  have within := t.output.2
  simp only [tty_room,tty_drain_output_limited_to,length_drop]
  omega

/-- A character is put if there is room. -/
theorem tty_put_spec (c : Caller) (t : Tty) (ch : UInt8) :
    match tty_put c t ch with
    | .done after => tty_room after + 1 = tty_room t
    | .interrupted _ => c.signal = true
    | .waits _ => c.signal = false ∧ tty_room t = 0 := by
  simp only [tty_put]
  rcases first : tty_enqueue t ch with _ | after
  · cases signal : c.signal with
    | true => simp
    | false =>
      simp only [Bool.false_eq_true,if_false]
      rcases second : tty_enqueue (tty_drain_output_limited_to TTY_TX_DRAIN_BUDGET t) ch with _ | after
      · refine ⟨trivial,?_⟩
        have full := enqueue_none second
        have within := t.output.2
        simp only [tty_drain_output_limited_to,length_drop,TTY_TX_DRAIN_BUDGET,TTY_OUTPUT_BUF_SIZE] at full within
        simp only [tty_room,TTY_OUTPUT_BUF_SIZE]
        omega
      have put := enqueue_some second
      rw [room_drain] at put
      exact put
  · exact enqueue_some first

theorem tty_put_all_spec (c : Caller) (t : Tty) (chars : List UInt8) :
    match tty_put_all c t chars with
    | .done _ => chars.length ≤ tty_room t
    | .interrupted _ => c.signal = true
    | .waits _ => c.signal = false ∧ tty_room t < chars.length := by
  induction chars generalizing t with
  | nil => exact Nat.zero_le _
  | cons ch rest ih =>
    have first := tty_put_spec c t ch
    simp only [tty_put_all]
    grind

theorem tty_write_one (c : Caller) (t : Tty) (byte : UInt8) :
    (tty_write_to c t 0 [byte]).2.isSome =
      (decide ((tty_expand t.termios byte).length ≤ tty_room t) || c.signal) := by
  have all := tty_put_all_spec c t (tty_expand t.termios byte)
  simp only [tty_write_to]
  rcases put : tty_put_all c t (tty_expand t.termios byte) with after | after | after
  all_goals
    rw [put] at all
    dsimp only at all
    simp [all]

/-- The report for writing is right exactly in `WriteAgrees`. -/
theorem write_report (f : File) (c : Caller) (byte : UInt8) (value : UInt64) (reached : f.Reached) :
    (fd_write_ready f = true ↔ (sys_write f c byte value).isSome = true) ↔ WriteAgrees f c byte value := by
  obtain ⟨access,nonblock,object⟩ := f
  rcases writes : access.writes
  · simp [fd_write_ready,sys_write,WriteAgrees,writes]
  cases object with
  | pipe b =>
    obtain ⟨named,s,file,run,here,_⟩ := reached
    have tidy := (PipeRuns.sound_reachable run).tidy b here
    have flag := tidy.closed_read
    have readers := tidy.readers
    simp only [fd_write_ready,sys_write,WriteAgrees,writes,Bool.not_true,Bool.false_eq_true,if_false,true_and,
      Bool.and_eq_true,decide_eq_true_eq,pipe_write_one]
    by_cases broken : b.readers = 0
    · simp [broken]
    have open_still : b.closed_read = false := Bool.eq_false_iff.mpr fun closed => broken (flag.mp closed)
    have some_reader : 0 < b.readers := by omega
    by_cases room : b.ring.count < PIPE_BUF_SIZE
    · simp [broken,open_still,some_reader,room]
    · cases nonblock <;> simp [broken,room,some_reader,wait_isSome]
  | socket s =>
    simp only [fd_write_ready,sys_write,WriteAgrees,writes,Bool.not_true,Bool.false_eq_true,if_false,true_and,
      socket_write_one,armos_socket_write_ready]
    grind
  | eventfd e =>
    have within := e.within
    simp only [fd_write_ready,sys_write,WriteAgrees,writes,Bool.not_true,Bool.false_eq_true,if_false,true_and,
      eventfd_write_one,eventfd_write_ready]
    grind
  | tty t =>
    simp only [fd_write_ready,sys_write,WriteAgrees,writes,Bool.not_true,Bool.false_eq_true,if_false,true_and,
      tty_write_one]
    simp

/-! ### The reports -/

section
variable {files : Nat → Option File} {in_read in_write : Nat → Bool}

theorem scan_fd_out (scan : Scan) (fd : Nat) :
    (scan_fd files in_read in_write scan fd).out_read =
      (if in_read fd && (files fd).any fd_read_ready then fd :: scan.out_read else scan.out_read) ∧
    (scan_fd files in_read in_write scan fd).out_write =
      (if in_write fd && (files fd).any fd_write_ready then fd :: scan.out_write else scan.out_write) := by
  rcases file : files fd with _ | f
  · simp [scan_fd,file]
  simp only [scan_fd,file,Option.any_some]
  constructor
  · split_ifs <;> rfl
  · split_ifs <;> rfl

/-- A scan that adds the wanted descriptors to a set. -/
theorem mem_scanned {step : Scan → Nat → Scan} {out : Scan → List Nat} {wants : Nat → Bool}
    (one : ∀ scan fd, out (step scan fd) = if wants fd then fd :: out scan else out scan) (fds : List Nat) (scan : Scan)
    (fd : Nat) : fd ∈ out (fds.foldl step scan) ↔ fd ∈ out scan ∨ (fd ∈ fds ∧ wants fd = true) := by
  induction fds generalizing scan with
  | nil => simp
  | cons first rest ih =>
    rw [foldl_cons,ih,one]
    by_cases wanted : wants first = true
    · grind
    · grind

variable {fd : Nat} {f : File} {nfds : Nat}

theorem select_reports (here : files fd = some f) (asked : fd < nfds) (small : fd < MAX_FILES) :
    (in_read fd = true → (fd ∈ (select_scan files nfds in_read in_write).out_read ↔ fd_read_ready f = true)) ∧
    (in_write fd = true → (fd ∈ (select_scan files nfds in_read in_write).out_write ↔ fd_write_ready f = true)) := by
  have one := @scan_fd_out files in_read in_write
  have scanned : fd ∈ range (min nfds MAX_FILES) := mem_range.mpr (lt_min asked small)
  constructor
  · intro wanted
    rw [select_scan,mem_scanned fun scan fd => (one scan fd).1]
    simp [scanned,wanted,here]
  intro wanted
  rw [select_scan,mem_scanned fun scan fd => (one scan fd).2]
  simp [scanned,wanted,here]

theorem poll_reports (here : files fd = some f) (small : fd < MAX_FILES) (wants_in wants_out : Bool) :
    poll_scan files ⟨fd,wants_in,wants_out⟩ = ⟨wants_in && fd_read_ready f,wants_out && fd_write_ready f,false⟩ := by
  have not_negative : ¬ (fd : Int) < 0 := by omega
  have in_table : ¬ (MAX_FILES : Int) ≤ fd := by omega
  simp only [poll_scan,if_neg not_negative,if_neg in_table,Int.toNat_natCast,here]

end

/-- `poll` and `select` report exactly what a read or write would do, in the states of
    `ReadAgrees` and `WriteAgrees` only. -/
theorem reports_exact (files : Nat → Option File) (fd nfds : Nat) (f : File) (c : Caller) (byte : UInt8) (value : UInt64)
    (here : files fd = some f) (asked : fd < nfds) (small : fd < MAX_FILES) (reached : f.Reached) :
    ((((poll_scan files ⟨fd,true,true⟩).POLLIN = true ↔ (sys_read f c).isSome = true) ∧
      (fd ∈ (select_scan files nfds (fun _ => true) (fun _ => true)).out_read ↔ (sys_read f c).isSome = true)) ↔
        ReadAgrees f c) ∧
    ((((poll_scan files ⟨fd,true,true⟩).POLLOUT = true ↔ (sys_write f c byte value).isSome = true) ∧
      (fd ∈ (select_scan files nfds (fun _ => true) (fun _ => true)).out_write ↔
        (sys_write f c byte value).isSome = true)) ↔ WriteAgrees f c byte value) := by
  obtain ⟨readable,writable⟩ := @select_reports files (fun _ => true) (fun _ => true) fd f nfds here asked small
  rw [poll_reports here small,readable rfl,writable rfl,Bool.true_and,Bool.true_and,and_self_iff,and_self_iff]
  exact ⟨read_report f c reached,write_report f c byte value reached⟩

/-- The pipe of a `sys_pipe` call whose reader has gone. -/
def widowed : Pipes.System := (Pipes.System.first false).closed 0 .O_RDONLY Pipes.sys_pipe
theorem widowed_reached : Runs.Reachable Pipes.Step (Pipes.System.first false) widowed :=
  .single (.close mem_cons_self rfl nofun nofun)

/-- Neither call reports the write end of a pipe without readers. -/
theorem broken_pipe_not_reported :
    ∃ (b : PipeBuffer) (f : File) (files : Nat → Option File) (c : Caller),
      f = ⟨.O_WRONLY,false,.pipe b⟩ ∧ f.Reached ∧ files 3 = some f ∧
      sys_write f c 0 0 = some (.error .EPIPE) ∧ (poll_scan files ⟨3,true,true⟩).POLLOUT = false ∧
      3 ∉ (select_scan files 4 (fun _ => true) (fun _ => true)).out_write := by
  let b := (Pipes.pipe_close .O_RDONLY Pipes.sys_pipe).1
  let f : File := ⟨.O_WRONLY,false,.pipe b⟩
  refine ⟨b,f,fun fd => if fd = 3 then some f else none,⟨false,false⟩,rfl,?_,rfl,rfl,rfl,by decide⟩
  exact ⟨false,widowed,1,widowed_reached,rfl,mem_cons_self⟩

/-- An eventfd that counts is reported, and a read returns. -/
theorem reports_exact_eventfd : let f : File := ⟨.O_RDWR,false,.eventfd ⟨1,false,by decide⟩⟩
    ReadAgrees f ⟨false,false⟩ ∧ ((poll_scan (fun _ => some f) ⟨3,true,true⟩).POLLIN = true ↔
      (sys_read f ⟨false,false⟩).isSome = true) := by
  intro f
  have agrees : ReadAgrees f ⟨false,false⟩ := ⟨rfl,.inl (by decide)⟩
  have exact_report := (reports_exact (fun _ => some f) 3 4 f ⟨false,false⟩ 0 0 rfl (by decide) (by decide) trivial).1
  exact ⟨agrees,(exact_report.mpr agrees).1⟩

end ArmOS.Readiness

