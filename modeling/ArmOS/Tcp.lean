import ArmOS.Guarded
import ArmOS.Words
import Mathlib

/-!
The TCP half of `kernel/net/socket.c`: sockets, the lookup for a segment, and
`net_tcp_receive` after the header. A write past the receive buffer is a fault.
Sequence numbers wrap at 2³².
-/
namespace ArmOS.Tcp
open Guarded
open Words (wrap32)

def NET_TCP_FIN : Nat := 0x01
def NET_TCP_SYN : Nat := 0x02
def NET_TCP_RST : Nat := 0x04
def NET_TCP_ACK : Nat := 0x10
def NET_TCP_RX_SIZE : Nat := 8192
inductive SocketState where
  | CREATED | BOUND | LISTEN | SYN_SENT | SYN_RECEIVED | ESTABLISHED | CLOSE_WAIT | FIN_WAIT | CLOSED | RESET
deriving DecidableEq, Repr
inductive SocketType where
  | STREAM | DGRAM
deriving DecidableEq, Repr
inductive Errno where
  | ECONNRESET | ETIMEDOUT | EINTR | EIO
deriving DecidableEq, Repr

/-- `net_socket_t`; `id` is its address, `rx` the received bytes. -/
structure Socket where
  id : Nat
  accept_next : Option Nat
  accept_head : Option Nat
  accept_tail : Option Nat
  listener : Option Nat
  device : Nat
  state : SocketState
  type : SocketType
  (backlog pending_count : Nat)
  (accepted peer_closed local_closed : Bool)
  error : Option Errno
  (local_address remote_address local_port remote_port snd_una snd_nxt rcv_nxt state_since : Nat)
  peer_window : Nat
  rx : List UInt8
  (udp_source_address udp_source_port : Nat)
  fits : rx.length ≤ NET_TCP_RX_SIZE

structure Segment where
  (source_port destination_port sequence acknowledgement flags window : Nat)
  data : List UInt8
  narrow : sequence < 2 ^ 32
deriving DecidableEq, Repr

/-- What `net_tcp_emit_endpoint` is asked to send. -/
structure Reply where
  (device local_address local_port remote_address remote_port rx_length sequence : Nat)
  (acknowledgement flags : Nat)
deriving DecidableEq, Repr

/-- `(flags & bit) != 0`. -/
def has (flags bit : Nat) : Bool := flags &&& bit != 0

/-- `(uint32_t)(a - b)`. -/
def distance (a b : Nat) : Nat := wrap32 (a + (2 ^ 32 - b))

/-- `(int32_t)(a - b) > 0`. -/
def after (a b : Nat) : Bool := 0 < distance a b && distance a b < 2 ^ 31

/-- `(int32_t)(a - b) >= 0`. -/
def not_before (a b : Nat) : Bool := distance a b < 2 ^ 31

/-- `memcpy(socket->rx + socket->rx_length, …)`. -/
def Socket.put (socket : Socket) (bytes : List UInt8) : Checked Socket :=
  if fits : socket.rx.length + bytes.length ≤ NET_TCP_RX_SIZE then
    .ok { socket with rx := socket.rx ++ bytes, fits := by simpa using fits }
  else .error .write
def net_tcp_queue_payload_locked (socket : Socket) (payload : List UInt8) : Checked Socket :=
  socket.put (payload.take (NET_TCP_RX_SIZE - socket.rx.length))

def net_find_connection_locked (sockets : List Socket) (type : SocketType)
    (local_address local_port remote_address remote_port : Nat) : Option Socket :=
  sockets.find? fun socket =>
    socket.type = type && socket.local_port = local_port &&
      (socket.local_address = 0 || socket.local_address = local_address) &&
      socket.remote_address = remote_address && socket.remote_port = remote_port && socket.state != .CLOSED

def net_find_listener_locked (sockets : List Socket) (local_address local_port : Nat) : Option Socket :=
  sockets.find? fun socket =>
    socket.type = .STREAM && socket.state = .LISTEN && socket.local_port = local_port &&
      (socket.local_address = 0 || socket.local_address = local_address)

def take_ack (socket : Socket) (segment : Segment) : Socket :=
  if has segment.flags NET_TCP_ACK && after segment.acknowledgement socket.snd_una &&
      not_before socket.snd_nxt segment.acknowledgement then
    { socket with snd_una := segment.acknowledgement }
  else socket

/-- The segment answers the `SYN` of an active open. -/
def opens (socket : Socket) (segment : Segment) : Bool :=
  socket.state = .SYN_SENT && segment.flags &&& (NET_TCP_SYN ||| NET_TCP_ACK) = NET_TCP_SYN ||| NET_TCP_ACK &&
    segment.acknowledgement = socket.snd_nxt

/-- The segment answers the `SYN` of a passive open. -/
def confirms (socket : Socket) (segment : Segment) : Bool :=
  socket.state = .SYN_RECEIVED && has segment.flags NET_TCP_ACK && segment.acknowledgement = socket.snd_nxt

/-- The handshake, its reply, and whether to queue it. -/
def handshake (now : Nat) (socket : Socket) (segment : Segment) : Socket × Option (Nat × Nat) × Bool :=
  if opens socket segment then
    let socket :=
      { socket with
        rcv_nxt := wrap32 (segment.sequence + 1), snd_una := segment.acknowledgement, state := .ESTABLISHED
        state_since := now }
    (socket,some (socket.snd_nxt,socket.rcv_nxt),false)
  else if confirms socket segment then
    ({ socket with snd_una := segment.acknowledgement, state := .ESTABLISHED, state_since := now },none,true)
  else (socket,none,false)

/-- The data of a segment that starts at the receive position. -/
def take_data (socket : Socket) (reply : Option (Nat × Nat)) (segment : Segment) :
    Checked (Socket × Option (Nat × Nat)) :=
  if segment.data.length != 0 && segment.sequence = socket.rcv_nxt then do
    let queued ← net_tcp_queue_payload_locked socket segment.data
    let socket := { queued with rcv_nxt := wrap32 (queued.rcv_nxt + segment.data.length) }
    .ok (socket,some (socket.snd_nxt,socket.rcv_nxt))
  else .ok (socket,reply)

def take_fin (now : Nat) (socket : Socket) (reply : Option (Nat × Nat)) (segment : Segment) :
    Socket × Option (Nat × Nat) :=
  if has segment.flags NET_TCP_FIN && wrap32 (segment.sequence + segment.data.length) = socket.rcv_nxt then
    let socket :=
      { socket with
        rcv_nxt := wrap32 (socket.rcv_nxt + 1)
        peer_closed := true
        state := if socket.state = .ESTABLISHED then .CLOSE_WAIT
          else if socket.state = .FIN_WAIT then .CLOSED else socket.state
        state_since := now }
    (socket,some (socket.snd_nxt,socket.rcv_nxt))
  else (socket,reply)

/-- What a segment does to the connection that it is for. -/
def connection_receive (now : Nat) (socket : Socket) (segment : Segment) :
    Checked (Socket × Option (Nat × Nat) × Bool) :=
  let socket := { socket with peer_window := segment.window }
  if has segment.flags NET_TCP_RST then
    .ok ({ socket with error := some .ECONNRESET, state := .RESET },none,false)
  else do
    let (socket,reply,opened) := handshake now (take_ack socket segment) segment
    let (socket,reply) ← take_data socket reply segment
    let (socket,reply) := take_fin now socket reply segment
    .ok (socket,reply,opened)

/-- The reply of a connection, with the endpoint's addresses. -/
def Socket.answer (socket : Socket) (device : Nat) (reply : Nat × Nat) : Reply :=
  { device, local_address := socket.local_address, local_port := socket.local_port
    remote_address := socket.remote_address, remote_port := socket.remote_port, rx_length := socket.rx.length
    sequence := reply.1, acknowledgement := reply.2, flags := NET_TCP_ACK }
def replace (sockets : List Socket) (socket : Socket) : List Socket :=
  sockets.map fun other => if other.id = socket.id then socket else other
def find (sockets : List Socket) (id : Nat) : Option Socket := sockets.find? fun socket => socket.id = id

/-- A completed connection goes to its listener's queue. -/
def queue_accept (sockets : List Socket) (socket : Socket) : List Socket :=
  match socket.listener.bind (find sockets) with
  | none => sockets
  | some listener =>
    if !socket.accepted && decide (listener.pending_count < listener.backlog) then
      let sockets :=
        match listener.accept_tail.bind (find sockets) with
        | some tail => replace sockets { tail with accept_next := some socket.id }
        | none => sockets
      replace sockets
        { listener with
          accept_head := if listener.accept_tail.isSome then listener.accept_head else some socket.id
          accept_tail := some socket.id
          pending_count := (listener.pending_count + 1) % 256 }
    else sockets

def net_tcp_reset_closed (device source source_port destination destination_port : Nat) (segment : Segment) :
    Option Reply :=
  if has segment.flags NET_TCP_RST then none
  else if has segment.flags NET_TCP_ACK then
    some
      { device, local_address := destination, local_port := destination_port, remote_address := source
        remote_port := source_port, rx_length := 0, sequence := segment.acknowledgement, acknowledgement := 0
        flags := NET_TCP_RST }
  else
    some
      { device, local_address := destination, local_port := destination_port, remote_address := source
        remote_port := source_port, rx_length := 0, sequence := 0
        acknowledgement := wrap32 (segment.sequence + segment.data.length +
          (if has segment.flags NET_TCP_SYN then 1 else 0) + (if has segment.flags NET_TCP_FIN then 1 else 0))
        flags := NET_TCP_RST ||| NET_TCP_ACK }

def new_connection (now id device source destination : Nat) (segment : Segment) (listener : Nat) : Socket :=
  { id, accept_next := none, accept_head := none, accept_tail := none, listener := some listener, device
    state := .SYN_RECEIVED, type := .STREAM, backlog := 0, pending_count := 0, accepted := false, peer_closed := false
    local_closed := false, error := none, local_address := destination, remote_address := source
    local_port := segment.destination_port, remote_port := segment.source_port, snd_una := 0x41524d00 ^^^ now
    snd_nxt := wrap32 ((0x41524d00 ^^^ now) + 1), rcv_nxt := wrap32 (segment.sequence + 1), state_since := now
    peer_window := segment.window, rx := [], udp_source_address := 0, udp_source_port := 0, fits := Nat.zero_le _ }

/-- `net_tcp_receive` after the header; nothing comes between finding no connection and
    adding it. -/
def tcp_segment (now device source destination : Nat) (memory : Option Nat) (sockets : List Socket)
    (segment : Segment) : Checked (List Socket × Option Reply) :=
  match net_find_connection_locked sockets .STREAM destination segment.destination_port source segment.source_port with
  | some socket => do
    let (socket,reply,opened) ← connection_receive now socket segment
    let sockets := replace sockets socket
    .ok (if opened then queue_accept sockets socket else sockets,reply.map (socket.answer device))
  | none =>
    match net_find_listener_locked sockets destination segment.destination_port with
    | none =>
      .ok (sockets,net_tcp_reset_closed device source segment.source_port destination segment.destination_port segment)
    | some listener =>
      if !has segment.flags NET_TCP_SYN || decide (listener.pending_count ≥ listener.backlog) then
        .ok (sockets,net_tcp_reset_closed device source segment.source_port destination segment.destination_port segment)
      else
        match memory with
        | none => .ok (sockets,none)
        | some id =>
          let socket := new_connection now id device source destination segment listener.id
          .ok (socket :: sockets,some
            { socket.answer device (socket.snd_una,socket.rcv_nxt) with flags := NET_TCP_SYN ||| NET_TCP_ACK })

/-- The copying section of `net_socket_read`. -/
def take_bytes (socket : Socket) (count : Nat) : Socket × List UInt8 :=
  ({ socket with
     rx := socket.rx.drop count
     fits := by rw [List.length_drop]; exact (Nat.sub_le _ _).trans socket.fits },socket.rx.take count)

/-- A round of `net_socket_read`: nothing while it has to wait. -/
def net_socket_read (count : Nat) (socket : Socket) : Socket × Option (Except Errno (List UInt8)) :=
  if socket.rx.length = 0 ∧ !socket.peer_closed ∧ socket.state ≠ .RESET then (socket,none)
  else if socket.state = .RESET then (socket,some (.error (socket.error.getD .ECONNRESET)))
  else if socket.rx.length = 0 ∧ socket.peer_closed then (socket,some (.ok []))
  else
    let taken := take_bytes socket count
    (taken.1,some (.ok taken.2))

/-! ### No write leaves the receive buffer -/

variable {socket : Socket}

theorem put_safe {bytes : List UInt8} (room : bytes.length ≤ NET_TCP_RX_SIZE - socket.rx.length) :
    Safe (socket.put bytes) fun queued => ∃ fits, queued = { socket with rx := socket.rx ++ bytes, fits := fits } := by
  have fits : socket.rx.length + bytes.length ≤ NET_TCP_RX_SIZE := by
    have := socket.fits
    omega
  unfold Socket.put
  rw [dif_pos fits]
  exact .ok ⟨_,rfl⟩

theorem take_data_safe (socket : Socket) (reply : Option (Nat × Nat)) (segment : Segment) :
    Safe (take_data socket reply segment) fun result =>
      (¬ (segment.data.length ≠ 0 ∧ segment.sequence = socket.rcv_nxt) ∧ result = (socket,reply)) ∨
      ((segment.data.length ≠ 0 ∧ segment.sequence = socket.rcv_nxt) ∧ ∃ fits, result =
        ({ socket with
           rx := socket.rx ++ segment.data.take (NET_TCP_RX_SIZE - socket.rx.length)
           rcv_nxt := wrap32 (socket.rcv_nxt + segment.data.length)
           fits := fits },some (socket.snd_nxt,wrap32 (socket.rcv_nxt + segment.data.length)))) := by
  unfold take_data
  split
  · rename_i next
    have next : segment.data.length ≠ 0 ∧ segment.sequence = socket.rcv_nxt := by simpa using next
    refine (put_safe (List.length_take_le _ segment.data)).bind ?_
    rintro _ ⟨fits,rfl⟩
    exact .ok (.inr ⟨next,fits,rfl⟩)
  rename_i other
  have other : ¬ (segment.data.length ≠ 0 ∧ segment.sequence = socket.rcv_nxt) := by simpa using other
  exact .ok (.inl ⟨other,rfl⟩)

/-- A connection that has the peer's `SYN` and is not over. -/
def live (socket : Socket) : Bool :=
  socket.state = .SYN_RECEIVED || socket.state = .ESTABLISHED || socket.state = .CLOSE_WAIT || socket.state = .FIN_WAIT

/-- A `SYN`, data or `FIN` from before the receive position. -/
def retransmits (socket : Socket) (segment : Segment) : Bool :=
  !has segment.flags NET_TCP_RST &&
    (has segment.flags NET_TCP_SYN || segment.data.length != 0 || has segment.flags NET_TCP_FIN) &&
    !not_before segment.sequence socket.rcv_nxt

/-- What is sent acknowledges the receive position. -/
def answered (sockets : List Socket) (id : Nat) (reply : Option Reply) : Prop :=
  ∃ r socket, reply = some r ∧ find sockets id = some socket ∧ has r.flags NET_TCP_ACK = true ∧
    r.acknowledgement = socket.rcv_nxt
theorem distance_self {a : Nat} (narrow : a < 2 ^ 32) : distance a a = 0 := by
  unfold distance wrap32
  omega

theorem retransmits_other {segment : Segment} (again : retransmits socket segment = true) :
    segment.sequence ≠ socket.rcv_nxt ∧ has segment.flags NET_TCP_RST = false := by
  have parts : has segment.flags NET_TCP_RST = false ∧ not_before segment.sequence socket.rcv_nxt = false := by
    simp only [retransmits,Bool.and_eq_true,Bool.not_eq_true'] at again
    exact ⟨again.1.1,again.2⟩
  refine ⟨fun same => ?_,parts.1⟩
  have late := parts.2
  rw [← same,not_before,distance_self segment.narrow] at late
  exact absurd late (by decide)

theorem take_ack_eq (socket : Socket) (segment : Segment) :
    ∃ una, take_ack socket segment = { socket with snd_una := una } := by
  unfold take_ack
  split
  · exact ⟨_,rfl⟩
  · exact ⟨socket.snd_una,rfl⟩

/-- After the peer's `SYN` the handshake does nothing. -/
theorem handshake_live (now : Nat) (socket : Socket) (segment : Segment) (synced : socket.state ≠ .SYN_SENT) :
    ∃ next opened, handshake now socket segment = (next,none,opened) ∧ next.rcv_nxt = socket.rcv_nxt ∧
      next.id = socket.id := by
  have closed : opens socket segment = false := by simp [opens,synced]
  unfold handshake
  rw [closed,if_neg (by decide)]
  split
  · exact ⟨_,_,rfl,rfl,rfl⟩
  · exact ⟨_,_,rfl,rfl,rfl⟩

theorem find_replace (sockets : List Socket) (socket : Socket) (id : Nat) :
    find (replace sockets socket) id = if id = socket.id then (find sockets id).map
        (fun _ => socket) else find sockets id := by
  unfold find replace
  induction sockets with
  | nil => simp
  | cons other sockets ih => grind

theorem find_id {sockets : List Socket} {id : Nat} (found : find sockets id = some socket) :
    socket.id = id := by simpa using List.find?_some found

/-- The receive position of the socket with an identity. -/
def position (sockets : List Socket) (id : Nat) : Option Nat := (find sockets id).map Socket.rcv_nxt

theorem position_replace {sockets : List Socket} {socket old : Socket} {place : Nat} (here : socket.id = place)
    (found : find sockets place = some old) (same : socket.rcv_nxt = old.rcv_nxt) (id : Nat) :
    position (replace sockets socket) id = position sockets id := by
  unfold position
  rw [find_replace,here]
  split
  · rename_i wanted
    rw [wanted,found]
    simp [same]
  · rfl

theorem position_queue_accept (sockets : List Socket) (socket : Socket) (id : Nat) :
    position (queue_accept sockets socket) id = position sockets id := by
  unfold queue_accept
  split
  · rfl
  rename_i listener found
  obtain ⟨lid,_,found⟩ := Option.bind_eq_some_iff.mp found
  obtain rfl := find_id found
  split
  · dsimp only
    split
    · rename_i tail last
      obtain ⟨tid,_,last⟩ := Option.bind_eq_some_iff.mp last
      obtain rfl := find_id last
      have kept := @position_replace sockets { tail with accept_next := some socket.id } tail _ rfl last rfl
      -- The listener may be the tail of its own queue as far as the list can tell.
      obtain ⟨old,there,eq⟩ : ∃ old, find (replace sockets { tail with accept_next := some socket.id }) listener.id =
          some old ∧
          listener.rcv_nxt = old.rcv_nxt := by
        have same := kept listener.id
        unfold position at same
        rw [found] at same
        obtain ⟨old,there,eq⟩ := Option.map_eq_some_iff.mp same
        exact ⟨old,there,eq.symm⟩
      refine Eq.trans (position_replace ?_ there ?_ id) (kept id)
      · rfl
      · exact eq
    refine position_replace ?_ found ?_ id
    · rfl
    · rfl
  · rfl

theorem position_put_back {sockets : List Socket} {socket there : Socket} {id : Nat} (here : find sockets id = some there)
    (same : socket.id = id) (opened : Bool) :
    position (if opened then queue_accept (replace sockets socket) socket else replace sockets socket) id =
      some socket.rcv_nxt := by
  have replaced : position (replace sockets socket) id = some socket.rcv_nxt := by
    unfold position
    rw [find_replace,if_pos same.symm,here]
    rfl
  cases opened with
  | true => exact (position_queue_accept _ _ id).trans replaced
  | false => exact replaced

/-- A segment that comes again is answered exactly where it ends the stream there. -/
theorem duplicate_answered_iff (now device source destination : Nat) (memory : Option Nat) (sockets : List Socket)
    (segment : Segment) (socket : Socket)
    (found : net_find_connection_locked sockets .STREAM destination segment.destination_port source
      segment.source_port = some socket)
    (connected : live socket = true) (again : retransmits socket segment = true) :
    ∃ after reply, tcp_segment now device source destination memory sockets segment = .ok (after,reply) ∧
      (answered after socket.id reply ↔
        has segment.flags NET_TCP_FIN = true ∧ wrap32 (segment.sequence + segment.data.length) = socket.rcv_nxt) := by
  obtain ⟨other,no_reset⟩ := retransmits_other again
  have synced : socket.state ≠ .SYN_SENT := fun sent => by simp [live,sent] at connected
  obtain ⟨una,acknowledged⟩ := take_ack_eq { socket with peer_window := segment.window } segment
  obtain ⟨next,opened,shaken,kept,same⟩ :=
    handshake_live now { socket with peer_window := segment.window, snd_una := una } segment synced
  have skipped : take_data next none segment = .ok (next,none) := by
    unfold take_data
    rw [kept,if_neg (by simp [other])]
  have received : connection_receive now socket segment =
      .ok ((take_fin now next none segment).1,(take_fin now next none segment).2,opened) := by
    unfold connection_receive
    dsimp only
    rw [no_reset,acknowledged,shaken,if_neg (by decide)]
    dsimp only
    rw [skipped]
    rfl
  unfold tcp_segment
  rw [found]
  dsimp only
  rw [received]
  refine ⟨_,_,rfl,?_⟩
  have here : ∃ there, find sockets socket.id = some there := by
    refine Option.isSome_iff_exists.mp (List.find?_isSome.mpr ⟨socket,List.mem_of_find?_eq_some found,?_⟩)
    simp
  obtain ⟨there,here⟩ := here
  unfold take_fin
  rw [kept]
  split
  · rename_i ends
    have ends : has segment.flags NET_TCP_FIN = true ∧
        wrap32 (segment.sequence + segment.data.length) = socket.rcv_nxt := by simpa using ends
    refine iff_of_true ?_ ends
    obtain ⟨final,at_id,eq⟩ := Option.map_eq_some_iff.mp (@position_put_back sockets
      { next with
        rcv_nxt := wrap32 (socket.rcv_nxt + 1)
        peer_closed := true
        state := if next.state = .ESTABLISHED then .CLOSE_WAIT
          else if next.state = .FIN_WAIT then .CLOSED else next.state
        state_since := now } there socket.id here same opened)
    refine ⟨_,final,rfl,at_id,?_,eq.symm⟩
    show has NET_TCP_ACK NET_TCP_ACK = true
    decide
  rename_i open_still
  refine iff_of_false ?_ (by simpa using open_still)
  rintro ⟨r,_,sent,_⟩
  cases sent

/-- A connection at position 11, and its segments. -/
def established : Socket :=
  { new_connection 0 1 1 2 3 ⟨40000,80,0,0,NET_TCP_SYN,4096,[],by decide⟩ 0 with state := .ESTABLISHED, rcv_nxt := 11 }
def first_syn : Segment := ⟨40000,80,0,0,NET_TCP_SYN,4096,[],by decide⟩
def first_data : Segment := ⟨40000,80,1,0x41524d01,NET_TCP_ACK,4096,[0,1,2,3,4,5,6,7,8,9],by decide⟩
def last_fin : Segment := ⟨40000,80,11,0x41524d01,NET_TCP_ACK ||| NET_TCP_FIN,4096,[],by decide⟩

theorem duplicate_answered_iff_last : ∃ after reply, tcp_segment 0 1 2 3 none [established]
    { first_data with flags := NET_TCP_ACK ||| NET_TCP_FIN } = .ok (after,reply) ∧ answered after 1 reply := by
  obtain ⟨after,reply,received,answer⟩ := duplicate_answered_iff 0 1 2 3 none [established]
    { first_data with flags := NET_TCP_ACK ||| NET_TCP_FIN } established rfl rfl rfl
  exact ⟨after,reply,received,answer.mpr ⟨rfl,rfl⟩⟩

/-- The connection after the end of the stream. -/
def closing : Socket := { established with state := .CLOSE_WAIT, peer_closed := true, rcv_nxt := 12 }

/-- A `SYN`, data and a `FIN` that come again are not answered. -/
theorem duplicates_unanswered :
    (live established = true ∧ retransmits established first_syn = true ∧
      ∃ after, tcp_segment 0 1 2 3 none [established] first_syn = .ok (after,none)) ∧
    (retransmits established first_data = true ∧
      ∃ after, tcp_segment 0 1 2 3 none [established] first_data = .ok (after,none)) ∧
    live closing = true ∧ closing.peer_closed = true ∧ retransmits closing last_fin = true ∧
      ∃ after, tcp_segment 0 1 2 3 none [closing] last_fin = .ok (after,none) := by
  refine ⟨⟨by decide,by decide,?_⟩,⟨by decide,?_⟩,by decide,by decide,by decide,?_⟩
  · exact ⟨_,rfl⟩
  · exact ⟨_,rfl⟩
  · exact ⟨_,rfl⟩

end ArmOS.Tcp

