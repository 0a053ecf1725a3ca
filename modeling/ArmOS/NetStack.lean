import ArmOS.Packets
import ArmOS.Runs
import ArmOS.Tcp

/-!
The receiving side of `kernel/net/stack.c` and the transport parsers of
`kernel/net/socket.c`. Every read of a frame and every copy into a buffer, a reply
or a socket is checked against its bounds.
-/
namespace ArmOS.NetStack
open Guarded Packets Tcp
open Words (wrap32)

def NET_ETH_HEADER_SIZE : Nat := 14
def NET_ETH_FRAME_MAX : Nat := 1514
def NET_ETH_TYPE_IPV4 : Nat := 0x0800
def NET_ETH_TYPE_ARP : Nat := 0x0806
def NET_ARP_HTYPE_ETHERNET : Nat := 1
def NET_ARP_REQUEST : Nat := 1
def NET_ARP_TIMEOUT_MS : Nat := 1000
def NET_WAIT_POLL_MS : Nat := 10
def NET_UDP_RX_SIZE : Nat := 2048

def IPV4_SIZE : Nat := 20
def UDP_SIZE : Nat := 8
def TCP_SIZE : Nat := 20
structure Config where
  (address netmask gateway dns dhcp_server lease_seconds : Nat)
  (configured dhcp : Bool)
deriving DecidableEq, Repr
def Config.zero : Config := ⟨0,0,0,0,0,0,false,false⟩
inductive DhcpState where
  | IDLE | WAIT_OFFER | HAVE_OFFER | WAIT_ACK | BOUND | FAILED
deriving DecidableEq, Repr

/-- What received frames use of `net_interface_t`. -/
structure Interface where
  device : Nat
  mac : List UInt8
  config : Config
  dhcp_xid : Nat
  dhcp_state : DhcpState
  offer : Config
  (offered_address arp_address : Nat)
  arp_mac : List UInt8
  (arp_valid ping_pending ping_received : Bool)
  (ping_address ping_identifier ping_sequence ping_ttl ping_started_ms ping_elapsed_ms : Nat)

inductive DnsError where
  | ENOENT
deriving DecidableEq, Repr
structure Dns where
  (active complete : Bool)
  (identifier port result : Nat)
  error : Option DnsError

/-- Interfaces, sockets, the pending query, frames sent. -/
structure State where
  interfaces : List Interface
  sockets : List Socket
  dns : Dns
  sent : List (Nat × List UInt8)

/-- What a round of `net_wait_for_arp` sees. -/
structure Round where
  now : Nat
  answer : Option (List UInt8)
  interrupted : Bool

/-- What the driver does with a frame. `cyw43_device_transmit` polls while its window is
    closed, and what it polls enters `net_stack_receive` on the same stack. -/
inductive Driver where
  | sends | refuses | polls

/-- The time, the driver, memory for a socket, and the rounds of a wait. -/
structure World where
  now : Nat
  driver : Driver
  memory : Option Nat
  rounds : List Round

def net_interface_for_device (s : State) (device : Nat) : Option Interface :=
  s.interfaces.find? fun interface => interface.device = device
def State.put (s : State) (interface : Interface) : State :=
  { s with
    interfaces := s.interfaces.map fun other => if other.device = interface.device then interface else other }

/-! ### Sending -/

/-- `net_device_transmit`, with whether the frame was sent. -/
def net_device_transmit (w : World) (s : State) (device : Nat) (frame : List UInt8) : Checked (State × Bool) :=
  match w.driver with
  | .sends => .ok ({ s with sent := s.sent ++ [(device,frame)] },true)
  | .refuses => .ok (s,false)
  | .polls => .error .nested

def net_send_arp (w : World) (s : State) (interface : Interface) (operation : Nat) (destination target_mac : List UInt8)
    (target_ip : Nat) : Checked (State × Bool) :=
  net_device_transmit w s interface.device (destination ++ interface.mac ++ be16_bytes NET_ETH_TYPE_ARP ++
    be16_bytes NET_ARP_HTYPE_ETHERNET ++ be16_bytes NET_ETH_TYPE_IPV4 ++ [6,4] ++ be16_bytes operation ++
    interface.mac ++ net_ip_to_bytes interface.config.address ++ target_mac ++ net_ip_to_bytes target_ip)

def net_send_arp_request (w : World) (s : State) (interface : Interface) (address : Nat) : Checked (State × Bool) :=
  net_send_arp w s interface NET_ARP_REQUEST (List.replicate 6 0xff) (List.replicate 6 0) address

/-- The header of `net_send_ipv4` with a checksum. -/
def ipv4_header (w : World) (source destination protocol length checksum : Nat) : List UInt8 :=
  [0x45,0] ++ be16_bytes (IPV4_SIZE + length) ++ be16_bytes w.now ++ be16_bytes 0x4000 ++
    [64,UInt8.ofNat protocol] ++ be16_bytes checksum ++ net_ip_to_bytes source ++ net_ip_to_bytes destination

def net_send_ipv4 (w : World) (s : State) (interface : Interface) (destination_mac : List UInt8)
    (source destination protocol : Nat) (payload : List UInt8) : Checked State :=
  if NET_ETH_HEADER_SIZE + IPV4_SIZE + payload.length > NET_ETH_FRAME_MAX then .ok s
  else do
    let checksum ← net_checksum (Span.of (ipv4_header w source destination protocol payload.length 0)) 0 IPV4_SIZE
    let payload ← fill NET_ETH_FRAME_MAX (NET_ETH_HEADER_SIZE + IPV4_SIZE) payload
    let (s,_) ← net_device_transmit w s interface.device (destination_mac ++ interface.mac ++
      be16_bytes NET_ETH_TYPE_IPV4 ++ ipv4_header w source destination protocol payload.length checksum ++ payload)
    .ok s

/-- The loop of `net_wait_for_arp`. A sleep whose deadline is the tick 0 has none, so it
    goes on for ever. -/
def arp_rounds (start : Nat) : List Round → Checked (Option (List UInt8))
  | [] => .error .stuck
  | round :: rounds =>
    if NET_ARP_TIMEOUT_MS ≤ distance round.now start then .ok none
    else
      match round.answer with
      | some mac => .ok (some mac)
      | none =>
        if round.interrupted then .ok none
        else if wrap32 (round.now + NET_WAIT_POLL_MS) = 0 then .error .stuck
        else arp_rounds start rounds

def net_wait_for_arp (w : World) (s : State) (interface : Interface) (address : Nat) :
    Checked (State × Option (List UInt8)) :=
  if interface.arp_valid && interface.arp_address = address then .ok (s,some interface.arp_mac)
  else do
    let (s,sent) ← net_send_arp_request w (s.put { interface with arp_valid := false }) interface address
    if sent then
      let mac ← arp_rounds w.now w.rounds
      .ok (s,mac)
    else .ok (s,none)

/-- The next hop: the destination, or the gateway. -/
def next_hop (config : Config) (destination : Nat) : Nat :=
  if destination &&& config.netmask != config.address &&& config.netmask then config.gateway else destination

def net_stack_send_ipv4 (w : World) (s : State) (device destination protocol : Nat) (payload : List UInt8) : Checked State :=
  match net_interface_for_device s device with
  | none => .ok s
  | some interface =>
    if !interface.config.configured then .ok s
    else if payload.length = 0 then .ok s
    else if next_hop interface.config destination = 0 then .ok s
    else do
      let (s,mac) ← net_wait_for_arp w s interface (next_hop interface.config destination)
      match mac with
      | none => .ok s
      | some mac => net_send_ipv4 w s interface mac interface.config.address destination protocol payload

/-- The query is complete, with a result or without. -/
def Dns.completes (dns : Dns) : Option Nat → Dns
  | some result => { dns with result, error := none, complete := true }
  | none => { dns with error := some .ENOENT, complete := true }

/-- The bytes and the sender of a datagram, in the receive buffer. -/
def udp_store (socket : Socket) (source source_port : Nat) (data : List UInt8) : Checked Socket := do
  let filled ← socket.put data
  .ok { filled with udp_source_address := source, udp_source_port := source_port }

section
variable {w : World} {s : State} {interface : Interface} {frame : Span} {payload length : Nat}

variable {ip : Nat}

variable {options : Nat}

variable {message : Nat}

end

open Runs

structure Datagram where
  (source source_port : Nat)
  data : List UInt8
  deriving DecidableEq

/-- What `net_udp_receive` does to the socket it stops at. -/
def udp_queue (socket : Socket) (d : Datagram) : Socket :=
  if socket.rx.length = 0 then
    (udp_store socket d.source d.source_port (d.data.take NET_UDP_RX_SIZE)).toOption.getD socket
  else socket

/-- An empty buffer has room for a datagram. -/
theorem udp_queue_empty {socket : Socket} (empty : socket.rx = []) (d : Datagram) : ∃ fits, udp_queue socket d =
    { socket with
      rx := d.data.take NET_UDP_RX_SIZE, udp_source_address := d.source, udp_source_port := d.source_port,
      fits := fits } := by
  have short := (List.length_take_le NET_UDP_RX_SIZE d.data).trans (by decide : NET_UDP_RX_SIZE ≤ NET_TCP_RX_SIZE)
  have room : (d.data.take NET_UDP_RX_SIZE).length ≤ NET_TCP_RX_SIZE - socket.rx.length := by simpa [empty] using short
  obtain ⟨_,put,_,rfl⟩ := put_safe room
  refine ⟨short,?_⟩
  simp [udp_queue,udp_store,put,empty,Except.toOption,bind,Except.bind]

/-- A socket, the datagrams that came to it, and those its receives reported. -/
structure Receiver where
  socket : Socket
  (arrived received : List Datagram)

/-- A datagram comes, or a `sys_recvfrom` ends; `sys_recvfrom` looks up the sender when
    it has copied the bytes, and more may have come between. -/
inductive Arrival
  | datagram (d : Datagram)
  | sys_recvfrom (length : Nat) (between : List Datagram)

def receiver_step (r : Receiver) : Arrival → Option Receiver
  | .datagram d => some { r with socket := udp_queue r.socket d, arrived := r.arrived ++ [d] }
  | .sys_recvfrom length between =>
    match net_socket_read length r.socket with
    | (socket,some (.ok bytes)) =>
      let socket := between.foldl udp_queue socket
      some ⟨socket,r.arrived ++ between,r.received ++ [⟨socket.udp_source_address,socket.udp_source_port,bytes⟩]⟩
    | _ => none

/-- Datagrams have data, receives take all of one, and none comes before the sender is
    looked up. -/
def unhurried (r : Receiver) : Arrival → Bool
  | .datagram d => !d.data.isEmpty
  | .sys_recvfrom length between => r.socket.rx.length ≤ length && between.isEmpty

def Unhurried (r : Receiver) (a : Arrival) (next : Receiver) : Prop := receiver_step r a = some next ∧ unhurried r a = true

/-- The datagram in the buffer. -/
def waiting (socket : Socket) : List Datagram :=
  if socket.rx = [] then [] else [⟨socket.udp_source_address,socket.udp_source_port,socket.rx⟩]

def cut (d : Datagram) : Datagram := { d with data := d.data.take NET_UDP_RX_SIZE }

/-- Those not dropped have been received in order, but for the one in the buffer. -/
structure InTurn (r : Receiver) : Prop where
  live : r.socket.peer_closed = false ∧ r.socket.state ≠ .RESET
  order : (r.received ++ waiting r.socket).Sublist (r.arrived.map cut)

theorem InTurn.step {r next : Receiver} {a : Arrival} (turn : InTurn r) (taken : Unhurried r a next) : InTurn next := by
  obtain ⟨live,order⟩ := turn
  obtain ⟨taken,calm⟩ := taken
  cases a with
  | datagram d =>
    cases taken
    by_cases empty : r.socket.rx = []
    · obtain ⟨_,queued⟩ := udp_queue_empty empty d
      refine ⟨by simpa [queued] using live,?_⟩
      simp only [unhurried,Bool.not_eq_true',List.isEmpty_eq_false_iff] at calm
      simp only [waiting,empty,if_true,List.append_nil] at order
      simpa [queued,calm,waiting,cut,NET_UDP_RX_SIZE] using order
    · refine ⟨by simpa [udp_queue,empty] using live,?_⟩
      simpa [udp_queue,empty] using order.trans (List.sublist_append_left _ [cut d])
  | sys_recvfrom length between =>
    simp only [unhurried,Bool.and_eq_true,List.isEmpty_iff,decide_eq_true_eq] at calm
    obtain ⟨all,rfl⟩ := calm
    by_cases empty : r.socket.rx = []
    · simp [receiver_step,net_socket_read,empty,live] at taken
    simp [receiver_step,net_socket_read,take_bytes,empty,live,List.take_of_length_le all,List.drop_of_length_le all] at taken
    subst taken
    exact ⟨⟨rfl,live.2⟩,by simpa [waiting,empty] using order⟩

/-- If datagrams have data and receives are long enough and look up the sender in time, each
    receive gets one datagram that came with its sender, and they are received in order. -/
theorem datagrams_in_order (socket : Socket) (fresh : socket.rx = [] ∧ socket.peer_closed = false ∧ socket.state ≠ .RESET)
    (r : Receiver) (reached : Reachable Unhurried ⟨socket,[],[]⟩ r) :
    (r.received ++ waiting r.socket).Sublist (r.arrived.map cut) := by
  have first : InTurn ⟨socket,[],[]⟩ := ⟨fresh.2,by simp [waiting,fresh.1]⟩
  exact (reached.invariant (fun _ _ _ turn taken => turn.step taken) first).order

/-- A datagram socket as `sys_bind` leaves it. -/
def datagram_socket : Socket :=
  ⟨1,none,none,none,none,0,.BOUND,.DGRAM,0,0,false,false,false,none,0,0,7000,0,0,0,0,0,65535,[],0,0,Nat.zero_le _⟩

theorem datagrams_in_order_two : ∃ r, Reachable Unhurried ⟨datagram_socket,[],[]⟩ r ∧
    r.received = [⟨9,53,[1,2]⟩,⟨8,53,[3]⟩] ∧ (r.received ++ waiting r.socket).Sublist (r.arrived.map cut) := by
  have run : Run Unhurried ⟨datagram_socket,[],[]⟩
      [.datagram ⟨9,53,[1,2]⟩,.sys_recvfrom 8 [],.datagram ⟨8,53,[3]⟩,.sys_recvfrom 8 []] _ :=
    .next ⟨rfl,rfl⟩ (.next ⟨rfl,rfl⟩ (.next ⟨rfl,rfl⟩ (.next ⟨rfl,rfl⟩ (.done _))))
  exact ⟨_,⟨_,run⟩,rfl,datagrams_in_order _ (by decide) _ ⟨_,run⟩⟩

/-- The rest of a datagram comes with the next receive. -/
theorem datagram_divided : ∃ r, Reachable (fun r a next => receiver_step r a = some next) ⟨datagram_socket,[],[]⟩ r ∧
    r.arrived = [⟨9,53,[1,2]⟩] ∧ r.received = [⟨9,53,[1]⟩,⟨9,53,[2]⟩] := by
  have run : Run (fun r a next => receiver_step r a = some next) ⟨datagram_socket,[],[]⟩
      [.datagram ⟨9,53,[1,2]⟩,.sys_recvfrom 1 [],.sys_recvfrom 8 []] _ := .next rfl (.next rfl (.next rfl (.done _)))
  exact ⟨_,⟨_,run⟩,rfl,rfl⟩

end ArmOS.NetStack
