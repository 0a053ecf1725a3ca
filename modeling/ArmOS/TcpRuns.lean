import ArmOS.Runs
import ArmOS.Tcp

/-!
The receiving half of one TCP connection: segments arrive in any order and number,
with reads and the sending half in between. What reads return is held against the
peer's stream.
-/
namespace ArmOS.TcpRuns
open Guarded Runs Tcp List
open Words (wrap32)
open Prod (snd)

/-- A connection, bytes read, acknowledgements, and whether the `SYN` has come. -/
structure System where
  socket : Socket
  delivered : List UInt8
  acked : List Nat
  synced : Bool

inductive Label where
  | segment (now : Nat) (segment : Segment)
  | read (count : Nat)
  /-- `net_tcp_write` sends its next segment. -/
  | write (length : Nat)
  /-- `net_tcp_write` or `net_tcp_send_fin` sends once more. -/
  | resend
  | net_tcp_send_fin (now : Nat)
  /-- `sys_socket_shutdown` of the reading half. -/
  | shutdown_read
  /-- `net_tcp_write` ends the connection after its last try. -/
  | write_fails (error : Errno)
  /-- `sys_connect` ends it after its last try. -/
  | connect_fails (now : Nat) (error : Errno)

/-- The state with the receive position acknowledged. -/
def System.acknowledge (s : System) : System := { s with acked := s.acked ++ [s.socket.rcv_nxt] }

def step (s : System) : Label → Option System
  | .segment now segment =>
    if s.socket.state = .CLOSED then none
    else
      match connection_receive now s.socket segment with
      | .error _ => none
      | .ok (socket,reply,_) => some
        { s with
          socket
          acked := s.acked ++ (reply.map Prod.snd).toList
          synced := s.synced || (!has segment.flags NET_TCP_RST && opens s.socket segment) }
  | .read count =>
    match net_socket_read count s.socket with
    | (socket,some (.ok bytes)) => some { s with socket, delivered := s.delivered ++ bytes }
    | _ => none
  | .write length =>
    if s.socket.state = .SYN_SENT ∨ s.socket.state = .SYN_RECEIVED ∨ s.socket.state = .RESET then none
    else some (System.acknowledge { s with socket := { s.socket with snd_nxt := wrap32 (s.socket.snd_nxt + length) } })
  | .resend => some s.acknowledge
  | .net_tcp_send_fin now =>
    if s.socket.local_closed then none
    else some (System.acknowledge
      { s with
        socket :=
          { s.socket with
            snd_nxt := wrap32 (s.socket.snd_nxt + 1), local_closed := true, state := .FIN_WAIT, state_since := now } })
  | .shutdown_read => some { s with socket := { s.socket with peer_closed := true } }
  | .write_fails error => some { s with socket := { s.socket with error := some error, state := .RESET } }
  | .connect_fails now error =>
    some { s with socket := { s.socket with error := some error, state := .CLOSED, state_since := now } }

def Step (s : System) (l : Label) (t : System) : Prop := step s l = some t

/-- The bytes stored for the reader, with those read. -/
def System.stored (s : System) : List UInt8 := s.delivered ++ s.socket.rx

/-- An acknowledgement, a `SYN`, or a piece of the stream within 2³¹ bytes. -/
def peer (isn : Nat) (stream : List UInt8) (s : System) : Label → Prop
  | .segment _ segment =>
    (segment.data = [] ∧ has segment.flags NET_TCP_SYN = false ∧ has segment.flags NET_TCP_FIN = false) ∨
    ∃ start, segment.data <+: stream.drop start ∧
      (has segment.flags NET_TCP_SYN = true → start = 0) ∧
      segment.sequence = wrap32 (isn + start + (if has segment.flags NET_TCP_SYN then 0 else 1)) ∧
      (has segment.flags NET_TCP_FIN = true → start + segment.data.length = stream.length) ∧
      start ≤ stream.length ∧ segment.data.length < 2 ^ 16 ∧
      start < s.stored.length + 2 ^ 31 ∧ s.stored.length < start + 2 ^ 31
  | _ => True

/-- Data at the position fits, a `SYN` has no `FIN`, and before it nothing counts. -/
def careful (s : System) : Label → Prop
  | .segment _ segment =>
    (segment.data ≠ [] → segment.sequence = s.socket.rcv_nxt →
      segment.data.length ≤ NET_TCP_RX_SIZE - s.socket.rx.length) ∧
    (has segment.flags NET_TCP_SYN = true → has segment.flags NET_TCP_FIN = false) ∧
    (s.synced = false → opens s.socket segment = false → has segment.flags NET_TCP_RST = false →
      (segment.data = [] ∨ segment.sequence ≠ s.socket.rcv_nxt) ∧
      (has segment.flags NET_TCP_FIN = false ∨
        wrap32 (segment.sequence + segment.data.length) ≠ s.socket.rcv_nxt))
  | .write _ => s.synced = true
  | .resend => s.synced = true
  | .net_tcp_send_fin _ => s.synced = true
  | _ => True

instance (s : System) : (l : Label) → Decidable (careful s l)
  | .segment _ _ => inferInstanceAs (Decidable (_ ∧ _ ∧ _))
  | .write _ => inferInstanceAs (Decidable (_ = _))
  | .resend => inferInstanceAs (Decidable (_ = _))
  | .net_tcp_send_fin _ => inferInstanceAs (Decidable (_ = _))
  | .read _ => .isTrue trivial
  | .shutdown_read => .isTrue trivial
  | .write_fails _ => .isTrue trivial
  | .connect_fails _ _ => .isTrue trivial

def Careful (isn : Nat) (stream : List UInt8) (s : System) (l : Label) (t : System) : Prop :=
  Step s l t ∧ peer isn stream s l ∧ careful s l

/-- Nothing received; the `SYN` is to come or just taken. -/
structure First (isn : Nat) (s : System) : Prop where
  delivered : s.delivered = []
  acked : s.acked = []
  empty : s.socket.rx = []
  state : s.synced = false ∧ s.socket.state = .SYN_SENT ∨
    s.synced = true ∧ s.socket.state = .SYN_RECEIVED ∧ s.socket.rcv_nxt = wrap32 (isn + 1)

/-! ### What the connection has received -/

/-- What is stored begins the stream, the position is behind it, no more is acknowledged. -/
structure Sound (isn : Nat) (stream : List UInt8) (s : System) : Prop where
  unsynced : s.synced = false → s.stored = [] ∧ s.acked = []
  synced : s.synced = true → ∃ ended : Bool, s.stored <+: stream ∧ (ended = true → s.stored = stream) ∧
    s.socket.rcv_nxt = wrap32 (isn + 1 + s.stored.length + ended.toNat)
  acked : ∀ a ∈ s.acked, ∃ k, a = wrap32 (isn + 1 + k) ∧ stream.take k <+: s.stored
  open_early : s.socket.state = .SYN_SENT → s.synced = false

variable {isn : Nat} {stream : List UInt8} {s : System}

theorem Sound.position (sound : Sound isn stream s) (synced : s.synced = true) :
    ∃ k, s.socket.rcv_nxt = wrap32 (isn + 1 + k) ∧ stream.take k <+: s.stored := by
  obtain ⟨ended,inside,all,position⟩ := sound.synced synced
  refine ⟨s.stored.length + ended.toNat,by rw [position,add_assoc (isn + 1)],?_⟩
  cases ended with
  | true =>
    rw [all rfl]
    exact take_prefix _ _
  | false =>
    rw [Bool.toNat_false,add_zero,← prefix_iff_eq_take.mp inside]

variable {t : System}

/-- A step that leaves the receiver and acknowledges no more. -/
theorem Sound.keeps (sound : Sound isn stream s) (stored : t.stored = s.stored)
    (position : t.socket.rcv_nxt = s.socket.rcv_nxt) (synced : t.synced = s.synced)
    (acked : t.acked = s.acked ∨ s.synced = true ∧ t.acked = s.acked ++ [s.socket.rcv_nxt])
    (state : t.socket.state = .SYN_SENT → s.socket.state = .SYN_SENT) : Sound isn stream t where
  unsynced := fun early => by grind [unsynced]
  synced := fun late => by
    rw [stored,position]
    exact sound.synced (synced ▸ late)
  acked := fun a inside => by
    rw [stored]
    rcases acked with acked | ⟨late,acked⟩
    · exact sound.acked a (acked ▸ inside)
    rw [acked] at inside
    rcases mem_append.mp inside with inside | new
    · exact sound.acked a inside
    obtain rfl := mem_singleton.mp new
    exact sound.position late
  open_early := fun sent => by
    rw [synced]
    exact sound.open_early (state sent)

/-- A step that acknowledges a later position. -/
theorem Sound.advances (sound : Sound isn stream s) (synced : t.synced = true)
    (state : t.socket.state ≠ .SYN_SENT) (longer : s.stored <+: t.stored) (acked : t.acked = s.acked ++ [t.socket.rcv_nxt])
    {ended : Bool} (inside : t.stored <+: stream) (all : ended = true → t.stored = stream)
    (position : t.socket.rcv_nxt = wrap32 (isn + 1 + t.stored.length + ended.toNat)) : Sound isn stream t := by
  constructor
  · intro early
    rw [synced] at early
    cases early
  · exact fun _ => ⟨ended,inside,all,position⟩
  · intro a member
    rw [acked] at member
    rcases mem_append.mp member with before | new
    · obtain ⟨k,eq,stored⟩ := sound.acked a before
      exact ⟨k,eq,stored.trans longer⟩
    obtain rfl := mem_singleton.mp new
    refine ⟨t.stored.length + ended.toNat,by rw [position,add_assoc (isn + 1)],?_⟩
    cases ended with
    | true =>
      rw [all rfl]
      exact take_prefix _ _
    | false => rw [Bool.toNat_false,add_zero,← prefix_iff_eq_take.mp inside]
  · exact fun sent => absurd sent state

/-! ### What a segment does to the receiver -/

/-- Buffer and position after a segment's data, and whether it was taken. -/
def accept_data (segment : Segment) (rx : List UInt8) (position : Nat) : List UInt8 × Nat × Bool :=
  if segment.data ≠ [] ∧ segment.sequence = position then
    (rx ++ segment.data.take (NET_TCP_RX_SIZE - rx.length),wrap32 (position + segment.data.length),true)
  else (rx,position,false)

/-- The position after a segment's end, and whether it was taken. -/
def accept_fin (segment : Segment) (position : Nat) : Nat × Bool :=
  if has segment.flags NET_TCP_FIN = true ∧ wrap32 (segment.sequence + segment.data.length) = position then
    (wrap32 (position + 1),true)
  else (position,false)

theorem take_data_spec (socket : Socket) (reply : Option (Nat × Nat)) (segment : Segment) :
    Safe (take_data socket reply segment) fun result =>
      (accept_data segment socket.rx socket.rcv_nxt).1 = result.1.rx ∧
      (accept_data segment socket.rx socket.rcv_nxt).2.1 = result.1.rcv_nxt ∧
      result.2.map snd = (if (accept_data segment socket.rx socket.rcv_nxt).2.2 then some result.1.rcv_nxt
        else reply.map snd) ∧ result.1.state = socket.state := by
  have nonempty : segment.data ≠ [] ↔ segment.data.length ≠ 0 := by simp
  obtain ⟨result,eq,taken⟩ := take_data_safe socket reply segment
  refine ⟨result,eq,?_⟩
  grind [accept_data]

theorem take_fin_spec (now : Nat) (socket : Socket) (reply : Option (Nat × Nat)) (segment : Segment) :
    (take_fin now socket reply segment).1.rx = socket.rx ∧
      (accept_fin segment socket.rcv_nxt).1 = (take_fin now socket reply segment).1.rcv_nxt ∧
      (take_fin now socket reply segment).2.map snd =
        (if (accept_fin segment socket.rcv_nxt).2 then some (take_fin now socket reply segment).1.rcv_nxt
          else reply.map snd) ∧
      ((take_fin now socket reply segment).1.state = .SYN_SENT → socket.state = .SYN_SENT) := by
  unfold take_fin accept_fin
  by_cases ends : has segment.flags NET_TCP_FIN = true ∧ wrap32 (segment.sequence + segment.data.length) = socket.rcv_nxt
  · grind
  rw [if_neg (by simpa using ends),if_neg ends]
  exact ⟨rfl,rfl,rfl,id⟩

theorem handshake_spec (now : Nat) (socket : Socket) (segment : Segment) :
    ∃ next opened, handshake now socket segment =
        (next,if opens socket segment then some (next.snd_nxt,next.rcv_nxt) else none,opened) ∧
      next.rx = socket.rx ∧
      next.rcv_nxt = (if opens socket segment then wrap32 (segment.sequence + 1) else socket.rcv_nxt) ∧
      (next.state = .SYN_SENT → socket.state = .SYN_SENT ∧ opens socket segment = false) := by
  unfold handshake
  cases opening : opens socket segment with
  | true => exact ⟨_,_,rfl,rfl,rfl,by simp⟩
  | false =>
    rw [if_neg (by decide)]
    split
    · exact ⟨_,_,rfl,rfl,rfl,by simp⟩
    · exact ⟨_,_,rfl,rfl,rfl,fun sent => ⟨sent,rfl⟩⟩

/-- The position to compare with: behind the `SYN` where it opens. -/
def expected (socket : Socket) (segment : Segment) : Nat :=
  if opens socket segment then wrap32 (segment.sequence + 1) else socket.rcv_nxt

/-- A segment without `RST` acts as its data and end say. -/
theorem connection_receive_spec (now : Nat) (socket : Socket) (segment : Segment)
    (no_reset : has segment.flags NET_TCP_RST = false) :
    ∃ next reply opened, connection_receive now socket segment = .ok (next,reply,opened) ∧
      next.rx = (accept_data segment socket.rx (expected socket segment)).1 ∧
      next.rcv_nxt = (accept_fin segment (accept_data segment socket.rx (expected socket segment)).2.1).1 ∧
      reply.map snd = (if opens socket segment || (accept_data segment socket.rx (expected socket segment)).2.2 ||
          (accept_fin segment (accept_data segment socket.rx (expected socket segment)).2.1).2
        then some next.rcv_nxt else none) ∧
      (next.state = .SYN_SENT → socket.state = .SYN_SENT ∧ opens socket segment = false) := by
  obtain ⟨una,acknowledged⟩ := take_ack_eq { socket with peer_window := segment.window } segment
  obtain ⟨shaken,opened,eq,rx,position,state⟩ :=
    handshake_spec now { socket with peer_window := segment.window, snd_una := una } segment
  have same : opens { socket with peer_window := segment.window, snd_una := una } segment = opens socket segment := rfl
  rw [same] at eq position state
  have rx : shaken.rx = socket.rx := rx
  have position : shaken.rcv_nxt = expected socket segment := position
  obtain ⟨⟨filled,answer⟩,taken,data_rx,data_position,data_reply,data_state⟩ := take_data_spec shaken
    (if opens socket segment then some (shaken.snd_nxt,shaken.rcv_nxt) else none) segment
  obtain ⟨fin_rx,fin_position,fin_reply,fin_state⟩ := take_fin_spec now filled answer segment
  rw [rx,position] at data_rx data_position data_reply
  refine ⟨(take_fin now filled answer segment).1,(take_fin now filled answer segment).2,opened,?_,?_,?_,?_,?_⟩
  · unfold connection_receive
    dsimp only
    rw [no_reset,acknowledged,if_neg (by decide),eq]
    dsimp only
    rw [taken]
    rfl
  · rw [fin_rx,data_rx]
  · rw [data_position,fin_position]
  · rw [fin_reply,data_position,data_reply]
    -- Whatever answers last answers with the position that is reached.
    cases fin : (accept_fin segment filled.rcv_nxt).2 with
    | true => simp
    | false => grind [accept_data,accept_fin]
  · exact fun sent => state (data_state ▸ fin_state sent)

theorem wrap_inj {a b : Nat} (same : wrap32 a = wrap32 b) (above : a < b + 2 ^ 32) (below : b < a + 2 ^ 32) : a = b := by
  unfold wrap32 at same
  omega
theorem wrap_add (a b : Nat) : wrap32 (wrap32 a + b) = wrap32 (a + b) := by
  unfold wrap32
  omega

variable {segment : Segment}

theorem opens_syn {socket : Socket} (opening : opens socket segment = true) :
    socket.state = .SYN_SENT ∧ has segment.flags NET_TCP_SYN = true := by
  simp only [opens,Bool.and_eq_true,decide_eq_true_eq] at opening
  refine ⟨opening.1.1,?_⟩
  have part : segment.flags &&& NET_TCP_SYN = NET_TCP_SYN := by
    calc segment.flags &&& NET_TCP_SYN = segment.flags &&& ((NET_TCP_SYN ||| NET_TCP_ACK) &&& NET_TCP_SYN) := rfl
      _ = NET_TCP_SYN := by rw [← Nat.land_assoc,opening.1.2]; rfl
  rw [has,part]
  rfl

theorem accept_neither {rx : List UInt8} {position : Nat} (data : segment.data = [] ∨ segment.sequence ≠ position)
    (fin : has segment.flags NET_TCP_FIN = false ∨ wrap32 (segment.sequence + segment.data.length) ≠ position) :
    accept_data segment rx position = (rx,position,false) ∧ accept_fin segment position = (position,false) := by
  refine ⟨if_neg fun hit => ?_,if_neg fun hit => ?_⟩
  · rcases data with empty | other
    · exact hit.1 empty
    · exact other hit.2
  rcases fin with unset | other
  · rw [unset] at hit
    cases hit.1
  · exact other hit.2

section Segment
variable {now : Nat} {segment : Segment} {next : Socket} {reply : Option (Nat × Nat)}

/-- The state after a segment. -/
def System.receives (s : System) (segment : Segment) (next : Socket) (reply : Option (Nat × Nat)) : System :=
  { s with
    socket := next
    acked := s.acked ++ (reply.map Prod.snd).toList
    synced := s.synced || (!has segment.flags NET_TCP_RST && opens s.socket segment) }

/-- The opening segment leaves it behind the `SYN`. -/
theorem opens_sound (sound : Sound isn stream s) (sent : peer isn stream s (.segment now segment))
    (keeps : careful s (.segment now segment)) (no_reset : has segment.flags NET_TCP_RST = false)
    (opening : opens s.socket segment = true)
    (rx : next.rx = (accept_data segment s.socket.rx (expected s.socket segment)).1)
    (position : next.rcv_nxt =
      (accept_fin segment (accept_data segment s.socket.rx (expected s.socket segment)).2.1).1)
    (answer : reply.map snd = some next.rcv_nxt) (state : next.state ≠ .SYN_SENT) :
    Sound isn stream (s.receives segment next reply) := by
  obtain ⟨syn_sent,syn⟩ := opens_syn opening
  obtain ⟨stored,acked⟩ := sound.unsynced (sound.open_early syn_sent)
  have sequence : segment.sequence = wrap32 isn := by
    rcases sent with ⟨_,no_syn,_⟩ | ⟨start,_,zero,sequence,_⟩
    · rw [syn] at no_syn
      cases no_syn
    rw [sequence,zero syn,syn]
    rfl
  have here : expected s.socket segment = wrap32 (isn + 1) := by
    rw [expected,if_pos opening,sequence,wrap_add]
  have apart : segment.sequence ≠ wrap32 (isn + 1) := by
    rw [sequence]
    intro same
    have := wrap_inj same (by omega) (by omega)
    omega
  obtain ⟨data,fin⟩ := @accept_neither segment s.socket.rx (wrap32 (isn + 1)) (.inr apart) (.inl (keeps.2.1 syn))
  rw [here,data] at rx position
  dsimp only at rx position
  rw [fin] at position
  have empty : (s.receives segment next reply).stored = [] := by
    have same : (s.receives segment next reply).stored = s.stored := by
      simp [System.stored,System.receives,rx]
    rw [same,stored]
  refine @Sound.advances isn stream s _ sound ?_ state ?_ ?_ false ?_ nofun ?_
  · simp [System.receives,no_reset,opening]
  · rw [stored]
    exact nil_prefix
  · simp [System.receives,answer]
  · rw [empty]
    exact nil_prefix
  rw [empty]
  exact position

/-- Nothing comes behind the end of the stream. -/
theorem not_ended {stored : List UInt8} {ended : Bool} {reached : Nat} (all : ended = true → stored = stream)
    (meets : reached = stored.length + ended.toNat) (within : reached ≤ stream.length) : ended = false := by
  cases ended with
  | false => rfl
  | true =>
    have done := congrArg length (all rfl)
    rw [Bool.toNat_true] at meets
    omega

variable (sound : Sound isn stream s) (rx : next.rx = (accept_data segment s.socket.rx s.socket.rcv_nxt).1)
  (position : next.rcv_nxt = (accept_fin segment (accept_data segment s.socket.rx s.socket.rcv_nxt).2.1).1)
include sound rx position

theorem misses_sound (shut : opens s.socket segment = false)
    (data : segment.data = [] ∨ segment.sequence ≠ s.socket.rcv_nxt)
    (fin : has segment.flags NET_TCP_FIN = false ∨
      wrap32 (segment.sequence + segment.data.length) ≠ s.socket.rcv_nxt)
    (answer : reply.map snd = if (accept_data segment s.socket.rx s.socket.rcv_nxt).2.2 ||
      (accept_fin segment (accept_data segment s.socket.rx s.socket.rcv_nxt).2.1).2 then some next.rcv_nxt else none)
    (state : next.state = .SYN_SENT → s.socket.state = .SYN_SENT) :
    Sound isn stream (s.receives segment next reply) := by
  obtain ⟨no_data,no_fin⟩ := @accept_neither segment s.socket.rx s.socket.rcv_nxt data fin
  rw [no_data] at rx position answer
  dsimp only at rx position answer
  rw [no_fin] at position answer
  refine sound.keeps ?_ position ?_ (.inl ?_) state
  · simp [System.stored,System.receives,rx]
  · simp [System.receives,shut]
  · simp [System.receives,answer]

variable {start : Nat}

/-- A piece at the receive position is stored. -/
theorem data_sound (synced : s.synced = true) (inside : segment.data <+: stream.drop start)
    (sequence : segment.sequence = wrap32 (isn + start + 1))
    (fin : has segment.flags NET_TCP_FIN = true → start + segment.data.length = stream.length)
    (within : start ≤ stream.length) (near : start < s.stored.length + 2 ^ 31 ∧ s.stored.length < start + 2 ^ 31)
    (some_data : segment.data ≠ []) (hit : segment.sequence = s.socket.rcv_nxt)
    (fits : segment.data.length ≤ NET_TCP_RX_SIZE - s.socket.rx.length) (answer : reply.map snd = some next.rcv_nxt)
    (state : next.state ≠ .SYN_SENT) : Sound isn stream (s.receives segment next reply) := by
  obtain ⟨ended,stored,all,here⟩ := sound.synced synced
  have length := List.IsPrefix.length_le inside
  rw [length_drop] at length
  have positive : 0 < segment.data.length := length_pos_iff.mpr some_data
  have begun := List.IsPrefix.length_le stored
  have meets : start = s.stored.length + ended.toNat := by
    rw [sequence,here] at hit
    have small : ended.toNat ≤ 1 := Bool.toNat_le ended
    have := wrap_inj hit (by omega) (by omega)
    omega
  obtain rfl := not_ended all meets within
  rw [Bool.toNat_false,add_zero] at meets here
  have taken : accept_data segment s.socket.rx s.socket.rcv_nxt =
      (s.socket.rx ++ segment.data,wrap32 (s.socket.rcv_nxt + segment.data.length),true) := by
    unfold accept_data
    rw [if_pos ⟨some_data,hit⟩,take_of_length_le fits]
  rw [taken] at rx position
  dsimp only at rx position
  rw [here,wrap_add] at position
  have grown : (s.receives segment next reply).stored = s.stored ++ segment.data := by
    simp [System.stored,System.receives,rx]
  have reached : s.stored ++ segment.data <+: stream := by
    obtain ⟨rest,eq⟩ := inside
    refine ⟨rest,?_⟩
    have front : stream.take start = s.stored := by
      rw [meets]
      exact (prefix_iff_eq_take.mp stored).symm
    rw [append_assoc,eq,← front,take_append_drop]
  have longer : s.stored <+: (s.receives segment next reply).stored := by
    rw [grown]
    exact prefix_append _ _
  have late : (s.receives segment next reply).synced = true := by simp [System.receives,synced]
  have record : (s.receives segment next reply).acked = s.acked ++ [(s.receives segment next reply).socket.rcv_nxt] := by
    simp [System.receives,answer]
  cases ends : has segment.flags NET_TCP_FIN with
  | true =>
    have whole : s.stored ++ segment.data = stream := by
      refine List.IsPrefix.eq_of_length reached ?_
      rw [length_append]
      have := fin ends
      omega
    have final : accept_fin segment (wrap32 (isn + 1 + s.stored.length + segment.data.length)) =
        (wrap32 (wrap32 (isn + 1 + s.stored.length + segment.data.length) + 1),true) := by
      have hit : wrap32 (segment.sequence + segment.data.length) =
          wrap32 (isn + 1 + s.stored.length + segment.data.length) := by
        rw [sequence,wrap_add,meets,Nat.add_right_comm isn]
      exact if_pos ⟨ends,hit⟩
    rw [final] at position
    refine @Sound.advances isn stream s _ sound late state longer record true ?_ (fun _ => ?_) ?_
    · rw [grown]
      exact reached
    · rw [grown]
      exact whole
    · rw [grown,length_append,← add_assoc (isn + 1)]
      exact position.trans (wrap_add _ _)
  | false =>
    have unended : accept_fin segment (wrap32 (isn + 1 + s.stored.length + segment.data.length)) =
        (wrap32 (isn + 1 + s.stored.length + segment.data.length),false) := by
      unfold accept_fin
      rw [if_neg (by simp [ends])]
    rw [unended] at position
    refine @Sound.advances isn stream s _ sound late state longer record false ?_ nofun ?_
    · rw [grown]
      exact reached
    rw [grown,length_append,← add_assoc (isn + 1)]
    exact position

/-- The end of the stream is taken only behind all of it. -/
theorem fin_sound (synced : s.synced = true) (sequence : segment.sequence = wrap32 (isn + start + 1))
    (last : start + segment.data.length = stream.length) (short : segment.data.length < 2 ^ 16)
    (near : start < s.stored.length + 2 ^ 31 ∧ s.stored.length < start + 2 ^ 31)
    (ends : has segment.flags NET_TCP_FIN = true) (data : segment.data = [] ∨ segment.sequence ≠ s.socket.rcv_nxt)
    (hit : wrap32 (segment.sequence + segment.data.length) = s.socket.rcv_nxt)
    (answer : reply.map snd = some next.rcv_nxt) (state : next.state ≠ .SYN_SENT) :
    Sound isn stream (s.receives segment next reply) := by
  obtain ⟨ended,stored,all,here⟩ := sound.synced synced
  have begun := List.IsPrefix.length_le stored
  have meets : stream.length = s.stored.length + ended.toNat := by
    rw [sequence,here,wrap_add] at hit
    have small : ended.toNat ≤ 1 := Bool.toNat_le ended
    have := wrap_inj hit (by omega) (by omega)
    omega
  obtain rfl := not_ended all meets le_rfl
  rw [Bool.toNat_false,add_zero] at meets here
  have whole : s.stored = stream := List.IsPrefix.eq_of_length stored meets.symm
  have unmoved : accept_data segment s.socket.rx s.socket.rcv_nxt = (s.socket.rx,s.socket.rcv_nxt,false) := by
    unfold accept_data
    refine if_neg fun both => ?_
    rcases data with empty | other
    · exact both.1 empty
    · exact other both.2
  have final : accept_fin segment s.socket.rcv_nxt = (wrap32 (s.socket.rcv_nxt + 1),true) := by
    unfold accept_fin
    rw [if_pos ⟨ends,hit⟩]
  rw [unmoved] at rx position
  dsimp only at rx position
  rw [final] at position
  have same : (s.receives segment next reply).stored = s.stored := by simp [System.stored,System.receives,rx]
  refine @Sound.advances isn stream s _ sound ?_ state ?_ ?_ true ?_ (fun _ => ?_) ?_
  · simp [System.receives,synced]
  · rw [same]
  · simp [System.receives,answer]
  · rw [same]
    exact stored
  · rw [same,whole]
  rw [same]
  refine position.trans ?_
  rw [here,wrap_add]
  rfl

/-- A segment without `RST` after the peer's `SYN`. -/
theorem synced_sound (sent : peer isn stream s (.segment now segment))
    (keeps : careful s (.segment now segment)) (synced : s.synced = true) (shut : opens s.socket segment = false)
    (answer : reply.map snd = if (accept_data segment s.socket.rx s.socket.rcv_nxt).2.2 ||
      (accept_fin segment (accept_data segment s.socket.rx s.socket.rcv_nxt).2.1).2 then some next.rcv_nxt else none)
    (state : next.state ≠ .SYN_SENT) : Sound isn stream (s.receives segment next reply) := by
  have misses := @misses_sound isn stream s segment next reply sound rx position shut
  rcases sent with ⟨empty,_,unended⟩ | ⟨start,inside,zero,sequence,fin,within,short,near⟩
  · exact misses (.inl empty) (.inl unended) answer fun sent => absurd sent state
  obtain ⟨ended,_,_,here⟩ := sound.synced synced
  have small : ended.toNat ≤ 1 := Bool.toNat_le ended
  cases syn : has segment.flags NET_TCP_SYN with
  | true =>
    -- A second `SYN` lies behind the receive position, whatever it carries.
    have apart : segment.sequence ≠ s.socket.rcv_nxt := by
      rw [sequence,here,syn,if_pos rfl]
      intro same
      have := zero syn
      have := wrap_inj same (by omega) (by omega)
      omega
    exact misses (.inr apart) (.inl (keeps.2.1 syn)) answer fun sent => absurd sent state
  | false =>
    rw [syn,if_neg (by decide)] at sequence
    by_cases data : segment.data ≠ [] ∧ segment.sequence = s.socket.rcv_nxt
    · have taken : (accept_data segment s.socket.rx s.socket.rcv_nxt).2.2 = true := by
        unfold accept_data
        rw [if_pos data]
      rw [taken] at answer
      exact data_sound sound rx position synced inside sequence fin within near data.1 data.2 (keeps.1 data.1 data.2) answer
        state
    have data : segment.data = [] ∨ segment.sequence ≠ s.socket.rcv_nxt := by
      by_contra both
      exact data ⟨fun empty => both (.inl empty),by_contra fun other => both (.inr other)⟩
    by_cases ends : has segment.flags NET_TCP_FIN = true ∧
        wrap32 (segment.sequence + segment.data.length) = s.socket.rcv_nxt
    · have unmoved : accept_data segment s.socket.rx s.socket.rcv_nxt =
          (s.socket.rx,s.socket.rcv_nxt,false) := by
        unfold accept_data
        exact if_neg fun both => data.elim both.1 fun other => other both.2
      have taken : (accept_fin segment (accept_data segment s.socket.rx s.socket.rcv_nxt).2.1).2 = true := by
        rw [unmoved]
        unfold accept_fin
        rw [if_pos ends]
      rw [taken,Bool.or_true] at answer
      exact fin_sound sound rx position synced sequence (fin ends.1) short near ends.1 data ends.2 answer state
    · grind

end Segment

theorem segment_sound {now : Nat} (sound : Sound isn stream s)
    (taken : step s (.segment now segment) = some t) (sent : peer isn stream s (.segment now segment))
    (keeps : careful s (.segment now segment)) : Sound isn stream t := by
  unfold step at taken
  dsimp only at taken
  split at taken
  · cases taken
  cases reset : has segment.flags NET_TCP_RST with
  | true =>
    have dropped : connection_receive now s.socket segment = .ok
        ({ s.socket with peer_window := segment.window, error := some .ECONNRESET, state := .RESET },none,false) := by
      unfold connection_receive
      dsimp only
      rw [if_pos reset]
    rw [dropped] at taken
    cases taken
    refine sound.keeps rfl rfl ?_ (.inl ?_) nofun
    · simp [reset]
    · simp
  | false =>
    obtain ⟨next,reply,opened,received,rx,position,answer,state⟩ := connection_receive_spec now s.socket segment reset
    rw [received] at taken
    have target : s.receives segment next reply = t := Option.some.inj taken
    rw [← target]
    cases opening : opens s.socket segment with
    | true =>
      rw [opening,Bool.true_or,Bool.true_or,if_pos rfl] at answer
      refine opens_sound sound sent keeps reset opening rx position answer fun still => ?_
      rw [(state still).2] at opening
      cases opening
    | false =>
      have here : expected s.socket segment = s.socket.rcv_nxt := by simp [expected,opening]
      rw [here] at rx position answer
      rw [opening,Bool.false_or] at answer
      cases late : s.synced with
      | true =>
        refine synced_sound sound rx position sent keeps late opening answer fun still => ?_
        have early := sound.open_early (state still).1
        rw [late] at early
        cases early
      | false =>
        obtain ⟨data,fin⟩ := keeps.2.2 late opening reset
        exact misses_sound sound rx position opening data fin answer fun still => (state still).1

theorem read_sound {count : Nat} (sound : Sound isn stream s) (taken : step s (.read count) = some t) :
    Sound isn stream t := by
  have moved {socket : Socket} {bytes : List UInt8} (eq : net_socket_read count s.socket = (socket,some (.ok bytes))) :
      bytes ++ socket.rx = s.socket.rx ∧ socket.rcv_nxt = s.socket.rcv_nxt ∧ socket.state = s.socket.state := by
    unfold net_socket_read at eq
    split at eq
    · cases eq
    split at eq
    · cases eq
    split at eq
    · cases eq
      exact ⟨rfl,rfl,rfl⟩
    cases eq
    exact ⟨take_append_drop count _,rfl,rfl⟩
  unfold step at taken
  dsimp only at taken
  split at taken
  · rename_i socket bytes eq
    obtain ⟨all,position,state⟩ := moved eq
    cases taken
    refine sound.keeps ?_ position rfl (.inl rfl) fun still => state ▸ still
    simp [System.stored,all]
  · cases taken

theorem step_sound {l : Label} (sound : Sound isn stream s) (taken : Step s l t)
    (sent : peer isn stream s l) (keeps : careful s l) : Sound isn stream t := by
  cases l with
  | segment now segment => exact segment_sound sound taken sent keeps
  | read count => exact read_sound sound taken
  | write length =>
    unfold Step step at taken
    dsimp only at taken
    split at taken
    · cases taken
    · cases taken
      exact sound.keeps rfl rfl rfl (.inr ⟨keeps,rfl⟩) id
  | resend =>
    cases taken
    exact sound.keeps rfl rfl rfl (.inr ⟨keeps,rfl⟩) id
  | net_tcp_send_fin now =>
    unfold Step step at taken
    dsimp only at taken
    split at taken
    · cases taken
    · cases taken
      exact sound.keeps rfl rfl rfl (.inr ⟨keeps,rfl⟩) (by rintro ⟨⟩)
  | shutdown_read =>
    cases taken
    exact sound.keeps rfl rfl rfl (.inl rfl) id
  | write_fails error | connect_fails now error =>
    cases taken
    exact sound.keeps rfl rfl rfl (.inl rfl) (by simp)

theorem First.sound (first : First isn s) : Sound isn stream s := by
  have empty : s.stored = [] := by simp [System.stored,first.delivered,first.empty]
  constructor
  · exact fun _ => ⟨empty,first.acked⟩
  · intro synced
    rcases first.state with ⟨early,_⟩ | ⟨_,_,position⟩
    · rw [synced] at early
      cases early
    rw [empty]
    exact ⟨false, nil_prefix,nofun,position⟩
  · rw [first.acked]
    exact nofun
  intro sent
  rcases first.state with ⟨early,_⟩ | ⟨_,received,_⟩
  · exact early
  rw [received] at sent
  cases sent

/-- In careful runs reads return a beginning of the peer's stream, and acknowledged
    bytes have been stored. -/
theorem stream_received (isn : Nat) (stream : List UInt8) {first s : System} (begins : First isn first)
    (reached : Reachable (Careful isn stream) first s) :
    s.delivered <+: stream ∧
      ∀ a ∈ s.acked, ∃ k, a = wrap32 (isn + 1 + k) ∧ stream.take k <+: s.delivered ++ s.socket.rx := by
  have sound : Sound isn stream s := reached.invariant
    (fun s l t sound ⟨taken,sent,keeps⟩ => step_sound sound taken sent keeps) begins.sound
  refine ⟨?_,sound.acked⟩
  cases late : s.synced with
  | false =>
    have nothing : s.delivered = [] := (append_eq_nil_iff.mp (sound.unsynced late).1).1
    rw [nothing]
    exact nil_prefix
  | true =>
    obtain ⟨_,inside,_⟩ := sound.synced late
    exact (prefix_append _ _).trans inside

/-- A connection just taken, from a peer that starts at 0. -/
def taken_connection : System :=
  { socket := new_connection 0 1 1 2 3 first_syn 0, delivered := [], acked := [], synced := true }
theorem taken_connection_first : First 0 taken_connection := ⟨rfl,rfl,rfl,.inr ⟨rfl,rfl,rfl⟩⟩

/-- A segment at a position of the stream. -/
def piece (start : Fin 65536) (data : List UInt8) : Segment :=
  ⟨40000,80,start + 1,0x41524d01,NET_TCP_ACK,4096,data,by omega⟩

theorem peer_piece {start : Fin 65536} {data : List UInt8} (now : Nat)
    (inside : data <+: stream.drop start) (within : start ≤ stream.length) (short : data.length < 2 ^ 16)
    (few : s.stored.length < 2 ^ 31) : peer 0 stream s (.segment now (piece start data)) := by
  have no_syn : has (piece start data).flags NET_TCP_SYN = false := by
    show has NET_TCP_ACK NET_TCP_SYN = false
    decide
  have no_fin : has (piece start data).flags NET_TCP_FIN = false := by
    show has NET_TCP_ACK NET_TCP_FIN = false
    decide
  refine .inr ⟨start,inside,by simp [no_syn],?_,by simp [no_fin],within,short,?_,?_⟩
  · rw [no_syn,if_neg (by decide),zero_add,Words.wrap32_of_lt (by omega)]
    rfl
  · omega
  · omega

/-- Two bytes that arrive twice before they are read. -/
def repeated : List Label := [.segment 0 (piece 0 [7,8]),.segment 0 (piece 0 [7,8]),.read 2]

theorem stream_received_repeated : ∃ s, Reachable (Careful 0 [7,8,9]) taken_connection s ∧ s.delivered = [7,8] ∧
    s.delivered <+: [7,8,9] := by
  have found : ((repeated.foldlM (fun s l => if decide (careful s l ∧ s.stored.length < 2 ^ 31) then step s l else none)
      taken_connection).any fun s => s.delivered = [7,8]) = true := by decide +kernel
  obtain ⟨s,run,delivered⟩ := Run.ends_checked found
  have steps : Run (Careful 0 [7,8,9]) taken_connection repeated s := by
    refine run.widen_on fun l inside s t taken => ?_
    have checked : careful s l ∧ s.stored.length < 2 ^ 31 := by simpa using taken.2
    refine ⟨taken.1,?_,checked.1⟩
    have either : l = .segment 0 (piece 0 [7,8]) ∨ l = .read 2 := by simpa [repeated] using inside
    rcases either with rfl | rfl
    · exact peer_piece 0 (by decide) (by decide) (by decide) checked.2
    · trivial
  exact ⟨s,⟨_,steps⟩,by simpa using delivered,(stream_received 0 [7,8,9] taken_connection_first ⟨_,steps⟩).1⟩

/-- One byte more than the buffer holds, and one behind. -/
def long_stream : List UInt8 := List.replicate 8193 0 ++ [1]

theorem zeros_inside {k n : Nat} (room : k + n ≤ 8193) : List.replicate n 0 <+: long_stream.drop k := by
  refine ⟨List.replicate (8193 - k - n) 0 ++ [1],?_⟩
  rw [long_stream,drop_append_of_le_length (by rw [length_replicate]; omega),drop_replicate,← append_assoc,
    replicate_append_replicate,Nat.add_sub_cancel' (by omega)]

/-- Eight segments fill the buffer; a byte probes the closed window, and one comes after a read. -/
def overflow : List Label :=
  (List.finRange 8).map (fun i => .segment 0 (piece ⟨1024 * i,by omega⟩ (List.replicate 1024 0))) ++
    [.segment 0 (piece 8192 (List.replicate 1 0)),.read 8192,.segment 0 (piece 8193 [1]),.read 1]

/-- The byte of a probe that does not fit is acknowledged and dropped. -/
theorem dropped_byte_acknowledged : ∃ s,
    Run (fun s l t => Step s l t ∧ peer 0 long_stream s l) taken_connection overflow s ∧
      8194 ∈ s.acked ∧ ¬ s.delivered <+: long_stream := by
  have found : ((overflow.foldlM (fun s l => if decide (s.stored.length < 2 ^ 31) then step s l else none)
      taken_connection).any fun s => decide (8194 ∈ s.acked ∧ s.delivered[8192]? = some 1)) = true := by decide +kernel
  obtain ⟨s,run,holds⟩ := Run.ends_checked found
  have holds : 8194 ∈ s.acked ∧ s.delivered[8192]? = some 1 := by simpa using holds
  have length : long_stream.length = 8194 := by rw [long_stream,length_append,length_replicate,length_singleton]
  refine ⟨s,run.widen_on fun l inside s t taken => ⟨taken.1,?_⟩,holds.1,fun inside => ?_⟩
  · have few : s.stored.length < 2 ^ 31 := by simpa using taken.2
    have either : (∃ i : Fin 8, .segment 0 (piece ⟨1024 * i,by omega⟩ (List.replicate 1024 0)) = l) ∨
        l = .segment 0 (piece 8192 (List.replicate 1 0)) ∨ l = .read 8192 ∨ l = .segment 0 (piece 8193 [1]) ∨
        l = .read 1 := by
      simpa only [overflow,mem_append,mem_map,mem_finRange,true_and,mem_cons,not_mem_nil,or_false] using inside
    rcases either with ⟨i,rfl⟩ | rfl | rfl | rfl | rfl
    · refine peer_piece 0 (zeros_inside ?_) ?_ (by rw [length_replicate]; decide) few
      · show 1024 * i.val + 1024 ≤ 8193
        omega
      · show 1024 * i.val ≤ long_stream.length
        omega
    · exact peer_piece 0 (zeros_inside (by decide)) (length ▸ by decide) (by decide) few
    · trivial
    · refine peer_piece 0 ?_ (length ▸ by decide) (by decide) few
      show [1] <+: long_stream.drop 8193
      rw [long_stream,drop_left' length_replicate]
    · trivial
  have same : s.delivered[8192]? = long_stream[8192]? := by
    obtain ⟨rest,eq⟩ := inside
    rw [← eq,getElem?_append_left]
    exact (List.getElem?_eq_some_iff.mp holds.2).1
  rw [holds.2,long_stream,getElem?_append_left (by rw [length_replicate]; decide)] at same
  rw [getElem?_replicate_of_lt (by decide)] at same
  cases same

end ArmOS.TcpRuns

