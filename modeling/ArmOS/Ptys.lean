import ArmOS.Endpoints

/-!
Pseudo-terminals. An entry of the table is used again after its master is closed,
and a descriptor of the slave keeps only its number. Every character carries the
master it belongs to, which is compared with the one on the other side where it is
read. Slaves take the lock for one character at a time; nothing is echoed.
-/
namespace ArmOS.Ptys
open Runs Function List Option
open Endpoints (Termios TTY_OUTPUT_BUF_SIZE TTY_TX_DRAIN_BUDGET ends_line tty_expand tty_handle_canonical_edit
  tty_input_queue tty_normalize_input_char)

abbrev PTY_COUNT : Nat := 8
def PTY_OUTPUT_SIZE : Nat := 4096
structure Byte where
  ch : UInt8
  master : Nat
  deriving DecidableEq, Repr

/-! ### The terminal of a slave -/

structure Terminal where
  termios : Termios
  input : List Byte
  eof_pending : Bool
  output : List Byte

def tty_init_termios : Termios where
  IGNCR := false
  ICRNL := true
  INLCR := false
  OPOST := true
  ONLCR := true
  ISIG := true
  ICANON := true
  ECHO := false
  VINTR := 0x03
  VSUSP := 0x1A
  VEOF := 0x04
  VERASE := 0x7F
  VKILL := 0x15
  VWERASE := 0x17
  VMIN := 1
  VTIME := 0

def tty_init_one : Terminal := ⟨tty_init_termios,[],false,[]⟩

/-- A terminal of zeros. -/
def zeroed : Terminal := ⟨⟨false,false,false,false,false,false,false,false,0,0,0,0,0,0,0,0⟩,[],false,[]⟩

def tty_input_char_to (t : Terminal) (received : Byte) : Terminal :=
  let queue := tty_input_queue Byte.ch (⟨·,received.master⟩) t.termios t.input t.eof_pending received.ch
  { t with input := queue.1, eof_pending := queue.2 }

/-! ### Pairs, masters and slaves -/

/-- An entry of `pty_pairs`, its listing, and its last master. -/
structure Pair where
  (used unlocked master_open registered : Bool)
  slave : Terminal
  output : List Byte
  master : Nat

/-- A file of a master, numbered by its place. -/
structure Master where
  index : Fin PTY_COUNT
  is_open : Bool

/-- A descriptor of a slave, with the master of its opening. -/
structure Slave where
  index : Fin PTY_COUNT
  master : Nat
  is_open : Bool

/-- A `tty_read_to` of a slave that has not returned. -/
structure Reader where
  index : Fin PTY_COUNT
  (master count read : Nat)

/-- A `tty_write_to`: the characters to go, its drain budget and whether it is the last. -/
structure Writer where
  index : Fin PTY_COUNT
  master : Nat
  rest : List UInt8
  draining : Nat
  last : Bool

/-- The `tty_drain_output_for_id` of a read of a master. -/
structure Drain where
  index : Fin PTY_COUNT
  budget : Nat
structure Delivery where
  (opened_under master : Nat)
  deriving DecidableEq, Repr

structure System where
  pairs : Fin PTY_COUNT → Pair
  masters : List Master
  slaves : List Slave
  readers : List (Option Reader)
  writers : List (Option Writer)
  drains : List (Option Drain)
  log : List Delivery

/-- `master_write` is one character; `stop_read` and `stop_write` are signals or timers. -/
inductive Label
  | open_master (memory : Bool)
  | set_lock (m : Nat) (locked : Bool)
  | close_master (m : Nat)
  | open_slave (i : Fin PTY_COUNT) (controlling : Bool)
  | close_slave (d : Nat)
  | set_termios (i : Fin PTY_COUNT) (tio : Termios) (flush_input : Bool)
  | master_write (m : Nat) (ch : UInt8)
  | master_read (m : Nat) (count : Nat)
  | drain (k : Nat)
  | slave_read (d : Nat) (count : Nat)
  | read_turn (k : Nat)
  | stop_read (k : Nat)
  | slave_write (d : Nat) (bytes : List UInt8)
  | write_turn (k : Nat)
  | stop_write (k : Nat)

def System.set_pair (s : System) (i : Fin PTY_COUNT) (p : Pair) : System :=
  { s with pairs := update s.pairs i p }

def pty_create_master_file (s : System) (memory : Bool) : System :=
  match (List.finRange PTY_COUNT).find? fun i => !(s.pairs i).used with
  | none => s
  | some i =>
    let registered := (s.pairs i).registered
    let created := !registered && memory
    let pair := {
      used := created
      unlocked := false
      master_open := true
      registered := registered || created
      slave := if registered then zeroed else tty_init_one
      output := []
      master := s.masters.length }
    { s.set_pair i pair with masters := s.masters ++ [⟨i,created⟩] }

def pty_master_close (s : System) (m : Nat) (file : Master) : System :=
  let p := s.pairs file.index
  { s.set_pair file.index { p with master_open := false, used := false, registered := false } with
    masters := s.masters.set m { file with is_open := false } }

/-- `pty_slave_tty_id` and `tty_check_open_for_id`. -/
def open_slave (s : System) (i : Fin PTY_COUNT) (controlling : Bool) : System :=
  let p := s.pairs i
  if (controlling || (p.used && p.unlocked)) && p.registered then
    { s with slaves := s.slaves ++ [⟨i,p.master,true⟩] }
  else s

def tty_set_termios_for_id (p : Pair) (tio : Termios) (flush_input : Bool) : Pair :=
  if p.registered then
    { p with
      slave := {
        termios := tio
        input := if flush_input then [] else p.slave.input
        eof_pending := if flush_input then false else p.slave.eof_pending
        output := p.slave.output } }
  else p

def pty_slave_putc (p : Pair) (b : Byte) : Option Pair :=
  if p.used && p.master_open && p.output.length + 1 < PTY_OUTPUT_SIZE then some { p with output := p.output ++ [b] }
  else none

/-- A turn of the loop of `tty_drain_output_limited_to`. -/
def drain_turn (p : Pair) : Option Pair :=
  match p.slave.output with
  | [] => none
  | b :: rest => pty_slave_putc { p with slave := { p.slave with output := rest } } b

/-- One character of `pty_master_write`. -/
def pty_master_write (p : Pair) (b : Byte) : Pair :=
  if p.used && p.registered then { p with slave := tty_input_char_to p.slave b } else p

def pty_master_read (s : System) (m count : Nat) (file : Master) : Option System :=
  let p := s.pairs file.index
  if p.output = [] then none
  else
    some { s.set_pair file.index { p with output := p.output.drop count } with
      log := s.log ++ (p.output.take count).map fun b => ⟨b.master,m⟩
      drains := if p.registered then s.drains ++ [some ⟨file.index,TTY_TX_DRAIN_BUDGET⟩] else s.drains }

def drain (s : System) (k : Nat) (job : Drain) : System :=
  match job.budget, drain_turn (s.pairs job.index) with
  | left + 1, some p => { s.set_pair job.index p with drains := s.drains.set k (some { job with budget := left }) }
  | _, _ => { s with drains := s.drains.set k none }

/-- The beginning of `tty_file_read`. -/
def slave_read (s : System) (v : Slave) (count : Nat) : System :=
  if v.is_open && 0 < count && (s.pairs v.index).registered then
    { s with readers := s.readers ++ [some ⟨v.index,v.master,count,0⟩] }
  else s

/-- Whether a read that has so many characters goes on after one. -/
def read_stops (tio : Termios) (read : Nat) (ch : UInt8) : Bool :=
  if tio.ICANON then ends_line ch else 0 < tio.VMIN.toNat && tio.VMIN.toNat ≤ read

/-- Whether a read returns from an empty queue. -/
def returns_empty (tio : Termios) (read : Nat) : Bool :=
  (0 < read && (tio.ICANON || tio.VMIN = 0 || tio.VMIN.toNat ≤ read)) || (!tio.ICANON && tio.VMIN = 0 && tio.VTIME = 0)

def read_turn (s : System) (k : Nat) (r : Reader) : Option System :=
  let p := s.pairs r.index
  let ended := s.readers.set k none
  match p.slave.input with
  | [] =>
    if p.slave.eof_pending then
      some { s.set_pair r.index { p with slave := { p.slave with eof_pending := false } } with readers := ended }
    else if returns_empty p.slave.termios r.read then some { s with readers := ended }
    else none
  | b :: rest =>
    let read := r.read + 1
    some { s.set_pair r.index { p with slave := { p.slave with input := rest } } with
      log := s.log ++ [⟨r.master,b.master⟩]
      readers :=
        if read_stops p.slave.termios read b.ch || read = r.count then ended
        else s.readers.set k (some { r with read := read }) }

/-- The last drain of a write begins with no characters left. -/
def Writer.settle (w : Writer) : Writer :=
  if w.rest = [] then { w with draining := TTY_OUTPUT_BUF_SIZE, last := true } else w

/-- The beginning of `tty_file_write`. -/
def slave_write (s : System) (v : Slave) (bytes : List UInt8) : System :=
  let p := s.pairs v.index
  if v.is_open && p.registered then
    let w : Writer := ⟨v.index,v.master,bytes.flatMap (tty_expand p.slave.termios),0,false⟩
    { s with writers := s.writers ++ [some w.settle] }
  else s

/-- A write whose drain has ended goes on, or returns. -/
def Writer.drained (w : Writer) : Option Writer := if w.last then none else some { w with draining := 0 }

/-- A write queues a character, or begins to drain. -/
def put_turn (s : System) (k : Nat) (w : Writer) (ch : UInt8) (rest : List UInt8) : System :=
  let p := s.pairs w.index
  if p.slave.output.length + 1 < TTY_OUTPUT_BUF_SIZE then
    let slave := { p.slave with output := p.slave.output ++ [⟨ch,w.master⟩] }
    { s.set_pair w.index { p with slave := slave } with
      writers := s.writers.set k (some { w with rest := rest }.settle) }
  else { s with writers := s.writers.set k (some { w with draining := TTY_TX_DRAIN_BUDGET }) }

def write_turn (s : System) (k : Nat) (w : Writer) : System :=
  match w.draining with
  | left + 1 =>
    match drain_turn (s.pairs w.index) with
    | none => { s with writers := s.writers.set k w.drained }
    | some p =>
      { s.set_pair w.index p with
        writers := s.writers.set k (if left = 0 then w.drained else some { w with draining := left }) }
  | 0 =>
    match w.rest with
    | [] => { s with writers := s.writers.set k none }
    | ch :: rest => put_turn s k w ch rest

def System.master (s : System) (m : Nat) : Option Master := s.masters[m]?.filter Master.is_open

def step (s : System) : Label → Option System
  | .open_master memory => some (pty_create_master_file s memory)
  | .set_lock m locked =>
    (s.master m).map fun file => s.set_pair file.index { s.pairs file.index with unlocked := !locked }
  | .close_master m => (s.master m).map (pty_master_close s m)
  | .open_slave i controlling => some (open_slave s i controlling)
  | .close_slave d => s.slaves[d]?.map fun v => { s with slaves := s.slaves.set d { v with is_open := false } }
  | .set_termios i tio flush_input => some (s.set_pair i (tty_set_termios_for_id (s.pairs i) tio flush_input))
  | .master_write m ch =>
    (s.master m).map fun file => s.set_pair file.index (pty_master_write (s.pairs file.index) ⟨ch,m⟩)
  | .master_read m count => (s.master m).bind (pty_master_read s m count)
  | .drain k => s.drains[k]?.join.map (drain s k)
  | .slave_read d count => s.slaves[d]?.map fun v => slave_read s v count
  | .read_turn k => s.readers[k]?.join.bind (read_turn s k)
  | .stop_read k =>
    s.readers[k]?.join.bind fun r =>
      if (s.pairs r.index).slave.input = [] then some { s with readers := s.readers.set k none } else none
  | .slave_write d bytes => s.slaves[d]?.map fun v => slave_write s v bytes
  | .write_turn k => s.writers[k]?.join.map (write_turn s k)
  | .stop_write k =>
    s.writers[k]?.join.bind fun w =>
      if w.draining = 0 ∧ w.rest ≠ [] then some { s with writers := s.writers.set k none } else none

def Step (s : System) (l : Label) (t : System) : Prop := step s l = some t
def first : System := ⟨fun _ => ⟨false,false,false,false,zeroed,[],0⟩,[],[],[],[],[],[]⟩

/-- A slave is used only before the next master of its number. -/
def orderly (s : System) : Label → Bool
  | .read_turn k => s.readers[k]?.join.all fun r => r.master = (s.pairs r.index).master
  | .write_turn k => s.writers[k]?.join.all fun w => 0 < w.draining || w.master = (s.pairs w.index).master
  | _ => true
def Careful (s : System) (l : Label) (t : System) : Prop := Step s l t ∧ orderly s l = true

/-! ### Isolation -/

/-- Everything queued belongs to the last master of the pair. -/
structure Pair.Pure (p : Pair) : Prop where
  input : ∀ b ∈ p.slave.input, b.master = p.master
  queued : ∀ b ∈ p.slave.output, b.master = p.master
  output : ∀ b ∈ p.output, b.master = p.master
structure Sound (s : System) : Prop where
  pure : ∀ i, (s.pairs i).Pure
  current : ∀ m file, s.master m = some file → (s.pairs file.index).used = true ∧ (s.pairs file.index).master = m
  isolated : ∀ x ∈ s.log, x.opened_under = x.master
open Ptys.System (set_pair master)

theorem Sound.init : Sound first where
  pure _ := ⟨by simp [first,zeroed],by simp [first,zeroed],by simp [first]⟩
  current m file there := by simp [first,master] at there
  isolated := by simp [first]

variable {s t : System}

/-- What happens to one pair, apart from its master's open and close. -/
theorem Sound.change (sound : Sound s) {i : Fin PTY_COUNT} {p : Pair} (pairs : t.pairs = update s.pairs i p)
    (masters : t.masters = s.masters) (pure : p.Pure) (used : p.used = (s.pairs i).used)
    (master : p.master = (s.pairs i).master) (log : ∀ x ∈ t.log, x ∈ s.log ∨ x.opened_under = x.master) : Sound t where
  pure j := by
    rw [pairs]
    grind [pure]
  current m file there := by
    rw [System.master,masters] at there
    have old := sound.current m file there
    rw [pairs]
    grind
  isolated x there := by
    rcases log x there with old | new
    · exact sound.isolated x old
    · exact new

theorem Sound.keep (sound : Sound s) (pairs : t.pairs = s.pairs) (masters : t.masters = s.masters)
    (log : t.log = s.log) : Sound t where
  pure i := by rw [pairs]; exact sound.pure i
  current m file there := by
    rw [master,masters] at there
    rw [pairs]
    exact sound.current m file there
  isolated := by rw [log]; exact sound.isolated

theorem input_char_mem {t : Terminal} {received b : Byte} (there : b ∈ (tty_input_char_to t received).input) :
    b ∈ t.input ∨ b.master = received.master := by
  simp only [tty_input_char_to,tty_input_queue] at there
  rcases normal : tty_normalize_input_char t.termios received.ch with _ | ch
  · rw [normal] at there
    exact .inl there
  rw [normal] at there
  dsimp only at there
  split at there
  · exact .inl there
  split at there
  · exact .inl there
  split at there
  · rename_i edited edit
    split at edit
    · have kept : edited ⊆ t.input := by
        unfold tty_handle_canonical_edit at edit
        split at edit
        · grind
        split at edit
        · cases edit
          exact ( rdropWhile_prefix _ _).subset
        split at edit
        · grind [ rdropWhile_prefix]
        · contradiction
      exact .inl (kept there)
    · contradiction
  · grind

theorem input_char_output (t : Terminal) (received : Byte) : (tty_input_char_to t received).output = t.output := rfl

theorem drain_turn_pure {p q : Pair} (pure : p.Pure) (turn : drain_turn p = some q) :
    q.Pure ∧ q.used = p.used ∧ q.master = p.master := by
  unfold drain_turn at turn
  rcases queue : p.slave.output with _ | ⟨b,rest⟩
  · rw [queue] at turn
    contradiction
  simp only [queue,pty_slave_putc,ite_none_right_eq_some,some.injEq] at turn
  obtain ⟨_,rfl⟩ := turn
  have queued := pure.queued
  rw [queue] at queued
  refine ⟨⟨pure.input,(forall_mem_cons.mp queued).2,fun c there => ?_⟩,rfl,rfl⟩
  exact forall_mem_append.mpr ⟨pure.output,forall_mem_singleton.mpr (queued b mem_cons_self)⟩ c there

section
variable (sound : Sound s)
include sound

theorem Sound.open_master (memory : Bool) : Sound (pty_create_master_file s memory) := by
  unfold pty_create_master_file
  rcases found : (List.finRange PTY_COUNT).find? fun i => !(s.pairs i).used with _ | i
  · exact sound
  have unused : (s.pairs i).used = false := by simpa using find?_some found
  exact {
    pure := by
      intro j
      by_cases same : j = i
      · subst same
        refine ⟨?_,?_,by simp [set_pair]⟩
        all_goals
          simp only [set_pair,update_self]
          split
          · simp [zeroed]
          · simp [tty_init_one]
      simp only [set_pair,update_of_ne same]
      exact sound.pure j
    current := by
      intro m file there
      simp only [master,filter_eq_some_iff] at there
      obtain ⟨there,is_open⟩ := there
      rcases lt_or_ge m s.masters.length with old | new
      · rw [getElem?_append_left old] at there
        have before := sound.current m file (by simp [master,there,is_open])
        have other : file.index ≠ i := by
          rintro rfl
          rw [unused] at before
          exact absurd before.1 Bool.false_ne_true
        simpa only [set_pair,update_of_ne other] using before
      rw [getElem?_append_right new] at there
      obtain ⟨rest,rfl⟩ := List.getElem?_eq_some_iff.mp there
      obtain rfl : m = s.masters.length := by
        have single : m - s.masters.length < 1 := rest
        omega
      simpa [set_pair] using is_open
    isolated := sound.isolated }

variable {file : Master}

theorem Sound.close_master {m : Nat} (there : s.master m = some file) : Sound (pty_master_close s m file) := by
  have pure := sound.pure file.index
  exact {
    pure := by
      intro j
      by_cases same : j = file.index
      · subst same
        simp only [pty_master_close,set_pair,update_self]
        exact ⟨pure.input,pure.queued,pure.output⟩
      simp only [pty_master_close,set_pair,update_of_ne same]
      exact sound.pure j
    current := by
      intro n other now
      simp only [master,pty_master_close,filter_eq_some_iff] at now
      obtain ⟨now,is_open⟩ := now
      by_cases same : n = m
      · grind
      rw [getElem?_set_ne (Ne.symm same)] at now
      have before := sound.current n other (by simp [master,now,is_open])
      have apart : other.index ≠ file.index := by
        intro equal
        rw [equal] at before
        exact same (before.2.symm.trans (sound.current m file there).2)
      simpa only [pty_master_close,set_pair,update_of_ne apart] using before
    isolated := sound.isolated }

theorem Sound.drain (k : Nat) (job : Drain) : Sound (drain s k job) := by
  unfold Ptys.drain
  rcases job.budget with _ | left
  · exact sound.keep rfl rfl rfl
  rcases turn : drain_turn (s.pairs job.index) with _ | p
  · exact sound.keep rfl rfl rfl
  obtain ⟨pure,used,master⟩ := drain_turn_pure (sound.pure job.index) turn
  exact sound.change rfl rfl pure used master fun x there => .inl there

theorem Sound.master_read {m count : Nat} (there : s.master m = some file)
    (read : pty_master_read s m count file = some t) : Sound t := by
  simp only [pty_master_read,ite_none_left_eq_some,some.injEq] at read
  obtain ⟨_,rfl⟩ := read
  have pure := sound.pure file.index
  refine sound.change rfl rfl ⟨pure.input,pure.queued,fun b inside => pure.output b (mem_of_mem_drop inside)⟩ rfl rfl ?_
  intro x logged
  rcases mem_append.mp logged with old | new
  · exact .inl old
  obtain ⟨b,inside,rfl⟩ := mem_map.mp new
  exact .inr ((pure.output b (mem_of_mem_take inside)).trans (sound.current m file there).2)

theorem Sound.read_turn {k : Nat} {r : Reader} (own : r.master = (s.pairs r.index).master)
    (turn : read_turn s k r = some t) : Sound t := by
  have pure := sound.pure r.index
  unfold Ptys.read_turn at turn
  rcases queue : (s.pairs r.index).slave.input with _ | ⟨b,rest⟩
  · simp only [queue] at turn
    split at turn
    · cases turn
      exact sound.change rfl rfl ⟨by simp,pure.queued,pure.output⟩ rfl rfl fun x there => .inl there
    split at turn
    · cases turn
      exact sound.keep rfl rfl rfl
    · contradiction
  simp only [queue,some.injEq] at turn
  subst turn
  have input := pure.input
  rw [queue] at input
  refine sound.change rfl rfl ⟨(forall_mem_cons.mp input).2,pure.queued,pure.output⟩ rfl rfl ?_
  grind

variable {w : Writer}

theorem Sound.put_turn (k : Nat) (own : w.master = (s.pairs w.index).master)
    (ch : UInt8) (rest : List UInt8) : Sound (put_turn s k w ch rest) := by
  have pure := sound.pure w.index
  unfold Ptys.put_turn
  dsimp only
  split
  · exact sound.change rfl rfl ⟨pure.input,forall_mem_append.mpr ⟨pure.queued,forall_mem_singleton.mpr own⟩,pure.output⟩
      rfl rfl fun x there => .inl there
  · exact sound.keep rfl rfl rfl

theorem Sound.write_turn (k : Nat)
    (own : w.draining = 0 → w.master = (s.pairs w.index).master) : Sound (write_turn s k w) := by
  unfold Ptys.write_turn
  rcases budget : w.draining with _ | left
  · rcases w.rest with _ | ⟨ch,rest⟩
    · exact sound.keep rfl rfl rfl
    · exact sound.put_turn k (own budget) ch rest
  rcases turn : drain_turn (s.pairs w.index) with _ | p
  · exact sound.keep rfl rfl rfl
  obtain ⟨pure,used,master⟩ := drain_turn_pure (sound.pure w.index) turn
  exact sound.change rfl rfl pure used master fun x there => .inl there

theorem Sound.step {l : Label} (taken : Careful s l t) : Sound t := by
  obtain ⟨taken,careful⟩ := taken
  unfold Step Ptys.step at taken
  cases l with
  | open_master memory =>
    cases taken
    exact sound.open_master memory
  | set_lock m locked =>
    obtain ⟨file,_,rfl⟩ := map_eq_some_iff.mp taken
    have pure := sound.pure file.index
    exact sound.change rfl rfl ⟨pure.input,pure.queued,pure.output⟩ rfl rfl fun x there => .inl there
  | close_master m =>
    obtain ⟨file,there,rfl⟩ := map_eq_some_iff.mp taken
    exact sound.close_master there
  | open_slave i controlling =>
    cases taken
    unfold open_slave
    dsimp only
    split
    · exact sound.keep rfl rfl rfl
    · exact sound
  | close_slave d =>
    obtain ⟨_,_,rfl⟩ := map_eq_some_iff.mp taken
    exact sound.keep rfl rfl rfl
  | set_termios i tio flush_input =>
    cases taken
    have pure := sound.pure i
    unfold tty_set_termios_for_id
    split
    · refine sound.change rfl rfl ⟨?_,pure.queued,pure.output⟩ rfl rfl fun x there => .inl there
      cases flush_input with
      | false => exact pure.input
      | true => simp
    · exact sound.change rfl rfl pure rfl rfl fun x there => .inl there
  | master_write m ch =>
    obtain ⟨file,there,rfl⟩ := map_eq_some_iff.mp taken
    have pure := sound.pure file.index
    unfold pty_master_write
    split
    · refine sound.change rfl rfl ⟨fun b inside => ?_,?_,pure.output⟩ rfl rfl fun x there => .inl there
      · rcases input_char_mem inside with old | new
        · exact pure.input b old
        · exact new.trans (sound.current m file there).2.symm
      rw [input_char_output]
      exact pure.queued
    · exact sound.change rfl rfl pure rfl rfl fun x there => .inl there
  | master_read m count =>
    obtain ⟨file,there,read⟩ := bind_eq_some_iff.mp taken
    exact sound.master_read there read
  | drain k =>
    obtain ⟨job,_,rfl⟩ := map_eq_some_iff.mp taken
    exact sound.drain k job
  | slave_read d count =>
    obtain ⟨v,_,rfl⟩ := map_eq_some_iff.mp taken
    unfold slave_read
    split
    · exact sound.keep rfl rfl rfl
    · exact sound
  | read_turn k =>
    obtain ⟨r,there,turn⟩ := bind_eq_some_iff.mp taken
    have own : r.master = (s.pairs r.index).master := by simpa [orderly,there] using careful
    exact sound.read_turn own turn
  | stop_read k =>
    obtain ⟨r,_,stopped⟩ := bind_eq_some_iff.mp taken
    obtain ⟨_,same⟩ := ite_none_right_eq_some.mp stopped
    cases same
    exact sound.keep rfl rfl rfl
  | slave_write d bytes =>
    obtain ⟨v,_,rfl⟩ := map_eq_some_iff.mp taken
    unfold slave_write
    dsimp only
    split
    · exact sound.keep rfl rfl rfl
    · exact sound
  | write_turn k =>
    obtain ⟨w,there,rfl⟩ := map_eq_some_iff.mp taken
    have own : 0 < w.draining ∨ w.master = (s.pairs w.index).master := by simpa [orderly,there] using careful
    exact sound.write_turn k fun put => own.resolve_left (by omega)
  | stop_write k =>
    obtain ⟨w,_,stopped⟩ := bind_eq_some_iff.mp taken
    obtain ⟨_,same⟩ := ite_none_right_eq_some.mp stopped
    cases same
    exact sound.keep rfl rfl rfl

end

/-- Characters go only between a master and descriptors opened while it was open,
    where a slave is used only before the next master of its number. -/
theorem pairs_isolated {labels : List Label} {s : System} (run : Run Careful first labels s) :
    ∀ x ∈ s.log, x.opened_under = x.master :=
  (run.invariant (fun _ _ _ sound taken => Sound.step sound taken) Sound.init).isolated

/-- A pair is used, and again after its slave is closed. -/
def used_twice : List Label :=
  [.open_master true,.set_lock 0 false,.open_slave 0 false,.slave_write 0 [97],.write_turn 0,.write_turn 0,
    .master_read 0 1,.close_slave 0,.close_master 0,.open_master true,.set_lock 1 false,.open_slave 0 false,
    .slave_read 1 1,.master_write 1 98,.read_turn 0]

/-- A character each way, the terminal being used again. -/
theorem pairs_isolated_reused :
    ∃ labels s, Run Careful first labels s ∧ s.log = [⟨0,0⟩,⟨1,1⟩] ∧ ∀ x ∈ s.log, x.opened_under = x.master := by
  have found : (used_twice.foldlM (fun s l => if orderly s l then step s l else none) first).any
      (fun s : System => s.log = [⟨0,0⟩,⟨1,1⟩]) = true := by decide +kernel
  obtain ⟨s,run,held⟩ := Run.ends_checked found
  exact ⟨_,s,run,by simpa using held,pairs_isolated run⟩

/-- A master is closed while its slave is open; a second gets its number. -/
def reopened : List Label :=
  [.open_master true,.set_lock 0 false,.open_slave 0 false,.close_master 0,.open_master true]
def old_slave_writes : List Label := reopened ++ [.slave_write 0 [97],.write_turn 0,.write_turn 0,.master_read 1 1]
def old_slave_reads : List Label := reopened ++ [.master_write 1 97,.slave_read 0 1,.read_turn 0]

/-- The second master reads what goes to the old descriptor, and the other way round. -/
theorem pairs_not_isolated :
    (∃ s, Run Step first old_slave_writes s ∧ s.log = [⟨0,1⟩]) ∧
    (∃ s, Run Step first old_slave_reads s ∧ s.log = [⟨0,1⟩]) := by
  constructor
  · have found : (old_slave_writes.foldlM step first).any (fun s => s.log = [⟨0,1⟩]) = true := by decide +kernel
    obtain ⟨s,run,held⟩ := Run.ends found
    exact ⟨s,run,by simpa using held⟩
  have found : (old_slave_reads.foldlM step first).any (fun s => s.log = [⟨0,1⟩]) = true := by decide +kernel
  obtain ⟨s,run,held⟩ := Run.ends found
  exact ⟨s,run,by simpa using held⟩

end ArmOS.Ptys

