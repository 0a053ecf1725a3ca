import ArmOS.Rings
import ArmOS.Runs

/-!
Pipes and named pipes. Every critical section of the calls is a function on the
pipe's buffer; a call that waits runs one again later. The system of one pipe has
its descriptions, its calls and a record of the bytes.
-/
namespace ArmOS.Pipes
open Rings (RingBuffer)

def PIPE_BUF_SIZE : Nat := 4096

/-- The access modes that `pipe_open_named` lets through. -/
inductive Access
  | O_RDONLY | O_WRONLY | O_RDWR
  deriving DecidableEq, Repr
def Access.reads : Access → Bool
  | .O_RDONLY | .O_RDWR => true
  | .O_WRONLY => false
def Access.writes : Access → Bool
  | .O_WRONLY | .O_RDWR => true
  | .O_RDONLY => false

structure PipeBuffer where
  ring : RingBuffer UInt8
  (readers writers : Int)
  (closed_read closed_write named : Bool)
  (reader_epoch writer_epoch : UInt32)

def pipe_buffer_create (named : Bool) : PipeBuffer where
  ring := RingBuffer.empty 0
  readers := 0
  writers := 0
  closed_read := true
  closed_write := true
  named := named
  reader_epoch := 0
  writer_epoch := 0

/-! ### Opening a named pipe -/

/-- What was left without ends is dropped by the next open. -/
def start_over (b : PipeBuffer) : PipeBuffer :=
  if b.readers = 0 ∧ b.writers = 0 then { b with ring := { b.ring with read_pos := 0, write_pos := 0, count := 0 } }
  else b
def count_reader (b : PipeBuffer) : PipeBuffer :=
  { b with readers := b.readers + 1, reader_epoch := b.reader_epoch + 1, closed_read := false }
def count_writer (b : PipeBuffer) : PipeBuffer :=
  { b with writers := b.writers + 1, writer_epoch := b.writer_epoch + 1, closed_write := false }

/-- The counts that an open of this mode adds to. -/
def count_ends (a : Access) (b : PipeBuffer) : PipeBuffer :=
  let b := if a.reads then count_reader b else b
  if a.writes then count_writer b else b

/-- The epoch of the other side before the open is counted. -/
def counterpart_epoch (a : Access) (b : PipeBuffer) : UInt32 := if a.reads then b.writer_epoch else b.reader_epoch
def first_connected (a : Access) (b : PipeBuffer) : Bool :=
  a = .O_RDWR ∨ (if a.reads then 0 < b.writers else 0 < b.readers)

/-- The other side is there, or has been since `epoch`. -/
def connected (a : Access) (epoch : UInt32) (b : PipeBuffer) : Bool :=
  if a.reads then 0 < b.writers ∨ b.writer_epoch ≠ epoch else 0 < b.readers ∨ b.reader_epoch ≠ epoch
def drop_reader (b : PipeBuffer) : PipeBuffer :=
  { b with readers := b.readers - 1, closed_read := if b.readers - 1 = 0 then true else b.closed_read }
def drop_writer (b : PipeBuffer) : PipeBuffer :=
  { b with writers := b.writers - 1, closed_write := if b.writers - 1 = 0 then true else b.closed_write }

/-- The counts that a close or abandoned open takes back. -/
def drop_ends (a : Access) (b : PipeBuffer) : PipeBuffer :=
  let b := if a.reads then drop_reader b else b
  if a.writes then drop_writer b else b

inductive Opened
  /-- `-ENXIO`: a writer that may not wait found no reader. -/
  | refused
  | counted (epoch : UInt32) (connected : Bool)
  deriving DecidableEq

/-- The first critical section of `pipe_open_named`. -/
def pipe_open_named (a : Access) (nonblock : Bool) (b : PipeBuffer) : PipeBuffer × Opened :=
  let b := start_over b
  if a = .O_WRONLY ∧ nonblock ∧ b.readers = 0 then (b,.refused)
  else (count_ends a b,.counted (counterpart_epoch a b) (first_connected a (count_ends a b)))

/-! ### Reading, writing and closing -/

/-- A section of `pipe_read`: its bytes, or nothing to wait. -/
def pipe_read (count : Nat) (b : PipeBuffer) : PipeBuffer × Option (List UInt8) :=
  if b.ring.count = 0 ∧ b.writers = 0 then (b,some [])
  else
    let taken := b.ring.drain PIPE_BUF_SIZE count
    ({ b with ring := taken.2 },if taken.1 = [] then none else some taken.1)

/-- A section of `pipe_write`: the bytes left over, or no reader. -/
def pipe_write (bytes : List UInt8) (b : PipeBuffer) : PipeBuffer × Option (List UInt8) :=
  if b.readers = 0 then (b,none)
  else
    let filled := b.ring.fill PIPE_BUF_SIZE bytes
    ({ b with ring := filled.1 },some filled.2)

/-- `pipe_close`, with whether the buffer is freed. -/
def pipe_close (a : Access) (b : PipeBuffer) : PipeBuffer × Bool :=
  let b := drop_ends a b
  (b,!b.named && decide (b.readers = 0 ∧ b.writers = 0))

/-- The buffer that `sys_pipe` sets up for its two descriptions. -/
def sys_pipe : PipeBuffer :=
  { pipe_buffer_create false with
    readers := 1, writers := 1, closed_read := false, closed_write := false, reader_epoch := 1, writer_epoch := 1 }

/-! ### The system of one pipe -/

/-- An open that is counted and waits for the other side. -/
structure Opening where
  file : Nat
  access : Access
  epoch : UInt32
  deriving DecidableEq

structure Reading where
  (file count : Nat)
  nonblock : Bool
  deriving DecidableEq

/-- A `pipe_write` under way, with the bytes left. -/
structure Writing where
  file : Nat
  left : List UInt8
  written : Nat
  nonblock : Bool
  deriving DecidableEq

/-- A pipe with its descriptions and calls, the bytes in and out, and where it last had no ends. -/
structure System where
  named : Bool
  buffer : Option PipeBuffer
  files : List (Nat × Access)
  opening : List Opening
  reading : List Reading
  writing : List Writing
  accepted : List UInt8
  returned : List UInt8
  origin : Nat × Nat
  (allocated freed : Nat)

/-- The readers: open descriptions and blocked opens. -/
def reading_ends (files : List (Nat × Access)) (opening : List Opening) : Nat :=
  files.countP (fun f => f.2.reads) + opening.countP (fun o => o.access.reads)
def writing_ends (files : List (Nat × Access)) (opening : List Opening) : Nat :=
  files.countP (fun f => f.2.writes) + opening.countP (fun o => o.access.writes)

/-- A named pipe nobody has opened, or a `sys_pipe`. -/
def System.first (named : Bool) : System where
  named := named
  buffer := if named then none else some sys_pipe
  files := if named then [] else [(0,.O_RDONLY),(1,.O_WRONLY)]
  opening := []
  reading := []
  writing := []
  accepted := []
  returned := []
  origin := (0,0)
  allocated := if named then 0 else 1
  freed := 0

inductive Label
  | open_named (file : Nat) (a : Access) (nonblock : Bool)
  | open_woken (o : Opening)
  | open_interrupted (o : Opening)
  | read (r : Reading)
  | read_returns (r : Reading) (bytes : List UInt8)
  | read_waits (r : Reading)
  | read_fails (r : Reading)
  | write (w : Writing)
  | write_section (w : Writing)
  | write_fails (w : Writing)
  | close (file : Nat) (a : Access)
  | release

/-- The inode's buffer, or one from `named_pipe_get_buffer`. -/
def System.get_buffer (s : System) : PipeBuffer := s.buffer.getD (pipe_buffer_create true)

/-- An open that finds no ends starts a new record. -/
def System.new_origin (s : System) : Nat × Nat :=
  if s.get_buffer.readers = 0 ∧ s.get_buffer.writers = 0 then (s.accepted.length,s.returned.length) else s.origin

/-- `pipe_open_named` after its first section. -/
def System.opened (s : System) (file : Nat) (a : Access) (nonblock : Bool) : System :=
  let section_result := pipe_open_named a nonblock s.get_buffer
  let s := { s with
    origin := s.new_origin
    allocated := if s.buffer.isSome then s.allocated else s.allocated + 1
    buffer := some section_result.1 }
  match section_result.2 with
  | .refused => s
  | .counted epoch met =>
    if met || nonblock then { s with files := (file,a) :: s.files }
    else { s with opening := ⟨file,a,epoch⟩ :: s.opening }

/-- A blocked open that goes through. -/
def System.joined (s : System) (o : Opening) : System :=
  { s with opening := s.opening.erase o, files := (o.file,o.access) :: s.files }

/-- A write call after one of its sections. -/
def System.wrote (s : System) (w : Writing) (b : PipeBuffer) (left : List UInt8) : System :=
  let put := w.left.take (w.left.length - left.length)
  let going := s.writing.erase w
  { s with
    buffer := some b
    accepted := s.accepted ++ put
    writing := if left = [] || w.nonblock then going else
        { w with left := left, written := w.written + put.length } :: going }

def System.closed (s : System) (file : Nat) (a : Access) (b : PipeBuffer) : System :=
  let result := pipe_close a b
  { s with
    files := s.files.erase (file,a)
    buffer := if result.2 then none else some result.1
    freed := if result.2 then s.freed + 1 else s.freed }

/-- A party enters a call or runs one critical section; nothing is closed under a call. -/
inductive Step (s : System) : Label → System → Prop
  | open_named {file : Nat} {a : Access} {nonblock : Bool} :
      s.named = true → Step s (.open_named file a nonblock) (s.opened file a nonblock)
  | open_woken {o : Opening} {b : PipeBuffer} :
      o ∈ s.opening → s.buffer = some b → connected o.access o.epoch b = true → Step s (.open_woken o) (s.joined o)
  | open_asleep {o : Opening} {b : PipeBuffer} :
      o ∈ s.opening → s.buffer = some b → connected o.access o.epoch b = false → Step s (.open_woken o) s
  | open_late {o : Opening} {b : PipeBuffer} :
      o ∈ s.opening → s.buffer = some b → connected o.access o.epoch b = true → Step s (.open_interrupted o) (s.joined o)
  | open_interrupted {o : Opening} {b : PipeBuffer} :
      o ∈ s.opening → s.buffer = some b → connected o.access o.epoch b = false →
      Step s (.open_interrupted o) { s with opening := s.opening.erase o, buffer := some (drop_ends o.access b) }
  | read {r : Reading} {a : Access} :
      (r.file,a) ∈ s.files → a.reads = true → Step s (.read r) { s with reading := r :: s.reading }
  | read_returns {r : Reading} {b after : PipeBuffer} {bytes : List UInt8} :
      r ∈ s.reading → s.buffer = some b → pipe_read r.count b = (after,some bytes) →
      Step s (.read_returns r bytes)
        { s with buffer := some after, reading := s.reading.erase r, returned := s.returned ++ bytes }
  | read_waits {r : Reading} {b after : PipeBuffer} :
      r ∈ s.reading → s.buffer = some b → pipe_read r.count b = (after,none) → r.nonblock = false →
      Step s (.read_waits r) { s with buffer := some after }
  | read_refused {r : Reading} {b after : PipeBuffer} :
      r ∈ s.reading → s.buffer = some b → pipe_read r.count b = (after,none) → r.nonblock = true →
      Step s (.read_fails r) { s with buffer := some after, reading := s.reading.erase r }
  | read_interrupted {r : Reading} :
      r ∈ s.reading → r.nonblock = false → Step s (.read_fails r) { s with reading := s.reading.erase r }
  | write {w : Writing} {a : Access} :
      (w.file,a) ∈ s.files → a.writes = true → w.left ≠ [] → w.written = 0 →
      Step s (.write w) { s with writing := w :: s.writing }
  | write_section {w : Writing} {b after : PipeBuffer} {left : List UInt8} :
      w ∈ s.writing → s.buffer = some b → pipe_write w.left b = (after,some left) →
      Step s (.write_section w) (s.wrote w after left)
  | write_broken {w : Writing} {b after : PipeBuffer} :
      w ∈ s.writing → s.buffer = some b → pipe_write w.left b = (after,none) →
      Step s (.write_fails w) { s with buffer := some after, writing := s.writing.erase w }
  | write_interrupted {w : Writing} :
      w ∈ s.writing → w.nonblock = false → Step s (.write_fails w) { s with writing := s.writing.erase w }
  | close {file : Nat} {a : Access} {b : PipeBuffer} :
      (file,a) ∈ s.files → s.buffer = some b → (∀ r ∈ s.reading, r.file ≠ file) → (∀ w ∈ s.writing, w.file ≠ file) →
      Step s (.close file a) (s.closed file a b)
  | release :
      s.named = true → s.buffer.isSome = true → s.files = [] → s.opening = [] →
      Step s .release { s with buffer := none, freed := s.freed + 1 }

end ArmOS.Pipes

