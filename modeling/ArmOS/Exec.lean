import ArmOS.Guarded
import ArmOS.Vma
import Mathlib

/-!
The parsers of executables, `arch/arm64/process/exec.c` and
`arch/arm32/process/exec.c`. The image is the buffer of the first bytes of the file;
a read outside it is a fault. The fields of a header are read at once.
-/
namespace ArmOS.Exec
open Bytes Guarded Option List
open Words (wrap wrap32)
open Vma (Flags)

inductive Arch where
  | arm32
  | arm64
deriving DecidableEq, Repr
def USER_SPACE_START : Arch → Nat
  | .arm32 => 0x00010000
  | .arm64 => 0x0000000100000000
def USER_SPACE_END : Arch → Nat
  | .arm32 => 0x3FFFF000
  | .arm64 => Vma.USER_SPACE_END
def EXEC_IMAGE_MAX_SEGMENTS : Nat := 16
structure Segment where
  (file_offset file_size memory_size virtual_address : Nat)
  flags : Flags
deriving DecidableEq, Repr

/-- `exec_image_layout_t` with a list of segments. -/
structure Layout where
  (entry tls_image tls_file_size tls_memory_size tls_alignment : Nat)
  segments : List Segment
deriving DecidableEq, Repr

/-- The fields of `elf64_header_t` and `elf32_ehdr_t` that the parsers use. -/
structure Header where
  ident : List Nat
  (type machine version entry phoff phentsize phnum : Nat)
deriving DecidableEq, Repr

/-- The fields of `elf64_program_header_t` and `elf32_phdr_t` that the parsers use. -/
structure Program where
  (type flags offset vaddr filesz memsz align : Nat)
deriving DecidableEq, Repr

def PT_LOAD : Nat := 1
def PT_DYNAMIC : Nat := 2
def PT_INTERP : Nat := 3
def PT_TLS : Nat := 7
def PF_X : Nat := 1
def PF_W : Nat := 2
def PF_R : Nat := 4
def ELF64_ET_EXEC : Nat := 2
def EM_AARCH64 : Nat := 183
def EM_ARM : Nat := 40

/-- `sizeof(elf64_header_t)`, `sizeof(elf32_ehdr_t)`. -/
def header_bytes : Arch → Nat
  | .arm32 => 52
  | .arm64 => 64

/-- `sizeof(elf64_program_header_t)`, `sizeof(elf32_phdr_t)`. -/
def program_bytes : Arch → Nat
  | .arm32 => 32
  | .arm64 => 56

/-- `align & (align - 1)`: no power of two. -/
def misaligned (align : Nat) : Bool := align > 1 && align &&& (align - 1) != 0
def vma_flags (flags : Nat) : Flags :=
  { read := flags &&& PF_R != 0, write := flags &&& PF_W != 0, exec := flags &&& PF_X != 0,
    kernel := false, shared := false, lazy := false, dontfork := false, external := false }
def segment_of (program : Program) : Segment :=
  { file_offset := program.offset, file_size := program.filesz, memory_size := program.memsz,
    virtual_address := program.vaddr, flags := vma_flags program.flags }
def with_tls (layout : Layout) (program : Program) : Layout :=
  { layout with
    tls_image := program.vaddr, tls_file_size := program.filesz, tls_memory_size := program.memsz,
    tls_alignment := if program.align = 0 then 1 else program.align }

/-- The layout after `memset` and with its entry. -/
def new_layout (entry : Nat) : Layout :=
  { entry, tls_image := 0, tls_file_size := 0, tls_memory_size := 0, tls_alignment := 0, segments := [] }

namespace Arm64

/-- `elf64_header_t` at the start of the image, without `ehsize`. -/
def header (image : Span) : Checked Header := do
  let b0 ← image.byte 0
  let b1 ← image.byte 1
  let b2 ← image.byte 2
  let b3 ← image.byte 3
  let b4 ← image.byte 4
  let b5 ← image.byte 5
  let b6 ← image.byte 6
  let type ← image.load 2 16
  let machine ← image.load 2 18
  let version ← image.load 4 20
  let entry ← image.load 8 24
  let phoff ← image.load 8 32
  let phentsize ← image.load 2 54
  let phnum ← image.load 2 56
  .ok { ident := [b0,b1,b2,b3,b4,b5,b6], type, machine, version, entry, phoff, phentsize, phnum }

def ehsize (image : Span) : Checked Nat := image.load 2 52

def program_header (image : Span) (header : Header) (index : Nat) : Checked Program := do
  let start := wrap (header.phoff + wrap (index * header.phentsize))
  let type ← image.load 4 start
  let flags ← image.load 4 (start + 4)
  let offset ← image.load 8 (start + 8)
  let vaddr ← image.load 8 (start + 16)
  let filesz ← image.load 8 (start + 32)
  let memsz ← image.load 8 (start + 40)
  let align ← image.load 8 (start + 48)
  .ok { type, flags, offset, vaddr, filesz, memsz, align }

def add_overflows_u64 (left right : Nat) : Bool := wrap (left + right) < left

/-- What the loop of `validate_image` has seen. -/
structure Seen where
  (loadable executable_entry tls_seen : Bool)

/-- The checks of a range that both kinds of segments share. -/
def range_refused (segment : Program) (file_size : Nat) : Bool :=
  add_overflows_u64 segment.offset segment.filesz ||
    wrap (segment.offset + segment.filesz) > file_size ||
    add_overflows_u64 segment.vaddr segment.memsz ||
    segment.vaddr < USER_SPACE_START .arm64 ||
    wrap (segment.vaddr + segment.memsz) > USER_SPACE_END .arm64

/-- The body of the loop of `validate_image`. -/
def validate_segment (header : Header) (file_size : Nat) (seen : Seen) (segment : Program) : Option Seen :=
  if segment.type = PT_DYNAMIC || segment.type = PT_INTERP then none
  else if segment.type = PT_TLS then
    if seen.tls_seen || segment.memsz = 0 || segment.filesz > segment.memsz || range_refused segment file_size ||
        misaligned segment.align then none
    else some { seen with tls_seen := true }
  else if segment.type != PT_LOAD then some seen
  else if segment.memsz < segment.filesz || segment.memsz = 0 || range_refused segment file_size ||
      (segment.align > 1 && (segment.align &&& (segment.align - 1) != 0 ||
        segment.vaddr &&& (segment.align - 1) != segment.offset &&& (segment.align - 1))) ||
      segment.flags &&& (2 ^ 32 - 1 - 7) != 0 || segment.flags &&& PF_R = 0 ||
      segment.flags &&& (PF_W ||| PF_X) = PF_W ||| PF_X then none
  else some
    { seen with
      loadable := true
      executable_entry := seen.executable_entry ||
        (segment.flags &&& PF_X != 0 && header.entry ≥ segment.vaddr &&
          header.entry < wrap (segment.vaddr + segment.memsz)) }

def header_refused (image : Span) (header : Header) (ehsize : Nat) : Bool :=
  header.ident != [0x7f,0x45,0x4c,0x46,2,1,1] || header.type != ELF64_ET_EXEC ||
    header.machine != EM_AARCH64 || header.version != 1 || ehsize != header_bytes .arm64 ||
    header.phentsize != program_bytes .arm64 || header.phnum = 0 || header.phoff < header_bytes .arm64 ||
    header.entry ≥ USER_SPACE_END .arm64 ||
    add_overflows_u64 header.phoff (wrap (header.phnum * header.phentsize)) ||
    wrap (header.phoff + wrap (header.phnum * header.phentsize)) > image.size

/-- `validate_image`; whether it returns 0. -/
def validate_image (image : Span) (file_size : Nat) : Checked Bool :=
  if image.size < header_bytes .arm64 then .ok false
  else do
    let header ← header image
    let ehsize ← ehsize image
    if header_refused image header ehsize then .ok false
    else
      let seen ← for_each (program_header image header) (validate_segment header file_size) header.phnum 0
        { loadable := false, executable_entry := false, tls_seen := false }
      .ok (seen.any fun seen => seen.loadable && seen.executable_entry)

/-- The body of the loop of `arch_exec_parse_image`. -/
def place_segment (layout : Layout) (program : Program) : Option Layout :=
  if program.type = PT_TLS then some (with_tls layout program)
  else if program.type != PT_LOAD then some layout
  else if layout.segments.length ≥ EXEC_IMAGE_MAX_SEGMENTS then none
  else some { layout with segments := layout.segments ++ [segment_of program] }

/-- `arch_exec_parse_image` of arm64; `none` where it returns -1. -/
def arch_exec_parse_image (image : Span) (file_size : Nat) : Checked (Option Layout) := do
  let valid ← validate_image image file_size
  if valid then
    let header ← header image
    let layout ← for_each (program_header image header) place_segment header.phnum 0 (new_layout header.entry)
    .ok (layout.filter fun layout => layout.segments.length != 0)
  else .ok none

end Arm64

namespace Arm32

/-- `elf32_ehdr_t` at the start of the image. -/
def header (image : Span) : Checked Header := do
  let b0 ← image.byte 0
  let b1 ← image.byte 1
  let b2 ← image.byte 2
  let b3 ← image.byte 3
  let b4 ← image.byte 4
  let b5 ← image.byte 5
  let type ← image.load 2 16
  let machine ← image.load 2 18
  let version ← image.load 4 20
  let entry ← image.load 4 24
  let phoff ← image.load 4 28
  let phentsize ← image.load 2 42
  let phnum ← image.load 2 44
  .ok { ident := [b0,b1,b2,b3,b4,b5], type, machine, version, entry, phoff, phentsize, phnum }

/-- The pointer `program`, in steps of `sizeof(*program)`. -/
def program_header (image : Span) (header : Header) (index : Nat) : Checked Program := do
  let start := wrap32 (header.phoff + wrap32 (index * program_bytes .arm32))
  let type ← image.load 4 start
  let offset ← image.load 4 (start + 4)
  let vaddr ← image.load 4 (start + 8)
  let filesz ← image.load 4 (start + 16)
  let memsz ← image.load 4 (start + 20)
  let flags ← image.load 4 (start + 24)
  let align ← image.load 4 (start + 28)
  .ok { type, flags, offset, vaddr, filesz, memsz, align }

/-- The checks that both kinds of segments share. -/
def range_refused (program : Program) (file_size : Nat) : Bool :=
  program.memsz = 0 || program.filesz > program.memsz || program.offset > file_size ||
    program.filesz > file_size - program.offset ||
    wrap32 (program.vaddr + program.memsz) < program.vaddr ||
    wrap32 (program.vaddr + program.memsz) > USER_SPACE_END .arm32

/-- The body of the loop; the flag is `tls_seen`. -/
def place_segment (file_size : Nat) (state : Layout × Bool) (program : Program) : Option (Layout × Bool) :=
  if program.type = PT_TLS then
    if state.2 || range_refused program file_size || misaligned program.align then none
    else some (with_tls state.1 program,true)
  else if program.type != PT_LOAD then some state
  else if state.1.segments.length ≥ EXEC_IMAGE_MAX_SEGMENTS || range_refused program file_size then none
  else some ({ state.1 with segments := state.1.segments ++ [segment_of program] },state.2)

def header_refused (image : Span) (header : Header) : Bool :=
  header.ident != [0x7f,0x45,0x4c,0x46,1,1] || header.type != 2 || header.machine != EM_ARM ||
    header.version != 1 || header.phentsize != program_bytes .arm32 || header.phnum = 0 ||
    header.phoff > image.size || wrap32 (header.phnum * program_bytes .arm32) > image.size - header.phoff

/-- `arch_exec_parse_image` of arm32; `none` where it returns -1. -/
def arch_exec_parse_image (image : Span) (file_size : Nat) : Checked (Option Layout) :=
  if image.size < header_bytes .arm32 then .ok none
  else do
    let header ← header image
    if header_refused image header then .ok none
    else
      let state ← for_each (program_header image header) (place_segment file_size) header.phnum 0
        (new_layout header.entry,false)
      .ok ((state.map Prod.fst).filter fun layout => layout.segments.length != 0)

end Arm32

/-- `arch_exec_parse_image` on either architecture; `none` is a null pointer. -/
def arch_exec_parse_image (arch : Arch) (image : Option Span) (file_size : Nat) : Checked (Option Layout) :=
  match image with
  | none => .ok none
  | some image =>
    match arch with
    | .arm32 => Arm32.arch_exec_parse_image image file_size
    | .arm64 => Arm64.arch_exec_parse_image image file_size

/-! ### What is read -/

namespace Arm64

def header_at (bytes : Buffer) : Header :=
  { ident := [(bytes 0).toNat,(bytes 1).toNat,(bytes 2).toNat,(bytes 3).toNat,(bytes 4).toNat,(bytes 5).toNat,
      (bytes 6).toNat]
    type := load 2 bytes 16, machine := load 2 bytes 18, version := load 4 bytes 20, entry := load 8 bytes 24
    phoff := load 8 bytes 32, phentsize := load 2 bytes 54, phnum := load 2 bytes 56 }

def program_at (bytes : Buffer) (start : Nat) : Program :=
  { type := load 4 bytes start, flags := load 4 bytes (start + 4), offset := load 8 bytes (start + 8)
    vaddr := load 8 bytes (start + 16), filesz := load 8 bytes (start + 32), memsz := load 8 bytes (start + 40)
    align := load 8 bytes (start + 48) }

/-- The table of program headers. -/
def programs (bytes : Buffer) : List Program :=
  (List.range' 0 (header_at bytes).phnum).map fun index =>
    program_at bytes ((header_at bytes).phoff + index * program_bytes .arm64)

variable {image : Span} {layout : Layout}

theorem header_eq (large : header_bytes .arm64 ≤ image.size) : header image = .ok (header_at image.bytes) := by
  have byte (i : Nat) (low : i < 64) : image.byte i = .ok (image.bytes i).toNat :=
    Span.byte_eq (low.trans_le large)
  have number (n off : Nat) (low : off + n ≤ 64) : image.load n off = .ok (load n image.bytes off) :=
    Span.load_eq (low.trans large)
  unfold header
  rw [byte 0,byte 1,byte 2,byte 3,byte 4,byte 5,byte 6,number 2 16,number 2 18,number 4 20,number 8 24,number 8 32,
    number 2 54,number 2 56]
  · rfl
  all_goals decide

variable {index start : Nat}

theorem program_header_eq {header : Header} (here : wrap (header.phoff + wrap (index * header.phentsize)) = start)
    (inside : start + 56 ≤ image.size) : program_header image header index = .ok (program_at image.bytes start) := by
  have number (n off : Nat) (low : off + n ≤ 56) : image.load n (start + off) = .ok (load n image.bytes (start + off)) :=
    Span.load_eq (by omega)
  have first := number 4 0 (by omega)
  rw [add_zero] at first
  unfold program_header
  rw [here]
  dsimp only
  rw [first,number 4 4,number 8 8,number 8 16,number 8 32,number 8 40,number 8 48]
  · rfl
  all_goals decide

end Arm64

namespace Arm32

def header_at (bytes : Buffer) : Header :=
  { ident := [(bytes 0).toNat,(bytes 1).toNat,(bytes 2).toNat,(bytes 3).toNat,(bytes 4).toNat,(bytes 5).toNat]
    type := load 2 bytes 16, machine := load 2 bytes 18, version := load 4 bytes 20, entry := load 4 bytes 24
    phoff := load 4 bytes 28, phentsize := load 2 bytes 42, phnum := load 2 bytes 44 }
def program_at (bytes : Buffer) (start : Nat) : Program :=
  { type := load 4 bytes start, flags := load 4 bytes (start + 24), offset := load 4 bytes (start + 4)
    vaddr := load 4 bytes (start + 8), filesz := load 4 bytes (start + 16), memsz := load 4 bytes (start + 20)
    align := load 4 bytes (start + 28) }

/-- The table of program headers. -/
def programs (bytes : Buffer) : List Program :=
  (List.range' 0 (header_at bytes).phnum).map fun index =>
    program_at bytes (wrap32 ((header_at bytes).phoff + wrap32 (index * program_bytes .arm32)))

theorem header_eq (large : header_bytes .arm32 ≤ image.size) : header image = .ok (header_at image.bytes) := by
  have byte (i : Nat) (low : i < 52) : image.byte i = .ok (image.bytes i).toNat :=
    Span.byte_eq (low.trans_le large)
  have number (n off : Nat) (low : off + n ≤ 52) : image.load n off = .ok (load n image.bytes off) :=
    Span.load_eq (low.trans large)
  unfold header
  rw [byte 0,byte 1,byte 2,byte 3,byte 4,byte 5,number 2 16,number 2 18,number 4 20,number 4 24,number 4 28,
    number 2 42,number 2 44]
  · rfl
  all_goals decide

theorem program_header_eq {header : Header}
    (here : wrap32 (header.phoff + wrap32 (index * program_bytes .arm32)) = start) (inside : start + 32 ≤ image.size) :
    program_header image header index = .ok (program_at image.bytes start) := by
  have number (n off : Nat) (low : off + n ≤ 32) : image.load n (start + off) = .ok (load n image.bytes (start + off)) :=
    Span.load_eq (by omega)
  have first := number 4 0 (by omega)
  rw [add_zero] at first
  unfold program_header
  rw [here]
  dsimp only
  rw [first,number 4 4,number 4 8,number 4 16,number 4 20,number 4 24,number 4 28]
  · rfl
  all_goals decide

end Arm32

/-! ### What is let through -/

/-- What a layout has to meet before the loader maps it. -/
structure Sound (arch : Arch) (file_size : Nat) (layout : Layout) : Prop where
  count : layout.segments.length ≤ EXEC_IMAGE_MAX_SEGMENTS
  memory : ∀ segment ∈ layout.segments, USER_SPACE_START arch ≤ segment.virtual_address ∧
    segment.virtual_address + segment.memory_size ≤ USER_SPACE_END arch
  file : ∀ segment ∈ layout.segments, segment.file_offset + segment.file_size ≤ file_size
  apart : ∀ segment ∈ layout.segments, ¬ (segment.flags.write = true ∧ segment.flags.exec = true)
  entry : ∃ segment ∈ layout.segments, segment.flags.exec = true ∧ segment.virtual_address ≤ layout.entry ∧
    layout.entry < segment.virtual_address + segment.memory_size

def loads (programs : List Program) : List Program := programs.filter fun program => program.type = PT_LOAD

theorem write_and_exec (flags : Nat) : flags &&& (PF_W ||| PF_X) = PF_W ||| PF_X ↔
    ((vma_flags flags).write = true ∧ (vma_flags flags).exec = true) := by
  have both : flags &&& 3 = flags % 4 := Nat.and_two_pow_sub_one_eq_mod flags 2
  have low : flags &&& 1 = flags % 2 := Nat.and_two_pow_sub_one_eq_mod flags 1
  have high : flags &&& 2 = (flags.testBit 1).toNat * 2 := Nat.and_two_pow flags 1
  have second : flags.testBit 1 = decide (flags / 2 % 2 = 1) := by
    rw [Nat.testBit_eq_decide_div_mod_eq]
  have sum : flags % 4 = 2 * (flags / 2 % 2) + flags % 2 := by omega
  simp only [PF_W,PF_X,vma_flags,bne_iff_ne,ne_eq]
  rw [show (2 ||| 1 : Nat) = 3 from rfl,both,low,high,second]
  by_cases set : flags / 2 % 2 = 1
  · simp [set]
    omega
  simp [set]
  omega

namespace Arm32

variable {file_size : Nat}

/-- What the loop has placed when it is through. -/
theorem placed {programs : List Program} {state last : Layout × Bool}
    (result : programs.foldlM (place_segment file_size) state = some last) :
    last.1.entry = state.1.entry ∧ last.1.segments = state.1.segments ++ (loads programs).map segment_of ∧
      (state.1.segments.length ≤ EXEC_IMAGE_MAX_SEGMENTS → last.1.segments.length ≤ EXEC_IMAGE_MAX_SEGMENTS) ∧
      ∀ program ∈ loads programs, range_refused program file_size = false := by
  induction programs generalizing state with
  | nil =>
    obtain rfl : state = last := some.inj result
    exact ⟨rfl,by simp [loads],id,nofun⟩
  | cons program programs ih =>
    obtain ⟨next,taken,rest⟩ := bind_eq_some_iff.mp result
    obtain ⟨entry,segments,few,refused⟩ := ih rest
    unfold place_segment at taken
    split at taken
    · -- A thread-local segment only changes the fields of its own.
      rename_i tls
      have other : program.type ≠ PT_LOAD := by rw [tls]; decide
      grind [loads,with_tls]
    split at taken
    · grind [loads]
    rename_i load
    have load : program.type = PT_LOAD := by simpa using load
    split at taken
    · cases taken
    rename_i allowed
    have allowed : state.1.segments.length < EXEC_IMAGE_MAX_SEGMENTS ∧ range_refused program file_size = false := by
      simpa using allowed
    cases taken
    refine ⟨entry,by simpa [loads,load] using segments,fun _ => few ?_,fun other inside => ?_⟩
    · simpa using allowed.1
    have inside : other = program ∨ other ∈ loads programs := by simpa [loads,load] using inside
    rcases inside with rfl | inside
    · exact allowed.2
    · exact refused other inside

variable {program : Program}

theorem range_accepted (accepted : range_refused program file_size = false)
    (address : program.vaddr < 2 ^ 32) (size : program.memsz < 2 ^ 32) :
    program.vaddr + program.memsz ≤ USER_SPACE_END .arm32 ∧ program.offset + program.filesz ≤ file_size := by
  simp only [range_refused,Bool.or_eq_false_iff,decide_eq_false_iff_not] at accepted
  simp only [wrap32,USER_SPACE_END] at accepted ⊢
  omega

theorem program_at_small (bytes : Buffer) (start : Nat) :
    (program_at bytes start).vaddr < 2 ^ 32 ∧ (program_at bytes start).memsz < 2 ^ 32 :=
  ⟨load_lt 4 bytes _,load_lt 4 bytes _⟩

/-- No read faults, and the layout is that of the table. -/
theorem parse_eq (image : Span) (file_size : Nat) : ∃ result, arch_exec_parse_image image file_size = .ok result ∧
    ∀ layout, result = some layout → layout.entry = (header_at image.bytes).entry ∧
      layout.segments = (loads (programs image.bytes)).map segment_of ∧
      layout.segments.length ≤ EXEC_IMAGE_MAX_SEGMENTS ∧
      ∀ program ∈ loads (programs image.bytes), range_refused program file_size = false := by
  unfold arch_exec_parse_image
  split
  · exact ⟨none,rfl,nofun⟩
  rename_i large
  rw [header_eq (Nat.le_of_not_lt large)]
  dsimp only [bind,Except.bind]
  split
  · exact ⟨none,rfl,nofun⟩
  rename_i accepted
  have fits : (header_at image.bytes).phoff + (header_at image.bytes).phnum * 32 ≤ image.size := by
    have count : (header_at image.bytes).phnum < 2 ^ 16 := load_lt 2 image.bytes 44
    simp only [header_refused,Bool.or_eq_true,decide_eq_true_eq,not_or] at accepted
    simp only [wrap32,program_bytes] at accepted
    omega
  have reads (index : Nat) (_ : 0 ≤ index) (below : index < 0 + (header_at image.bytes).phnum) :
      program_header image (header_at image.bytes) index = .ok (program_at image.bytes
        (wrap32 ((header_at image.bytes).phoff + wrap32 (index * program_bytes .arm32)))) := by
    apply program_header_eq rfl
    have inner := Nat.mod_le (index * 32) (2 ^ 32)
    have outer := Nat.mod_le ((header_at image.bytes).phoff + (index * 32) % 2 ^ 32) (2 ^ 32)
    simp only [wrap32,program_bytes]
    omega
  rw [for_each_eq reads]
  refine ⟨_,rfl,fun layout found => ?_⟩
  obtain ⟨found,_⟩ := filter_eq_some_iff.mp found
  obtain ⟨state,result,rfl⟩ := map_eq_some_iff.mp found
  obtain ⟨entry,segments,few,refused⟩ := placed result
  exact ⟨entry,by simpa [new_layout,programs] using segments,few (Nat.zero_le _),refused⟩

end Arm32

namespace Arm64

/-- What the loop has placed when it is through. -/
theorem placed {programs : List Program} {last : Layout} (result : programs.foldlM place_segment layout = some last) :
    last.entry = layout.entry ∧ last.segments = layout.segments ++ (loads programs).map segment_of ∧
      (layout.segments.length ≤ EXEC_IMAGE_MAX_SEGMENTS → last.segments.length ≤ EXEC_IMAGE_MAX_SEGMENTS) := by
  induction programs generalizing layout with
  | nil =>
    obtain rfl : layout = last := some.inj result
    exact ⟨rfl,by simp [loads],id⟩
  | cons program programs ih =>
    obtain ⟨next,taken,rest⟩ := bind_eq_some_iff.mp result
    obtain ⟨entry,segments,few⟩ := ih rest
    unfold place_segment at taken
    split at taken
    · rename_i tls
      have other : program.type ≠ PT_LOAD := by rw [tls]; decide
      cases taken
      exact ⟨entry,by simpa [loads,other,with_tls] using segments,few⟩
    · grind [loads]

/-- What `validate_segment` has checked of a segment to load. -/
structure Checks (file_size : Nat) (program : Program) : Prop where
  range : range_refused program file_size = false
  apart : ¬ ((vma_flags program.flags).write = true ∧ (vma_flags program.flags).exec = true)

/-- A segment to load that is executable and has the entry point. -/
def holds_entry (header : Header) (program : Program) : Prop :=
  (vma_flags program.flags).exec = true ∧ program.vaddr ≤ header.entry ∧
    header.entry < wrap (program.vaddr + program.memsz)

theorem validated {header : Header} {programs : List Program} {seen last : Seen}
    (result : programs.foldlM (validate_segment header file_size) seen = some last) :
    (∀ program ∈ loads programs, Checks file_size program) ∧
      (last.executable_entry = true → seen.executable_entry = true ∨
      ∃ program ∈ loads programs, holds_entry header program) := by
  induction programs generalizing seen with
  | nil =>
    obtain rfl : seen = last := some.inj result
    exact ⟨nofun,.inl⟩
  | cons program programs ih =>
    obtain ⟨next,taken,rest⟩ := bind_eq_some_iff.mp result
    obtain ⟨checked,entry⟩ := ih rest
    unfold validate_segment at taken
    split at taken
    · cases taken
    split at taken
    · rename_i tls
      have other : program.type ≠ PT_LOAD := by rw [tls]; decide
      grind [loads]
    split at taken
    · grind [loads]
    rename_i load
    have load : program.type = PT_LOAD := by simpa using load
    split at taken
    · cases taken
    rename_i accepted
    simp only [Bool.or_eq_true,decide_eq_true_eq,not_or,Bool.not_eq_true] at accepted
    have own : Checks file_size program :=
      ⟨accepted.1.1.1.1.2,fun both => accepted.2 ((write_and_exec _).mpr both)⟩
    cases taken
    refine ⟨fun other inside => ?_,fun found => ?_⟩
    · grind [loads]
    rcases entry found with before | ⟨other,inside,holds⟩
    · have before : seen.executable_entry = true ∨ program.flags &&& PF_X ≠ 0 ∧
          program.vaddr ≤ header.entry ∧ header.entry < wrap (program.vaddr + program.memsz) := by
        simpa [and_assoc] using before
      refine before.imp id fun holds => ⟨program,by simp [loads,load],?_,holds.2⟩
      simpa [vma_flags] using holds.1
    · grind [loads]

theorem range_accepted (accepted : range_refused program file_size = false) (address : program.vaddr < 2 ^ 64)
    (size : program.memsz < 2 ^ 64) (offset : program.offset < 2 ^ 64) (length : program.filesz < 2 ^ 64) :
    wrap (program.vaddr + program.memsz) = program.vaddr + program.memsz ∧
      USER_SPACE_START .arm64 ≤ program.vaddr ∧ program.vaddr + program.memsz ≤ USER_SPACE_END .arm64 ∧
      program.offset + program.filesz ≤ file_size := by
  simp only [range_refused,add_overflows_u64,Bool.or_eq_false_iff,decide_eq_false_iff_not] at accepted
  simp only [wrap,Words.wordCount,USER_SPACE_START,USER_SPACE_END,Vma.USER_SPACE_END] at accepted ⊢
  omega

theorem program_at_small (bytes : Buffer) (start : Nat) :
    (program_at bytes start).vaddr < 2 ^ 64 ∧ (program_at bytes start).memsz < 2 ^ 64 ∧
      (program_at bytes start).offset < 2 ^ 64 ∧ (program_at bytes start).filesz < 2 ^ 64 :=
  ⟨load_lt 8 bytes _,load_lt 8 bytes _,load_lt 8 bytes _,load_lt 8 bytes _⟩

/-- Where the header passes, the table lies in the image. -/
theorem table_inside {ehsize : Nat} (accepted : header_refused image (header_at image.bytes) ehsize = false) :
    (header_at image.bytes).phentsize = 56 ∧
      (header_at image.bytes).phoff + (header_at image.bytes).phnum * 56 < 2 ^ 64 ∧
      (header_at image.bytes).phoff + (header_at image.bytes).phnum * 56 ≤ image.size := by
  have count : (header_at image.bytes).phnum < 2 ^ 16 := load_lt 2 image.bytes 56
  have offset : (header_at image.bytes).phoff < 2 ^ 64 := load_lt 8 image.bytes 32
  simp only [header_refused,add_overflows_u64,Bool.or_eq_false_iff,decide_eq_false_iff_not,bne_eq_false_iff_eq] at accepted
  have entry_size : (header_at image.bytes).phentsize = 56 := accepted.1.1.1.1.1.2
  rw [entry_size] at accepted
  simp only [wrap,Words.wordCount] at accepted
  omega

theorem for_each_programs {σ : Type} {ehsize : Nat} {body : σ → Program → Option σ} {s : σ}
    (accepted : header_refused image (header_at image.bytes) ehsize = false) :
    for_each (program_header image (header_at image.bytes)) body (header_at image.bytes).phnum 0 s =
      .ok ((programs image.bytes).foldlM body s) := by
  obtain ⟨entry_size,small,inside⟩ := table_inside accepted
  have reads (index : Nat) (_ : 0 ≤ index) (below : index < 0 + (header_at image.bytes).phnum) :
      program_header image (header_at image.bytes) index =
        .ok (program_at image.bytes ((header_at image.bytes).phoff + index * program_bytes .arm64)) := by
    simp only [program_bytes]
    apply program_header_eq
    · rw [entry_size]
      simp only [wrap,Words.wordCount]
      omega
    · omega
  exact for_each_eq reads

/-- No read faults, and the layout is that of the table. -/
theorem parse_eq (image : Span) (file_size : Nat) : ∃ result, arch_exec_parse_image image file_size = .ok result ∧
    ∀ layout, result = some layout → layout.entry = (header_at image.bytes).entry ∧
      layout.segments = (loads (programs image.bytes)).map segment_of ∧
      layout.segments.length ≤ EXEC_IMAGE_MAX_SEGMENTS ∧
      (∀ program ∈ loads (programs image.bytes), Checks file_size program) ∧
      ∃ program ∈ loads (programs image.bytes), holds_entry (header_at image.bytes) program := by
  unfold arch_exec_parse_image validate_image
  split
  · exact ⟨none,rfl,nofun⟩
  rename_i large
  have large := le_of_not_gt large
  rw [header_eq large,ehsize,Span.load_eq (le_trans (by decide) large)]
  dsimp only [bind,Except.bind]
  by_cases refused : header_refused image (header_at image.bytes) (load 2 image.bytes 52) = true
  · rw [if_pos refused]
    exact ⟨none,rfl,nofun⟩
  have accepted := eq_false_of_ne_true refused
  rw [if_neg refused,for_each_programs accepted]
  dsimp only
  cases seen : (programs image.bytes).foldlM (validate_segment (header_at image.bytes) file_size)
    { loadable := false, executable_entry := false, tls_seen := false } with
  | none => exact ⟨none,rfl,nofun⟩
  | some last =>
    obtain ⟨checked,entry⟩ := validated seen
    dsimp only [Option.any]
    split
    · rename_i both
      have both : last.loadable = true ∧ last.executable_entry = true := by simpa using both
      rw [for_each_programs accepted]
      refine ⟨_,rfl,fun layout found => ?_⟩
      obtain ⟨found,_⟩ := filter_eq_some_iff.mp found
      obtain ⟨same,segments,few⟩ := placed found
      simp_all [new_layout]
    · exact ⟨none,rfl,nofun⟩

end Arm64

/-- What the parser of arm32 leaves unchecked. -/
def proper : Arch → Buffer → Prop
  | .arm64, _ => True
  | .arm32, bytes =>
    (∀ program ∈ loads (Arm32.programs bytes), USER_SPACE_START .arm32 ≤ program.vaddr ∧
      program.flags &&& (PF_W ||| PF_X) ≠ PF_W ||| PF_X) ∧
    ∃ program ∈ loads (Arm32.programs bytes), program.flags &&& PF_X ≠ 0 ∧
      program.vaddr ≤ (Arm32.header_at bytes).entry ∧ (Arm32.header_at bytes).entry < program.vaddr + program.memsz

theorem sound_arm64 {file_size : Nat} (parsed : Arm64.arch_exec_parse_image image file_size = .ok (some layout)) :
    Sound .arm64 file_size layout := by
  obtain ⟨result,returned,tells⟩ := Arm64.parse_eq image file_size
  obtain ⟨entry,segments,few,checked,program,inside,exec,low,high⟩ :=
    tells layout (Except.ok.inj (returned.symm.trans parsed))
  have range (program : Program) (inside : program ∈ loads (Arm64.programs image.bytes)) :=
    have member : program ∈ Arm64.programs image.bytes := mem_of_mem_filter inside
    have small : program.vaddr < 2 ^ 64 ∧ program.memsz < 2 ^ 64 ∧ program.offset < 2 ^ 64 ∧ program.filesz < 2 ^ 64 := by
      obtain ⟨index,_,rfl⟩ := mem_map.mp member
      exact Arm64.program_at_small _ _
    Arm64.range_accepted (checked program inside).range small.1 small.2.1 small.2.2.1 small.2.2.2
  have all {P : Segment → Prop} (each : ∀ program ∈ loads (Arm64.programs image.bytes), P (segment_of program)) :
      ∀ segment ∈ layout.segments, P segment := by
    rw [segments]
    simpa using each
  constructor
  · exact few
  · exact all fun program inside => (range program inside).2.imp id And.left
  · exact all fun program inside => (range program inside).2.2.2
  · exact all fun program inside => (checked program inside).apart
  rw [(range program inside).1] at high
  rw [segments,entry]
  exact ⟨_,mem_map_of_mem inside,exec,low,high⟩

theorem sound_arm32 {file_size : Nat} (parsed : Arm32.arch_exec_parse_image image file_size = .ok (some layout)) :
    Sound .arm32 file_size layout ↔ proper .arm32 image.bytes := by
  obtain ⟨result,returned,tells⟩ := Arm32.parse_eq image file_size
  obtain ⟨entry,segments,few,accepted⟩ := tells layout (Except.ok.inj (returned.symm.trans parsed))
  have range (program : Program) (inside : program ∈ loads (Arm32.programs image.bytes)) :=
    have member : program ∈ Arm32.programs image.bytes := mem_of_mem_filter inside
    have small : program.vaddr < 2 ^ 32 ∧ program.memsz < 2 ^ 32 := by
      obtain ⟨index,_,rfl⟩ := mem_map.mp member
      exact Arm32.program_at_small _ _
    Arm32.range_accepted (accepted program inside) small.1 small.2
  have every {P : Segment → Prop} : (∀ segment ∈ layout.segments, P segment) ↔
      ∀ program ∈ loads (Arm32.programs image.bytes), P (segment_of program) := by
    rw [segments]
    simp
  constructor
  · intro sound
    refine ⟨fun program inside => ⟨(every.mp sound.memory program inside).1,?_⟩,?_⟩
    · rw [Ne,write_and_exec]
      exact every.mp sound.apart program inside
    obtain ⟨segment,inside,exec,low,high⟩ := sound.entry
    rw [segments] at inside
    obtain ⟨program,member,rfl⟩ := mem_map.mp inside
    rw [entry] at low high
    exact ⟨program,member,by simpa [segment_of,vma_flags] using exec,low,high⟩
  rintro ⟨each,program,inside,exec,low,high⟩
  constructor
  · exact few
  · exact every.mpr fun program inside => ⟨(each program inside).1,(range program inside).1⟩
  · exact every.mpr fun program inside => (range program inside).2
  · exact every.mpr fun program inside both => (each program inside).2 ((write_and_exec _).mpr both)
  rw [segments,entry]
  exact ⟨_,mem_map_of_mem inside,by simpa [segment_of,vma_flags] using exec,low,high⟩

/-- Neither parser reads outside the image, and an accepted layout meets every
    condition exactly where the headers do. -/
theorem accepted_image_sound (arch : Arch) (image : Option Span) (file_size : Nat) :
    ∃ result, arch_exec_parse_image arch image file_size = .ok result ∧ ∀ layout, result = some layout →
      ∃ span, image = some span ∧ (Sound arch file_size layout ↔ proper arch span.bytes) := by
  cases image with
  | none => exact ⟨none,rfl,nofun⟩
  | some image =>
    cases arch with
    | arm32 =>
      obtain ⟨result,returned,_⟩ := Arm32.parse_eq image file_size
      refine ⟨result,returned,fun layout found => ⟨image,rfl,?_⟩⟩
      exact sound_arm32 (returned.trans (congrArg _ found))
    | arm64 =>
      obtain ⟨result,returned,_⟩ := Arm64.parse_eq image file_size
      refine ⟨result,returned,fun layout found => ⟨image,rfl,?_⟩⟩
      exact iff_of_true (sound_arm64 (returned.trans (congrArg _ found))) trivial

def word (n : Nat) : List Nat := [n % 256,n / 256 % 256,n / 65536 % 256,n / 16777216 % 256]

/-- An executable for arm32 with one segment of 84 bytes. -/
def one_segment (entry vaddr flags : Nat) : Span :=
  let bytes := [0x7f,0x45,0x4c,0x46,1,1,1,0,0,0,0,0,0,0,0,0,2,0,40,0] ++ word 1 ++ word entry ++ word 52 ++ word 0 ++
    word 0 ++ [52,0,32,0,1,0,0,0,0,0,0,0] ++ word 1 ++ word 0 ++ word vaddr ++ word vaddr ++ word 84 ++ word 84 ++
    word flags ++ word 1
  { bytes := fun i => UInt8.ofNat (bytes.getD i 0), size := bytes.length }

theorem accepted_image_sound_text : ∃ layout,
    arch_exec_parse_image .arm32 (some (one_segment 0x10034 0x10000 5)) 84 = .ok (some layout) ∧
      Sound .arm32 84 layout := by
  obtain ⟨result,returned,tells⟩ := accepted_image_sound .arm32 (some (one_segment 0x10034 0x10000 5)) 84
  have parsed : arch_exec_parse_image .arm32 (some (one_segment 0x10034 0x10000 5)) 84 = .ok (some
      { new_layout 0x10034 with
        segments := [{ file_offset := 0, file_size := 84, memory_size := 84, virtual_address := 0x10000
                       flags := vma_flags 5 }] }) := by decide +kernel
  obtain ⟨span,same,sound⟩ := tells _ (Except.ok.inj (returned.symm.trans parsed))
  cases same
  have proper : proper .arm32 (one_segment 0x10034 0x10000 5).bytes := by
    constructor
    · decide +kernel
    · decide +kernel
  exact ⟨_,parsed,sound.mpr proper⟩

/-- arm32 accepts a writable and executable segment at 0, and an entry in the kernel. -/
theorem writable_code_accepted : ∃ layout segment,
    arch_exec_parse_image .arm32 (some (one_segment 0xC0000000 0 7)) 84 = .ok (some layout) ∧
      layout.segments = [segment] ∧ segment.virtual_address < USER_SPACE_START .arm32 ∧
      (segment.flags.write = true ∧ segment.flags.exec = true) ∧
      segment.virtual_address + segment.memory_size ≤ layout.entry ∧ ¬ Sound .arm32 84 layout := by
  have parsed : arch_exec_parse_image .arm32 (some (one_segment 0xC0000000 0 7)) 84 = .ok (some
      { new_layout 0xC0000000 with
        segments := [{ file_offset := 0, file_size := 84, memory_size := 84, virtual_address := 0
                       flags := vma_flags 7 }] }) := by decide +kernel
  refine ⟨_,_,parsed,rfl,by decide,by decide,by decide,fun sound => ?_⟩
  exact absurd (sound.memory _ (List.mem_singleton.mpr rfl)).1 (by decide)

end ArmOS.Exec

