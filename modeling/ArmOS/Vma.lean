import ArmOS.Physical

/-!
Memory areas (`vma_t`) and the list of them that an address space keeps, as
`kernel/memory/virtual.c` searches and edits it.
-/
namespace ArmOS.Vma
open Words
open Physical (PAGE_SIZE)

/-- The `VMA_*` bits of a flag word. -/
structure Flags where
  (read write exec kernel shared lazy dontfork external : Bool)
deriving DecidableEq, Repr

/-- `VMA_READ | VMA_WRITE`. -/
def Flags.read_write : Flags := ⟨true,true,false,false,false,false,false,false⟩
def Flags.none : Flags := ⟨false,false,false,false,false,false,false,false⟩

/-- `(flags & required) == required`. -/
def Flags.includes (flags required : Flags) : Bool :=
  (!required.read || flags.read) && (!required.write || flags.write) && (!required.exec || flags.exec) &&
    (!required.kernel || flags.kernel) && (!required.shared || flags.shared) && (!required.lazy || flags.lazy) &&
    (!required.dontfork || flags.dontfork) && (!required.external || flags.external)

/-- `vma_t`; `stop` is the field `end`. -/
structure Area where
  (start stop : Nat)
  flags : Flags
  shm_id : Nat
deriving DecidableEq, Repr

/-- `USER_SPACE_END`, which `get_split_boundary` returns. -/
def USER_SPACE_END : Nat := 0x7FFFF00000

def USER_HEAP_START : Nat := 0x108000000
def USER_SHM_START : Nat := 0x4000000000
def USER_SHM_END : Nat := 0x4400000000
def USER_HEAP_END : Nat := USER_SHM_START
def USER_STACK_TOP : Nat := 0x7F00000000
def USER_STACK_SIZE : Nat := 8 * 1024 * 1024
def USER_STACK_BOTTOM : Nat := USER_STACK_TOP - USER_STACK_SIZE
def USER_SIGNAL_REGION_START : Nat := USER_STACK_TOP
def USER_MMAP_START : Nat := USER_SHM_END
def USER_MMAP_END : Nat := USER_STACK_BOTTOM
def IS_PAGE_ALIGNED (x : Nat) : Bool := x % PAGE_SIZE = 0
def vm_range_overlaps (vma : Area) (start stop : Nat) : Bool := start < vma.stop && vma.start < stop
def Area.Has (vma : Area) (address : Nat) : Prop := vma.start ≤ address ∧ address < vma.stop
instance (vma : Area) (address : Nat) : Decidable (vma.Has address) := inferInstanceAs (Decidable (_ ∧ _))
def find_vma (vmas : List Area) (address : Nat) : Option Area := vmas.find? (fun vma => decide (vma.Has address))

/-- The loop of `create_vma` for the place of the area. -/
def insert_area (vma : Area) : List Area → Option (List Area)
  | [] => some [vma]
  | next :: rest =>
    if next.stop ≤ vma.start then (insert_area vma rest).map (next :: ·)
    else if next.start < vma.stop then none
    else some (vma :: next :: rest)

/-- `create_vma`; `node` is whether `kzalloc` returned one. -/
def create_vma (vmas : List Area) (start size : Nat) (flags : Flags) (shm_id : Nat) (node : Bool) :
    Option (List Area) :=
  let stop := wrap (start + size)
  if size = 0 ∨ stop ≤ start ∨ USER_SPACE_END < stop then none
  else
    match insert_area ⟨start,stop,flags,shm_id⟩ vmas with
    | none => none
    | some vmas => if node then some vmas else none

/-- `remove_vma`: the first area with exactly these bounds. -/
def remove_vma (vmas : List Area) (start stop : Nat) : List Area :=
  vmas.eraseP (fun vma => vma.start = start ∧ vma.stop = stop)

/-- The first-fit loop of `vm_find_free_range`. -/
def first_fit (size base limit : Nat) : Nat → List Area → Nat
  | address, [] => if address < limit ∧ size ≤ limit - address then address else 0
  | address, vma :: rest =>
    if vma.stop ≤ address ∨ vma.stop ≤ base then first_fit size base limit address rest
    else if limit ≤ vma.start then if address < limit ∧ size ≤ limit - address then address else 0
    else if size ≤ wrap (vma.start + (wordCount - address)) then address
    else
      let address := if address < vma.stop then align_up vma.stop PAGE_SIZE else address
      let address := if address < base then base else address
      if limit ≤ address ∨ limit - address < size then 0 else first_fit size base limit address rest

/-- `vm_find_free_range`; 0 is no range. -/
def vm_find_free_range (vmas : List Area) (hint size base limit : Nat) : Nat :=
  if size = 0 ∨ !IS_PAGE_ALIGNED size ∨ !IS_PAGE_ALIGNED base ∨ !IS_PAGE_ALIGNED limit ∨ limit ≤ base ∨
      limit - base < size then 0
  else if base ≤ hint ∧ hint < limit ∧ IS_PAGE_ALIGNED hint ∧ size ≤ limit - hint ∧
      vmas.all (fun vma => !vm_range_overlaps vma hint (hint + size)) then hint
  else first_fit size base limit base vmas

/-- The cursor loop of `vm_validate_user_range`; `none` is out of turns. -/
def validate_from (vmas : List Area) (stop : Nat) (required_flags : Flags) : Nat → Nat → Option Bool
  | 0, _ => .none
  | turns + 1, cursor =>
    if stop ≤ cursor then some true
    else
      match find_vma vmas cursor with
      | .none => some false
      | some vma =>
        if !vma.flags.includes required_flags ∨ vma.stop ≤ cursor then some false
        else validate_from vmas stop required_flags turns (if vma.stop < stop then vma.stop else stop)

/-- Where the linker put the kernel. -/
structure Image where
  (kernel_start kernel_heap_end : Nat)
def memory_low_kernel_alias_start (image : Image) : Nat := image.kernel_start &&& 0xFFF00000
def memory_low_kernel_alias_end (image : Image) : Nat :=
  min (wrap (image.kernel_heap_end + 0xFFFFF) &&& 0xFFF00000) USER_SPACE_END
def memory_range_overlaps_low_kernel_alias (image : Image) (start stop : Nat) : Bool :=
  if USER_SPACE_END ≤ image.kernel_start ∨ stop ≤ start then false
  else start < memory_low_kernel_alias_end image && memory_low_kernel_alias_start image < stop

def vm_validate_user_range (image : Image) (vmas : List Area) (address length : Nat) (required_flags : Flags) :
    Option Bool :=
  let stop := wrap (address + length)
  if length = 0 ∨ required_flags = .none ∨ stop ≤ address ∨ USER_SPACE_END < stop ∨
      memory_range_overlaps_low_kernel_alias image address stop then some false
  else validate_from vmas stop required_flags (length + 1) address

/-- The heap area, which is the one that starts at `heap_start`. -/
def find_heap_vma (vmas : List Area) (heap_start : Nat) : Option Area :=
  vmas.find? (fun vma => vma.start = heap_start)

/-- An assignment to `end` of the heap area. -/
def set_heap_end (vmas : List Area) (heap_start stop : Nat) : List Area :=
  match vmas with
  | [] => []
  | vma :: rest =>
    if vma.start = heap_start then { vma with stop := stop } :: rest
    else vma :: set_heap_end rest heap_start stop

end ArmOS.Vma

