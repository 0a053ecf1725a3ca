import ArmOS.Endpoints
import ArmOS.Fork

/-!
The system calls on one address space: `brk`, `mmap`, `munmap`, `mprotect` and
the mapping of shared memory objects and of device buffers, and the construction
of a space by `execve`.
-/
namespace ArmOS.Syscalls
open Words Vma Frames Vm Shm Fork
open Physical (PAGE_SIZE)
open Endpoints (MAX_FILES)

/-- The access mode in the flags of an open file. -/
inductive Access
  | O_RDONLY
  | O_WRONLY
  | O_RDWR
deriving DecidableEq, Repr

structure Buffer where
  (handle size : Nat)
  (cpu_read cpu_write : Bool)
  pages : List Nat

/-- An object's handle, a device, or any other file. -/
inductive FileType
  | shm (slot : Nat)
  | framebuffer (physical mapping_size : Nat)
  | drm (buffers : List Buffer)
  | other

/-- `file_t` at its address, with its read operation. -/
structure File where
  address : Nat
  type : FileType
  flags : Access
  ref_count : Nat
  read : Option (Nat → Nat → Except Errno (List Nat))

def can_write (file : File) : Bool := file.flags ≠ .O_RDONLY

/-! ### `brk` -/

def rollback_brk_growth (p : Pool) (s : Space) (start stop : Nat) : Pool × Space :=
  unmap_pages false p s start (page_count start stop)

/-- The loop of `sys_brk` that gives pages back; `false` is `-EFAULT`. -/
def shrink_heap : Pool → Space → Nat → Nat → Pool × Space × Bool
  | p, s, _, 0 => (p,s,true)
  | p, s, page, count + 1 =>
    let physical := get_physical_page s page
    if physical = 0 then shrink_heap p s (page + PAGE_SIZE) count
    else
      match unmap_user_page s page with
      | none => (p,s,false)
      | some s => shrink_heap (free_page p physical) s (page + PAGE_SIZE) count

def brk_down (k : Kernel) (s : Space) (new_brk : Nat) : Kernel × Space × Except Errno Nat :=
  match find_heap_vma s.vma_list s.heap_start with
  | none => (k,s,.error .ENOMEM)
  | some heap_vma =>
    match shrink_heap k.pool s new_brk (page_count new_brk s.brk) with
    | (p,s,false) => ({ k with pool := p },s,.error .EFAULT)
    | (p,s,true) =>
      let vmas :=
        if new_brk = s.heap_start then remove_vma s.vma_list heap_vma.start heap_vma.stop
        else set_heap_end s.vma_list s.heap_start new_brk
      ({ k with pool := p },{ s with vma_list := vmas, brk := new_brk },.ok new_brk)

def brk_up (k : Kernel) (s : Space) (new_brk : Nat) : Kernel × Space × Except Errno Nat :=
  match map_new_pages Flags.read_write cleared k.pool s s.brk (page_count s.brk new_brk) with
  | (p,s',stopped,false) =>
    let (p,s') := rollback_brk_growth p s' s.brk stopped
    ({ k with pool := p },s',.error .ENOMEM)
  | (p,s',_,true) =>
    match find_heap_vma s.vma_list s.heap_start with
    | some _ =>
      ({ k with pool := p },
        { s' with vma_list := set_heap_end s'.vma_list s.heap_start new_brk, brk := new_brk },.ok new_brk)
    | none =>
      match create_vma s'.vma_list s.heap_start (new_brk - s.heap_start) Flags.read_write 0 (kmalloc p) with
      | some vmas => ({ k with pool := drawn p },{ s' with vma_list := vmas, brk := new_brk },.ok new_brk)
      | none =>
        let (p,s') := rollback_brk_growth (drawn p) s' s.brk new_brk
        ({ k with pool := p },s',.error .ENOMEM)

def sys_brk (k : Kernel) (s : Space) (addr : Nat) : Kernel × Space × Except Errno Nat :=
  if addr = 0 then (k,s,.ok s.brk)
  else if addr < s.heap_start ∨ s.heap_end < addr then (k,s,.error .ENOMEM)
  else
    let new_brk := align_up addr PAGE_SIZE
    if s.heap_end < new_brk then (k,s,.error .ENOMEM)
    else if new_brk < s.brk then brk_down k s new_brk
    else if s.brk < new_brk then brk_up k s new_brk
    else (k,s,.ok new_brk)

/-! ### Shared memory -/

/-- How the loop of `shm_map_fd` ends. -/
inductive Mapped
  | done
  | no_frame (mapped : Nat)
  | no_table (mapped : Nat)

/-- What `shm_map_fd` maps: the object's frame with a reference, or a copy. -/
def object_frame (shared : Bool) (p : Pool) (frame : Nat) : Pool × Option Nat :=
  if shared then
    match page_ref_inc p frame with
    | none => (p,none)
    | some p => (p,some frame)
  else
    match allocate_page p with
    | (p,none) => (p,none)
    | (p,some page) => ({ p with content := Function.update p.content page (p.content frame) },some page)

def map_object_pages (shared : Bool) (flags : Flags) : Nat → Pool → Space → Nat → List Nat → Pool × Space × Mapped
  | _, p, s, _, [] => (p,s,.done)
  | mapped, p, s, vaddr, frame :: rest =>
    match object_frame shared p frame with
    | (p,none) => (p,s,.no_frame mapped)
    | (p,some phys) =>
      match map_user_page p s vaddr phys flags with
      | (p,none) => (free_page p phys,s,.no_table mapped)
      | (p,some s) => map_object_pages shared flags (mapped + 1) p s (vaddr + PAGE_SIZE) rest

/-- The loops that take mapped pages back. -/
def undo_object_pages : Pool → Space → Nat → List (Option Nat) → Pool × Space
  | p, s, _, [] => (p,s)
  | p, s, page, known :: rest =>
    let mapped := known.getD (get_physical_page s page)
    undo_object_pages (free_page p mapped) ((unmap_user_page s page).getD s) (page + PAGE_SIZE) rest

/-- The loop of `shm_find_free_vaddr`; 0 is no address. -/
def free_vaddr_from (vmas : List Area) (aligned_size : Nat) : Nat → Nat → Nat
  | 0, _ => 0
  | turns + 1, addr =>
    if USER_SHM_END - aligned_size < addr then 0
    else
      match vmas.find? (fun vma => addr < vma.stop && vma.start < addr + aligned_size) with
      | none => addr
      | some vma => free_vaddr_from vmas aligned_size turns (align_up vma.stop PAGE_SIZE - PAGE_SIZE + PAGE_SIZE)

/-- `shm_find_free_vaddr`: every turn goes at least one page up. -/
def shm_find_free_vaddr (vmas : List Area) (size : Nat) : Nat :=
  let aligned_size := align_up size PAGE_SIZE
  if aligned_size = 0 ∨ USER_SHM_END - USER_SHM_START < aligned_size then 0
  else free_vaddr_from vmas aligned_size ((USER_SHM_END - USER_SHM_START) / PAGE_SIZE + 1) USER_SHM_START

/-- `shm_map_fd` from the choice of the address on. -/
def map_object (k : Kernel) (s : Space) (i vaddr mapping_size : Nat) (vma_flags : Flags) :
    Kernel × Space × Except Errno Nat :=
  let obj := k.shm_objects i
  let shared := vma_flags.shared
  let node := kmalloc k.pool
  let p := drawn k.pool
  match create_vma s.vma_list vaddr mapping_size vma_flags (if shared then obj.id else 0) node with
  | none => ({ k with pool := p },s,.error .ENOMEM)
  | some vmas =>
    let frames := obj.phys.take (mapping_size / PAGE_SIZE)
    let undo (p : Pool) (s : Space) (known : List (Option Nat)) : Kernel × Space × Except Errno Nat :=
      let (p,s) := undo_object_pages p s vaddr known
      ({ k with pool := p },{ s with vma_list := remove_vma s.vma_list vaddr (vaddr + mapping_size) },.error .ENOMEM)
    match map_object_pages shared vma_flags 0 p { s with vma_list := vmas } vaddr frames with
    | (p,s,.no_frame mapped) =>
      undo p s (if shared then (frames.take mapped).map some else List.replicate mapped none)
    | (p,s,.no_table mapped) => undo p s (List.replicate mapped none)
    | (p,s,.done) =>
      let k := { k with pool := p }
      (if shared then k.setObject i { obj with mappings := obj.mappings + 1 } else k,s,.ok vaddr)

/-- `shm_map_fd` on the file behind the descriptor. -/
def shm_map_fd (k : Kernel) (s : Space) (file : Option File) (addr requested_size : Nat) (vma_flags : Flags) :
    Kernel × Space × Except Errno Nat :=
  if !(vma_flags.read || vma_flags.write) || vma_flags.exec || vma_flags.kernel || vma_flags.lazy ||
      vma_flags.dontfork || vma_flags.external then (k,s,.error .EINVAL)
  else
    match file with
    | some ⟨_,.shm i,_,_,_⟩ =>
      let obj := k.shm_objects i
      if !obj.used then (k,s,.error .ENOENT)
      else if obj.size < requested_size then (k,s,.error .EINVAL)
      else
        let mapping_size := if requested_size ≠ 0 then align_up requested_size PAGE_SIZE else obj.size
        if mapping_size = 0 ∨ obj.size < mapping_size then (k,s,.error .EINVAL)
        else if addr ≠ 0 then
          if addr % PAGE_SIZE ≠ 0 ∨ addr < USER_SHM_START ∨ USER_SHM_END - USER_SHM_START < mapping_size ∨
              USER_SHM_END - mapping_size < addr then (k,s,.error .EINVAL)
          else map_object k s i addr mapping_size vma_flags
        else
          let vaddr := shm_find_free_vaddr s.vma_list mapping_size
          if vaddr = 0 then (k,s,.error .ENOMEM) else map_object k s i vaddr mapping_size vma_flags
    | _ => (k,s,.error .EBADF)

def SHM_MAP_READONLY : Nat := 1
def SHM_MAP_READWRITE : Nat := 2
def sys_shm_map (k : Kernel) (s : Space) (file : Option File) (addr flags : Nat) : Kernel × Space × Except Errno Nat :=
  if flags ≠ SHM_MAP_READONLY ∧ flags ≠ SHM_MAP_READWRITE then (k,s,.error .EINVAL)
  else shm_map_fd k s file addr 0 ⟨true,flags = SHM_MAP_READWRITE,false,false,true,false,false,false⟩

def sys_shm_unmap (k : Kernel) (s : Space) (addr size : Nat) : Kernel × Space × Option Errno :=
  if addr = 0 ∨ addr % PAGE_SIZE ≠ 0 then (k,s,some .EINVAL)
  else
    let size := align_up size PAGE_SIZE
    if size = 0 then (k,s,some .EINVAL)
    else if addr < USER_SHM_START ∨ USER_SHM_END - USER_SHM_START < size ∨ USER_SHM_END - size < addr then
      (k,s,some .EINVAL)
    else
      let stop := addr + size
      match find_vma s.vma_list addr with
      | none => (k,s,some .EINVAL)
      | some vma =>
        if !vma.flags.shared ∨ vma.start ≠ addr ∨ vma.stop ≠ stop then (k,s,some .EINVAL)
        else
          let (p,s) := unmap_pages false k.pool s addr (page_count addr stop)
          (shm_release_mapping { k with pool := p } vma.shm_id,
            { s with vma_list := remove_vma s.vma_list addr stop },none)

/-! ### Devices -/

/-- The loop of the device mappers, and whether it got through. -/
def map_device_pages (flags : Flags) : Pool → Space → Nat → List Nat → Pool × Space × Nat × Bool
  | p, s, vaddr, [] => (p,s,vaddr,true)
  | p, s, vaddr, physical :: rest =>
    match map_user_page p s vaddr physical flags with
    | (p,none) => (p,s,vaddr,false)
    | (p,some s) => map_device_pages flags p s (vaddr + PAGE_SIZE) rest

def framebuffer_pages (physical mapping_size : Nat) : List Nat :=
  (List.range (mapping_size / PAGE_SIZE)).map (fun i => physical + i * PAGE_SIZE)

/-- `framebuffer_map_fd` once `framebuffer_get_map` has returned the buffer. -/
def framebuffer_map_fd (k : Kernel) (s : Space) (physical mapping_size addr length : Nat) (vma_flags : Flags) :
    Kernel × Space × Except Errno Nat :=
  if !(vma_flags.read && vma_flags.write) then (k,s,.error .EACCES)
  else if length ≠ mapping_size then (k,s,.error .EINVAL)
  else if addr ≠ 0 ∧ (addr % PAGE_SIZE ≠ 0 ∨ addr < USER_MMAP_START ∨ USER_MMAP_END ≤ addr ∨
      USER_MMAP_END - addr < mapping_size) then (k,s,.error .EINVAL)
  else
    let vaddr :=
      if addr ≠ 0 then addr else vm_find_free_range s.vma_list 0 mapping_size USER_MMAP_START USER_MMAP_END
    if vaddr = 0 then (k,s,.error .ENOMEM)
    else
      let node := kmalloc k.pool
      let p := drawn k.pool
      match create_vma s.vma_list vaddr mapping_size vma_flags 0 node with
      | none => ({ k with pool := p },s,.error .ENOMEM)
      | some vmas =>
        match map_device_pages vma_flags p { s with vma_list := vmas } vaddr (framebuffer_pages physical mapping_size) with
        | (p,s,_,true) => ({ k with pool := p },s,.ok vaddr)
        | (p,s,stopped,false) =>
          let (p,s) := unmap_pages true p s vaddr (page_count vaddr stopped)
          ({ k with pool := p },{ s with vma_list := remove_vma s.vma_list vaddr (vaddr + mapping_size) },
            .error .ENOMEM)

def armos_drm_map_fd (k : Kernel) (s : Space) (buffers : List Buffer) (hint length : Nat) (vma_flags : Flags)
    (offset : Nat) : Kernel × Space × Except Errno Nat :=
  let handle := wrap32 (offset / PAGE_SIZE)
  if offset = 0 ∨ offset % PAGE_SIZE ≠ 0 ∨ handle * PAGE_SIZE ≠ offset then (k,s,.error .EINVAL)
  else
    match buffers.find? (fun buffer => buffer.handle = handle) with
    | none => (k,s,.error .ENOENT)
    | some buffer =>
      if (!buffer.cpu_read && vma_flags.read) || (!buffer.cpu_write && vma_flags.write) then (k,s,.error .EACCES)
      else
        let size := align_up length PAGE_SIZE
        if length = 0 ∨ size ≠ align_up buffer.size PAGE_SIZE then (k,s,.error .EINVAL)
        else
          let address := vm_find_free_range s.vma_list hint size USER_MMAP_START USER_MMAP_END
          if address = 0 then (k,s,.error .ENOMEM)
          else
            let node := kmalloc k.pool
            let p := drawn k.pool
            match create_vma s.vma_list address size vma_flags 0 node with
            | none => ({ k with pool := p },s,.error .ENOMEM)
            | some vmas =>
              match map_device_pages vma_flags p { s with vma_list := vmas } address buffer.pages with
              | (p,s,_,true) => ({ k with pool := p },s,.ok address)
              | (p,s,_,false) =>
                let (k,s,_) := vm_unmap_range { k with pool := p } s address size
                (k,s,.error .BACKEND)

/-! ### `mmap`, `munmap`, `mprotect` -/

def ARMOS_MAP_SHARED : Nat := 0x01
def ARMOS_MAP_PRIVATE : Nat := 0x02
def ARMOS_MAP_FIXED : Nat := 0x10
def ARMOS_MAP_ANON : Nat := 0x20
def ARMOS_PROT_READ : Nat := 1
def ARMOS_PROT_WRITE : Nat := 2
def ARMOS_PROT_EXEC : Nat := 4

/-- `flags & bit`. -/
def has (flags bit : Nat) : Bool := flags &&& bit ≠ 0
def prot_flags (prot : Nat) : Flags :=
  ⟨has prot ARMOS_PROT_READ,has prot ARMOS_PROT_WRITE,has prot ARMOS_PROT_EXEC,false,false,false,false,false⟩

/-- The loop of `sys_mmap` that reads a file into the new pages. -/
def read_pages (read : Nat → Nat → Except Errno (List Nat)) (vaddr length : Nat) :
    Nat → Pool → Space → Nat → Pool × Option Errno
  | 0, p, _, _ => (p,none)
  | turns + 1, p, s, copied =>
    if length ≤ copied then (p,none)
    else
      let phys := get_physical_page s (vaddr + align_down copied PAGE_SIZE)
      let page_off := copied % PAGE_SIZE
      let chunk := min (PAGE_SIZE - page_off) (length - copied)
      if phys = 0 then (p,some .EFAULT)
      else
        match read copied chunk with
        | .error errno => (p,some errno)
        | .ok bytes =>
          let bytes := bytes.take chunk
          let p := store_bytes p phys page_off bytes
          if bytes.length < chunk then (p,none) else read_pages read vaddr length turns p s (copied + bytes.length)

/-- The private mappings of `sys_mmap`. -/
def mmap_private (k : Kernel) (s : Space) (hint length : Nat) (vma_flags : Flags) (is_anon : Bool)
    (file : Option File) : Kernel × Space × Except Errno Nat :=
  let size := align_up length PAGE_SIZE
  let lazy_anon := is_anon && !vma_flags.exec
  let vma_flags := { vma_flags with lazy := lazy_anon }
  let vaddr := vm_find_free_range s.vma_list hint size USER_MMAP_START USER_MMAP_END
  if vaddr = 0 then (k,s,.error .ENOMEM)
  else
    let node := kmalloc k.pool
    let p := drawn k.pool
    match create_vma s.vma_list vaddr size vma_flags 0 node with
    | none => ({ k with pool := p },s,.error .ENOMEM)
    | some vmas =>
      let s := { s with vma_list := vmas }
      let undo (p : Pool) (s : Space) (errno : Errno) : Kernel × Space × Except Errno Nat :=
        let (k,s,_) := vm_unmap_range { k with pool := p } s vaddr size
        (k,s,.error errno)
      if lazy_anon then ({ k with pool := p },s,.ok vaddr)
      else
        match map_new_pages vma_flags cleared p s vaddr (page_count vaddr (vaddr + size)) with
        | (p,s,_,false) => undo p s .ENOMEM
        | (p,s,_,true) =>
          if is_anon then ({ k with pool := p },s,.ok vaddr)
          else
            match file with
            | some ⟨_,_,flags,_,some read⟩ =>
              if flags = .O_WRONLY then undo p s .EBADF
              else
                match read_pages read vaddr length (size / PAGE_SIZE + 1) p s 0 with
                | (p,some errno) => undo p s errno
                | (p,none) => ({ k with pool := p },s,.ok vaddr)
            | _ => undo p s .EBADF

def mmap_shared (k : Kernel) (s : Space) (addr length : Nat) (vma_flags : Flags) (is_anon : Bool) (file : Option File)
    (offset : Nat) : Kernel × Space × Except Errno Nat :=
  if is_anon ∨ vma_flags.exec then (k,s,.error .ENOSYS)
  else
    match file with
    | some ⟨_,.drm buffers,_,_,_⟩ =>
      armos_drm_map_fd k s buffers addr length { vma_flags with shared := true, dontfork := true, external := true }
        offset
    | file =>
      if offset ≠ 0 then (k,s,.error .EINVAL)
      else
        match file with
        | some ⟨_,.framebuffer physical mapping_size,_,_,_⟩ =>
          framebuffer_map_fd k s physical mapping_size addr length
            { vma_flags with shared := true, dontfork := true, external := true }
        | file => shm_map_fd k s file addr length { vma_flags with shared := true }

/-- `sys_mmap` on the file behind the descriptor. -/
def sys_mmap (k : Kernel) (s : Space) (addr length prot flags : Nat) (fd : Int) (file : Option File) (offset : Nat) :
    Kernel × Space × Except Errno Nat :=
  if flags &&& (ARMOS_MAP_SHARED ||| ARMOS_MAP_PRIVATE ||| ARMOS_MAP_FIXED ||| ARMOS_MAP_ANON) ≠ flags then
    (k,s,.error .EINVAL)
  else if has flags ARMOS_MAP_SHARED = has flags ARMOS_MAP_PRIVATE then (k,s,.error .EINVAL)
  else if has flags ARMOS_MAP_FIXED then (k,s,.error .ENOSYS)
  else if has flags ARMOS_MAP_ANON ∧ (fd ≠ -1 ∨ offset ≠ 0) then (k,s,.error .EINVAL)
  else if !has flags ARMOS_MAP_ANON ∧ (fd < 0 ∨ (MAX_FILES : Int) ≤ fd) then (k,s,.error .EBADF)
  else if length = 0 ∨ 7 < prot ∨ prot = 0 then (k,s,.error .EINVAL)
  else if align_up length PAGE_SIZE = 0 ∨ USER_MMAP_END - USER_MMAP_START < align_up length PAGE_SIZE then
    (k,s,.error .ENOMEM)
  else if has flags ARMOS_MAP_SHARED then
    mmap_shared k s addr length (prot_flags prot) (has flags ARMOS_MAP_ANON) file offset
  else if !has flags ARMOS_MAP_ANON ∧ offset ≠ 0 then (k,s,.error .EINVAL)
  else
    match has flags ARMOS_MAP_ANON,file with
    | false,some ⟨a,.shm i,f,c,r⟩ => shm_map_fd k s (some ⟨a,.shm i,f,c,r⟩) addr length (prot_flags prot)
    | is_anon,file => mmap_private k s addr length (prot_flags prot) is_anon file

def sys_munmap (k : Kernel) (s : Space) (addr length : Nat) : Kernel × Space × Option Errno :=
  if addr = 0 ∨ !IS_PAGE_ALIGNED addr ∨ length = 0 then (k,s,some .EINVAL)
  else
    let size := align_up length PAGE_SIZE
    if size = 0 ∨ wrap (addr + size) ≤ addr ∨ USER_SPACE_END < wrap (addr + size) then (k,s,some .EINVAL)
    else vm_unmap_range k s addr size

/-- The loop of `sys_mprotect`; `false` where it returns. -/
def protect_pages (writable : Bool) : Space → Nat → Nat → Space × Bool
  | s, _, 0 => (s,true)
  | s, page, count + 1 =>
    if get_physical_page s page = 0 then protect_pages writable s (page + PAGE_SIZE) count
    else
      match (if writable then set_user_page_writable s page else set_user_page_readonly s page) with
      | none => (s,false)
      | some s => protect_pages writable s (page + PAGE_SIZE) count

/-- An assignment to the flags of the area that `find_vma` finds. -/
def set_vma_flags (flags : Flags) (address : Nat) : List Area → List Area
  | [] => []
  | vma :: rest =>
    if vma.Has address then { vma with flags := flags } :: rest else vma :: set_vma_flags flags address rest

def sys_mprotect (s : Space) (addr length prot : Nat) : Space × Option Errno :=
  if addr = 0 ∨ !IS_PAGE_ALIGNED addr ∨ length = 0 then (s,some .EINVAL)
  else if prot = 0 ∨ 7 < prot then (s,some .EINVAL)
  else
    let size := align_up length PAGE_SIZE
    let stop := wrap (addr + size)
    if size = 0 ∨ stop ≤ addr ∨ USER_SPACE_END < stop then (s,some .EINVAL)
    else
      match find_vma s.vma_list addr with
      | none => (s,some .ENOSYS)
      | some vma =>
        if addr ≠ vma.start ∨ stop ≠ vma.stop then (s,some .ENOSYS)
        else
          let flags := prot_flags prot
          let flags := { flags with lazy := vma.flags.lazy && !flags.exec }
          match protect_pages flags.write s addr (page_count addr stop) with
          | (s,false) => (s,some .BACKEND)
          | (s,true) => ({ s with vma_list := set_vma_flags flags addr s.vma_list },none)

/-! ### `execve` -/

/-- `exec_image_segment_t`, with the bytes that its pages get. -/
structure Segment where
  (virtual_address memory_size : Nat)
  flags : Flags
  data : Nat → Buddy.Content
def USER_SPACE_START : Nat := 0x100000000

/-- The checks of `validate_image` on a loadable segment. -/
def segment_valid (segment : Segment) : Bool :=
  segment.memory_size ≠ 0 && USER_SPACE_START ≤ segment.virtual_address &&
    segment.virtual_address + segment.memory_size ≤ USER_SPACE_END &&
    segment.flags.read && !(segment.flags.write && segment.flags.exec) &&
    !segment.flags.kernel && !segment.flags.shared && !segment.flags.lazy && !segment.flags.dontfork &&
    !segment.flags.external

/-- `exec_map_segment`; the flag is whether it returned 0. -/
def exec_map_segment (p : Pool) (s : Space) (segment : Segment) : Pool × Space × Bool :=
  let page_start := page_of segment.virtual_address
  let page_end := align_up (segment.virtual_address + segment.memory_size) PAGE_SIZE
  match create_vma s.vma_list page_start (page_end - page_start) segment.flags 0 (kmalloc p) with
  | none => (drawn p,s,false)
  | some vmas =>
    match map_new_pages segment.flags segment.data (drawn p) { s with vma_list := vmas } page_start
        (page_count page_start page_end) with
    | (p,s,_,done) => (p,s,done)

def exec_load_image : Pool → Space → List Segment → Pool × Space × Bool
  | p, s, [] => (p,s,true)
  | p, s, segment :: rest =>
    if !segment_valid segment then (p,s,false)
    else
      match exec_map_segment p s segment with
      | (p,s,false) => (p,s,false)
      | (p,s,true) => exec_load_image p s rest

/-- `setup_user_stack`, where the arguments take `pages` pages. -/
def setup_user_stack (p : Pool) (s : Space) (pages : Nat) (data : Nat → Buddy.Content) : Pool × Space × Bool :=
  match create_vma s.vma_list (USER_STACK_BOTTOM + PAGE_SIZE) (USER_STACK_SIZE - PAGE_SIZE) Flags.read_write 0
      (kmalloc p) with
  | none => (drawn p,s,false)
  | some vmas =>
    if pages = 0 ∨ USER_STACK_SIZE - PAGE_SIZE < pages * PAGE_SIZE then (drawn p,{ s with vma_list := vmas },false)
    else
      match map_new_pages Flags.read_write data (drawn p) { s with vma_list := vmas }
          (USER_STACK_TOP - pages * PAGE_SIZE) pages with
      | (p,s,_,done) => (p,s,done)

def DEFAULT_SIGNAL_STACK_SIZE : Nat := 16 * 1024

/-- `allocate_process_signal_stack` at the address that it gets. -/
def map_signal_stack (base size : Nat) (p : Pool) (s : Space) : Pool × Space :=
  match create_vma s.vma_list base size { Flags.read_write with dontfork := true } 0 (kmalloc p) with
  | none => (drawn p,s)
  | some vmas =>
    match map_new_pages Flags.read_write cleared (drawn p) { s with vma_list := vmas } base
        (page_count base (base + size)) with
    | (p,s,_,true) => (p,s)
    | (p,s,stopped,false) =>
      let (p,s) := unmap_pages false p s base (page_count base stopped)
      (p,{ s with vma_list := remove_vma s.vma_list base (base + size) })

def allocate_process_signal_stack (p : Pool) (s : Space) : Pool × Space :=
  map_signal_stack USER_SIGNAL_REGION_START DEFAULT_SIGNAL_STACK_SIZE p s

/-- Segments, and what the arguments put on the stack. -/
structure Program where
  segments : List Segment
  stack_pages : Nat
  stack : Nat → Buddy.Content

/-- The space that `execve` builds, if it is finished. -/
def exec_space (k : Kernel) (program : Program) : Kernel × Option Space :=
  let created := kmalloc k.pool
  let p := drawn k.pool
  if !created then ({ k with pool := p },none)
  else
    match setup_user_stack p Space.initial program.stack_pages program.stack with
    | (p,s,false) => (destroy_vm_space { k with pool := p } s,none)
    | (p,s,true) =>
      match exec_load_image p s program.segments with
      | (p,s,false) => (destroy_vm_space { k with pool := p } s,none)
      | (p,s,true) => ({ k with pool := p },some s)

end ArmOS.Syscalls

