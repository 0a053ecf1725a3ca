import ArmOS.Frames

/-!
The shared memory objects of `kernel/syscalls/shm.c`: a table of 32 objects, each
with its frames and with the numbers of its handles and of its shared areas. The
last of these to go destroys an unlinked object.
-/
namespace ArmOS.Shm
open Words Frames
open Physical (PAGE_SIZE)

def SHM_MAX_OBJECTS : Nat := 32
def SHM_GLOBAL_MAX_BYTES : Nat := 256 * 1024 * 1024
def SHM_GLOBAL_MAX_PAGES : Nat := SHM_GLOBAL_MAX_BYTES / PAGE_SIZE

/-- `shm_object_t`; `phys` are the entries in use. -/
structure Object where
  (used unlinked : Bool)
  id : Nat
  name : String
  (size page_capacity : Nat)
  phys : List Nat
  (mappings handles : Nat)
deriving DecidableEq, Repr

def Object.pages (obj : Object) : Nat := obj.phys.length

/-- An object that `memset` has cleared. -/
def Object.zero : Object := ⟨false,false,0,"",0,0,[],0,0⟩

/-- The globals of `shm.c` and the frames. -/
structure Kernel where
  pool : Pool
  shm_objects : Nat → Object
  (shm_next_id shm_global_pages : Nat)
def Kernel.setObject (k : Kernel) (i : Nat) (obj : Object) : Kernel :=
  { k with shm_objects := Function.update k.shm_objects i obj }
def find_object (k : Kernel) (test : Object → Bool) : Option Nat :=
  (List.range SHM_MAX_OBJECTS).find? (fun i => test (k.shm_objects i))
def shm_find_by_name (k : Kernel) (name : String) : Option Nat :=
  find_object k (fun obj => obj.used && !obj.unlinked && obj.name == name)
def shm_find_by_id (k : Kernel) (id : Nat) : Option Nat := find_object k (fun obj => obj.used && obj.id == id)
def shm_alloc_slot (k : Kernel) : Option Nat := find_object k (fun obj => !obj.used)
def free_pages (p : Pool) (pages : List Nat) : Pool := pages.foldl free_page p

def shm_free_object_pages (k : Kernel) (i : Nat) : Kernel :=
  let obj := k.shm_objects i
  let pages := obj.pages
  { k with
    pool := free_pages k.pool obj.phys
    shm_global_pages := if pages ≤ k.shm_global_pages then k.shm_global_pages - pages else 0
    shm_objects := Function.update k.shm_objects i { obj with phys := [], page_capacity := 0 } }

def shm_try_destroy_locked (k : Kernel) (i : Nat) : Kernel :=
  let obj := k.shm_objects i
  if !obj.used || !obj.unlinked || obj.mappings ≠ 0 || obj.handles ≠ 0 then k
  else (shm_free_object_pages k i).setObject i Object.zero

/-- The allocation loop of `shm_resize_locked`, with what it got. -/
def allocate_object_pages : Pool → Nat → Pool × List Nat
  | p, 0 => (p,[])
  | p, count + 1 =>
    match allocate_page p with
    | (p,none) => (p,[])
    | (p,some page) =>
      let (p,pages) := allocate_object_pages p count
      (p,page :: pages)

/-- The error codes; `BACKEND` comes from the page tables. -/
inductive Errno
  | EINVAL | ENOMEM | EFAULT | EACCES | ENOENT | EBADF | EEXIST | EFBIG | EBUSY | ENOSPC | ENFILE | EMFILE | ENOSYS
  | ENOEXEC | EIO | BACKEND
deriving DecidableEq, Repr

/-- `shm_resize_locked`; `none` is the result 0. -/
def shm_resize_locked (k : Kernel) (i requested_size : Nat) : Kernel × Option Errno :=
  let obj := k.shm_objects i
  if !obj.used then (k,some .EINVAL)
  else if SHM_GLOBAL_MAX_BYTES < requested_size then (k,some .EFBIG)
  else
    let requested_size := align_up requested_size PAGE_SIZE
    let new_pages := requested_size / PAGE_SIZE
    let old_pages := obj.pages
    if new_pages = old_pages then (k.setObject i { obj with size := requested_size },none)
    else if new_pages < old_pages then
      if obj.mappings ≠ 0 then (k,some .EBUSY)
      else
        (({ k with
            pool := free_pages k.pool (obj.phys.drop new_pages)
            shm_global_pages := k.shm_global_pages - (old_pages - new_pages) }).setObject i
          { obj with phys := obj.phys.take new_pages, size := requested_size },none)
    else if SHM_GLOBAL_MAX_PAGES - k.shm_global_pages < new_pages - old_pages then (k,some .ENOSPC)
    else
      let grow : Bool := obj.page_capacity < new_pages
      if grow && !kmalloc k.pool then ({ k with pool := drawn k.pool },some .ENOMEM)
      else
        let (p,pages) := allocate_object_pages (if grow then drawn k.pool else k.pool) (new_pages - old_pages)
        if pages.length ≠ new_pages - old_pages then ({ k with pool := free_pages p pages.reverse },some .ENOMEM)
        else
          (({ k with
              pool := p
              shm_global_pages := k.shm_global_pages + (new_pages - old_pages) }).setObject i
            { obj with
              phys := obj.phys ++ pages
              page_capacity := if grow then new_pages else obj.page_capacity
              size := requested_size },none)

def shm_retain_mapping (k : Kernel) (shm_id : Nat) : Kernel :=
  match shm_find_by_id k shm_id with
  | none => k
  | some i => k.setObject i { k.shm_objects i with mappings := (k.shm_objects i).mappings + 1 }

def shm_release_mapping (k : Kernel) (shm_id : Nat) : Kernel :=
  match shm_find_by_id k shm_id with
  | none => k
  | some i =>
    shm_try_destroy_locked (k.setObject i { k.shm_objects i with mappings := (k.shm_objects i).mappings - 1 }) i

/-- A handle of an object is gone: `shm_file_close`. -/
def shm_drop_handle (k : Kernel) (i : Nat) : Kernel :=
  let obj := k.shm_objects i
  let k := if obj.used && 0 < obj.handles then k.setObject i { obj with handles := obj.handles - 1 } else k
  shm_try_destroy_locked k i

end ArmOS.Shm

