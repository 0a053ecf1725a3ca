import ArmOS.Shm
import ArmOS.Vm

/-!
The operations of `kernel/memory/virtual.c` on whole address spaces: unmapping a
range, forking and destroying a space.
-/
namespace ArmOS.Fork
open Words Vma Frames Vm Shm
open Physical (PAGE_SIZE)

/-- A shared area of an object that is given up releases its mapping. -/
def release_vma (k : Kernel) (vma : Area) : Kernel :=
  if vma.flags.shared && !vma.flags.external then shm_release_mapping k vma.shm_id else k
def vm_release_vmas (k : Kernel) (vmas : List Area) : Kernel := vmas.foldl release_vma k
def unmap_cut (k : Kernel) (s : Space) (vma : Area) (cut_start cut_end : Nat) : Kernel × Space :=
  let (p,s) := unmap_pages vma.flags.external k.pool s cut_start (page_count cut_start cut_end)
  ({ k with pool := p },s)

/-- The second loop of `vm_unmap_range`; `false` is out of memory. -/
def cut_areas (start stop : Nat) : Kernel → Space → List Area → Kernel × Space × List Area × Bool
  | k, s, [] => (k,s,[],true)
  | k, s, vma :: rest =>
    let keep (vmas : List Area) (r : Kernel × Space × List Area × Bool) := (r.1,r.2.1,vmas ++ r.2.2.1,r.2.2.2)
    let cut_start := max start vma.start
    let cut_end := min stop vma.stop
    if vma.stop ≤ start then keep [vma] (cut_areas start stop k s rest)
    else if stop ≤ vma.start then (k,s,vma :: rest,true)
    else if cut_end ≤ cut_start then keep [vma] (cut_areas start stop k s rest)
    else if vma.start < cut_start ∧ cut_end < vma.stop then
      if !kmalloc k.pool then ({ k with pool := drawn k.pool },s,vma :: rest,false)
      else
        let (k,s) := unmap_cut { k with pool := drawn k.pool } s vma cut_start cut_end
        keep [{ vma with stop := cut_start },{ vma with start := cut_end }] (cut_areas start stop k s rest)
    else
      let (k,s) := unmap_cut k s vma cut_start cut_end
      if cut_start = vma.start ∧ cut_end = vma.stop then cut_areas start stop (release_vma k vma) s rest
      else if cut_start = vma.start then keep [{ vma with start := cut_end }] (cut_areas start stop k s rest)
      else keep [{ vma with stop := cut_start }] (cut_areas start stop k s rest)

/-- The first loop of `vm_unmap_range`: shared areas are whole. -/
def shared_whole (start stop : Nat) (vmas : List Area) : Bool :=
  vmas.all (fun vma =>
    !vm_range_overlaps vma start stop || !vma.flags.shared ||
      (max start vma.start = vma.start && min stop vma.stop = vma.stop))

/-- `vm_unmap_range`; `none` is the result 0. -/
def vm_unmap_range (k : Kernel) (s : Space) (start size : Nat) : Kernel × Space × Option Errno :=
  if size = 0 ∨ !IS_PAGE_ALIGNED start then (k,s,some .EINVAL)
  else
    let stop := wrap (start + align_up size PAGE_SIZE)
    if stop ≤ start ∨ USER_SPACE_END < stop then (k,s,some .EINVAL)
    else if !shared_whole start stop s.vma_list then (k,s,some .EINVAL)
    else
      let (k,s,vmas,done) := cut_areas start stop k s s.vma_list
      (k,{ s with vma_list := vmas },if done then none else some .ENOMEM)

/-- `vm_clone_resident_page` on kernel, parent and child. -/
def vm_clone_resident_page (p : Pool) (parent child : Space) (vma : Area) (page : Nat) :
    Pool × Space × Space × Bool :=
  let physical := get_physical_page parent page
  if physical = 0 then (p,parent,child,true)
  else
    match page_ref_inc p physical with
    | none => (p,parent,child,false)
    | some p =>
      match (if vma.flags.write && !vma.flags.shared then set_user_page_readonly parent page else some parent) with
      | none => (free_page p physical,parent,child,false)
      | some parent =>
        match (if vma.flags.shared then map_user_page p child page physical vma.flags
            else map_user_page_readonly p child page physical vma.flags) with
        | (p,some child) => (p,parent,child,true)
        | (p,none) =>
          let p := free_page p physical
          if vma.flags.write && page_ref_count p physical == 1 then
            (p,(set_user_page_writable parent page).getD parent,child,false)
          else (p,parent,child,false)

def clone_pages (vma : Area) : Pool → Space → Space → Nat → Nat → Pool × Space × Space × Bool
  | p, parent, child, _, 0 => (p,parent,child,true)
  | p, parent, child, page, count + 1 =>
    match vm_clone_resident_page p parent child vma page with
    | (p,parent,child,false) => (p,parent,child,false)
    | (p,parent,child,true) => clone_pages vma p parent child (page + PAGE_SIZE) count

/-- The loop of `fork_vm_space` over the areas of the parent. -/
def clone_areas : Kernel → Space → Space → List Area → Kernel × Space × Space × Bool
  | k, parent, child, [] => (k,parent,child,true)
  | k, parent, child, source :: rest =>
    if source.stop ≤ source.start ∨ source.flags.dontfork then clone_areas k parent child rest
    else
      let node := kmalloc k.pool
      let k := { k with pool := drawn k.pool }
      match create_vma child.vma_list source.start (source.stop - source.start) source.flags source.shm_id node with
      | none => (k,parent,child,false)
      | some vmas =>
        let child := { child with vma_list := vmas }
        let k := if source.flags.shared then shm_retain_mapping k source.shm_id else k
        match clone_pages source k.pool parent child (page_of source.start)
            (page_count (page_of source.start) (align_up source.stop PAGE_SIZE)) with
        | (p,parent,child,false) => ({ k with pool := p },parent,child,false)
        | (p,parent,child,true) => clone_areas { k with pool := p } parent child rest

/-- `arm64_user_vm_destroy` gives the pages back. -/
def release_mapping (p : Pool) (m : Mapping) : Pool :=
  if m.flags.external then p else free_page p m.physical_address

/-- `destroy_vm_space` of a space that no processor runs in. -/
def destroy_vm_space (k : Kernel) (s : Space) : Kernel :=
  vm_release_vmas { k with pool := s.mappings.foldl release_mapping k.pool } s.vma_list

/-- `fork_vm_space`: the parent write protected, and the child. -/
def fork_vm_space (k : Kernel) (parent : Space) : Kernel × Space × Option Space :=
  let created := kmalloc k.pool
  let k := { k with pool := drawn k.pool }
  if !created then (k,parent,none)
  else
    match clone_areas k parent Space.initial parent.vma_list with
    | (k,parent,child,false) => (destroy_vm_space k child,parent,none)
    | (k,parent,child,true) =>
      (k,parent,some { child with heap_start := parent.heap_start, heap_end := parent.heap_end, brk := parent.brk })

end ArmOS.Fork

