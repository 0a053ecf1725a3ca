import ArmOS.Disk

/-!
A mounted ext2 volume: the allocators over their bitmaps, and the inodes that wait
to be written. `kmalloc` and the device do not fail; times are left out. The group
descriptors are a table, which no other function writes.
-/
namespace ArmOS.Volumes
open Bytes Disk Function

/-- What `ext2_mount` reads from the superblock (`ext2_fs_t`). -/
structure Fs where
  (block_size sectors_per_block first_data_block blocks_count groups_count inodes_per_group : Nat)
  blocks_per_group : Nat
structure GroupDesc where
  (bg_block_bitmap bg_inode_bitmap bg_free_blocks_count bg_free_inodes_count bg_used_dirs_count : Nat)

/-- The fields of `ext2_superblock_t` that are used. -/
structure Superblock where
  (s_inodes_count s_free_blocks_count s_free_inodes_count : Nat)

structure Volume where
  store : Store
  sb : Superblock
  groups : Nat → GroupDesc
  /-- `ext2_pending_inodes`, a slot is `none` when it is not valid -/
  pending : List (Option (Nat × Inode))
  (alloc_group_hint alloc_bit_hint : Nat)

/-! ### Blocks -/

section
variable (fs : Fs)

def group_first (group : Nat) : Nat := fs.first_data_block + group * fs.blocks_per_group
def group_blocks (group : Nat) : Nat := min fs.blocks_per_group (fs.blocks_count - group_first fs group)

/-- The test of one bit in the loop of `ext2_alloc_block`. -/
def takes_bit (bitmap : Buffer) (group bit : Nat) : Bool :=
  group_first fs group + bit ≠ 0 && group_first fs group + bit < fs.blocks_count && !bitmap_test bitmap bit

/-- The two passes over the bits, from the hint and up to it. -/
def find_bit (bitmap : Buffer) (group first_bit : Nat) : Option Nat :=
  ((List.range' first_bit (group_blocks fs group - first_bit)).find? (takes_bit fs bitmap group)).or
    ((List.range first_bit).find? (takes_bit fs bitmap group))
def start_group (v : Volume) : Nat := if v.alloc_group_hint < fs.groups_count then v.alloc_group_hint else 0
def first_bit (v : Volume) (group : Nat) : Nat :=
  let hint := if group = start_group fs v then v.alloc_bit_hint else 0
  if group_blocks fs group ≤ hint then 0 else hint

/-- The search of one group in `ext2_alloc_block`. -/
def search_group (v : Volume) (group : Nat) : Option (Nat × Nat) :=
  if (v.groups group).bg_free_blocks_count = 0 then none
  else if fs.blocks_count ≤ group_first fs group then none
  else (find_bit fs (v.store.read (v.groups group).bg_block_bitmap) group (first_bit fs v group)).map (group,·)

/-- The loop over the groups, from the hint on and around. -/
def search_blocks (v : Volume) : Option (Nat × Nat) :=
  (List.range fs.groups_count).findSome? fun group_offset =>
    search_group fs v ((start_group fs v + group_offset) % fs.groups_count)

/-- Zeroes the block, marks it and counts it. -/
def take_block (v : Volume) (group bit : Nat) : Volume :=
  let gd := v.groups group
  let bitmap := bitmap_set (v.store.read gd.bg_block_bitmap) bit
  let store := v.store.write_allocation_block (group_first fs group + bit) zeroes
  let wraps := group_blocks fs group ≤ bit + 1
  { v with
    store := store.write_allocation_block gd.bg_block_bitmap bitmap
    groups := update v.groups group { gd with bg_free_blocks_count := gd.bg_free_blocks_count - 1 }
    sb := { v.sb with s_free_blocks_count := v.sb.s_free_blocks_count - 1 }
    alloc_group_hint := if wraps then (group + 1) % fs.groups_count else group
    alloc_bit_hint := if wraps then 0 else bit + 1 }

/-- `ext2_alloc_block`; `none` is `-ENOSPC`. -/
def alloc_block (v : Volume) : Option Nat × Volume :=
  if v.sb.s_free_blocks_count = 0 then (none,v)
  else
    match search_blocks fs v with
    | none => (none,v)
    | some (group,bit) => (some (group_first fs group + bit),take_block fs v group bit)

/-- Clears the bit of a block and counts it, if set. -/
def clear_block (group : Nat) (state : Buffer × Nat) (block : Nat) : Buffer × Nat :=
  if bitmap_test state.1 (block - group_first fs group) then
    (bitmap_clear state.1 (block - group_first fs group),state.2 + 1)
  else state
def in_group (group block : Nat) : Bool :=
  group_first fs group ≤ block && block < group_first fs group + group_blocks fs group

/-- The loop body of `ext2_free_block_list`. -/
def free_in_group (blocks : List Nat) (state : Volume × Nat) (group : Nat) : Volume × Nat :=
  let (v,total_freed) := state
  let gd := v.groups group
  let (bitmap,freed) := (blocks.filter (in_group fs group)).foldl (clear_block fs group) (v.store.read gd.bg_block_bitmap,0)
  if freed = 0 then state
  else
    ({ v with
      store := v.store.write_block gd.bg_block_bitmap bitmap
      groups := update v.groups group
        { gd with bg_free_blocks_count := (gd.bg_free_blocks_count + freed) % 2 ^ 16 } },total_freed + freed)

/-- `ext2_free_block_list`; `none` is `-EINVAL`. -/
def free_block_list (v : Volume) (blocks : List Nat) : Option Volume :=
  if blocks.any (fun block => block ≠ 0 && (block < fs.first_data_block || fs.blocks_count ≤ block)) then none
  else
    let groups := (List.range fs.groups_count).takeWhile (fun group => group_first fs group < fs.blocks_count)
    let (v,total_freed) := groups.foldl (free_in_group fs blocks) (v,0)
    some (if total_freed = 0 then v
      else { v with sb := { v.sb with s_free_blocks_count := (v.sb.s_free_blocks_count + total_freed) % 2 ^ 32 } })

end

/-! ### The inode table -/

def find_pending_inode (v : Volume) (ino : Nat) : Option Inode :=
  v.pending.findSome? fun slot => slot.bind fun entry => if entry.1 = ino then some entry.2 else none

/-- `ext2_read_disk_inode`: a pending inode is newer. -/
def read_disk_inode (v : Volume) (ino : Nat) : Inode :=
  (find_pending_inode v ino).getD (v.store.device.inodes ino)

/-- The slots without the inode. -/
def forget_pending (ino : Nat) (pending : List (Option (Nat × Inode))) : List (Option (Nat × Inode)) :=
  pending.map fun slot => if slot.any (fun entry => entry.1 = ino) then none else slot

/-- `ext2_write_disk_inode`; a pending copy is dropped. -/
def write_disk_inode (v : Volume) (ino : Nat) (content : Inode) : Volume :=
  { v with
    store := v.store.write_inode ino content
    pending := forget_pending ino v.pending }

/-- Fills the first slot that is not valid. -/
def fill_slot (entry : Nat × Inode) : List (Option (Nat × Inode)) → Option (List (Option (Nat × Inode)))
  | [] => none
  | none :: rest => some (some entry :: rest)
  | some other :: rest => (fill_slot entry rest).map (some other :: ·)

/-- `ext2_queue_pending_inode`; `none` is `-ENOSPC`. -/
def queue_pending_inode (v : Volume) (ino : Nat) (content : Inode) : Option Volume :=
  if (find_pending_inode v ino).isSome then
    some { v with
      pending := v.pending.map fun slot => slot.map fun entry => if entry.1 = ino then (ino,content) else entry }
  else (fill_slot (ino,content) v.pending).map fun pending => { v with pending := pending }

/-! ### Inodes -/

section
variable (fs : Fs)

def group_first_ino (group : Nat) : Nat := group * fs.inodes_per_group + 1

/-- The difference, where the group starts below `s_inodes_count`. -/
def group_inodes (sb : Superblock) (group : Nat) : Nat :=
  min fs.inodes_per_group (sb.s_inodes_count + 1 - group_first_ino fs group)

/-- The search of one group in `ext2_alloc_inode`. -/
def search_inodes_in (v : Volume) (group : Nat) : Option (Nat × Nat) :=
  if (v.groups group).bg_free_inodes_count = 0 then none
  else if v.sb.s_inodes_count < group_first_ino fs group then none
  else
    let bitmap := v.store.read (v.groups group).bg_inode_bitmap
    ((List.range (group_inodes fs v.sb group)).find? fun bit =>
      !bitmap_test bitmap bit && group_first_ino fs group + bit ≤ v.sb.s_inodes_count).map (group,·)

def search_inodes (v : Volume) : Option (Nat × Nat) := (List.range fs.groups_count).findSome? (search_inodes_in fs v)

/-- Marks the inode in the bitmap and counts it. -/
def take_inode (v : Volume) (group bit : Nat) : Volume :=
  let gd := v.groups group
  { v with
    store := v.store.write_block gd.bg_inode_bitmap (bitmap_set (v.store.read gd.bg_inode_bitmap) bit)
    groups := update v.groups group { gd with bg_free_inodes_count := gd.bg_free_inodes_count - 1 }
    sb := { v.sb with s_free_inodes_count := v.sb.s_free_inodes_count - 1 } }

/-- `ext2_alloc_inode`; `none` is `-ENOSPC`. -/
def alloc_inode (v : Volume) : Option Nat × Volume :=
  if v.sb.s_free_inodes_count = 0 then (none,v)
  else
    match search_inodes fs v with
    | none => (none,v)
    | some (group,bit) => (some (group_first_ino fs group + bit),take_inode v group bit)

/-- Zeroes the inode, clears its bit and counts it. -/
def release_inode (v : Volume) (ino group bit : Nat) : Volume :=
  let gd := v.groups group
  let bitmap := bitmap_clear (v.store.read gd.bg_inode_bitmap) bit
  let v := write_disk_inode v ino Inode.zero
  { v with
    store := v.store.write_block gd.bg_inode_bitmap bitmap
    groups := update v.groups group
      { gd with bg_free_inodes_count := (gd.bg_free_inodes_count + 1) % 2 ^ 16 }
    sb := { v.sb with s_free_inodes_count := (v.sb.s_free_inodes_count + 1) % 2 ^ 32 } }

/-- `ext2_free_inode`; `none` is `-EINVAL`. A free inode is left alone. -/
def free_inode (v : Volume) (ino : Nat) : Option Volume :=
  let group := (ino - 1) / fs.inodes_per_group
  let bit := (ino - 1) % fs.inodes_per_group
  if ino = 0 ∨ v.sb.s_inodes_count < ino ∨ fs.groups_count ≤ group then none
  else if bitmap_test (v.store.read (v.groups group).bg_inode_bitmap) bit then some (release_inode v ino group bit)
  else some v

end

end ArmOS.Volumes

