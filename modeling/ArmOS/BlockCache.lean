import ArmOS.Bytes

/-!
The block cache of the ext2 file system: 256 sets of eight entries, a clock in each,
metadata written through and data dirty until a flush. Every operation runs under
`ext2_op_lock`. The device does not fail; memory may run out, which `pages` and the
capacity of a batch stand for.
-/
namespace ArmOS.BlockCache
open Bytes Function

/-- The part of `ext2_fs_t` that places blocks and inodes. -/
structure Geometry where
  (block_size gdesc_block inodes_per_group inode_size : Nat)
def EXT2_BLOCK_CACHE_SETS : Nat := 256
def EXT2_BLOCK_CACHE_WAYS : Nat := 8
def EXT2_BLOCK_CACHE_SIZE : Nat := EXT2_BLOCK_CACHE_SETS * EXT2_BLOCK_CACHE_WAYS
def EXT2_IO_MAX_BLOCKS : Nat := 16

/-- The largest block number, "no block" to the flush. -/
def NO_BLOCK : Nat := 2 ^ 32 - 1

/-- The size of `ext2_superblock_t` and its place on the device. -/
def SUPERBLOCK_SIZE : Nat := 90
def SUPERBLOCK_OFFSET : Nat := 1024
def INODE_SIZE : Nat := 128

/-- `ext2_block_cache_entry_t`. -/
structure Entry where
  (valid dirty : Bool)
  block : Nat
  data : Option Buffer

/-- The device, the cache and what else `ext2_sync` writes. -/
structure Cache where
  /-- what a read of the device returns -/
  disk : Buffer
  /-- what the device held at the last `blk_flush` -/
  stable : Buffer
  entries : Nat → Entry
  /-- `ext2_block_cache_set_clock` -/
  clock : Nat → Nat
  cache_dirty_blocks : Nat
  /-- `ext2_dirty` -/
  dirty : Bool
  /-- `ext2_sb_cache` and `ext2_sb_cache_dirty` -/
  sb : Buffer
  sb_dirty : Bool
  /-- `ext2_pending_inodes`, a slot is `none` when it is not valid -/
  pending : List (Option (Nat × Buffer))
  /-- whether `allocate_page` has a page, for each time it is asked -/
  pages : List Bool

def set_index (block : Nat) : Nat := (block ^^^ (block >>> 8) ^^^ (block >>> 16)) % EXT2_BLOCK_CACHE_SETS

/-- The entries of the set of a block (`ext2_block_cache_set`). -/
def ways (block : Nat) : List Nat := List.range' (set_index block * EXT2_BLOCK_CACHE_WAYS) EXT2_BLOCK_CACHE_WAYS
def find (c : Cache) (block : Nat) : Option Nat :=
  (ways block).find? fun i => (c.entries i).valid && (c.entries i).block == block

/-- The clock moves on to the first entry that is not dirty and drops it. -/
def scan_clock (set : Nat) : Nat → Cache → Option Nat × Cache
  | 0, c => (none,c)
  | n + 1, c =>
    let i := set * EXT2_BLOCK_CACHE_WAYS + c.clock set % EXT2_BLOCK_CACHE_WAYS
    let c := { c with clock := update c.clock set (c.clock set + 1) }
    if (c.entries i).dirty then scan_clock set n c
    else (some i,{ c with entries := update c.entries i { c.entries i with valid := false } })

def pick (c : Cache) (block : Nat) : Option Nat × Cache :=
  match (ways block).find? (fun i => !(c.entries i).valid) with
  | some i => (some i,c)
  | none => scan_clock (set_index block) EXT2_BLOCK_CACHE_WAYS c
def slot_for (c : Cache) (block : Nat) : Option Nat × Cache :=
  match find c block with
  | some i => (some i,c)
  | none => pick c block

/-- `ext2_block_cache_data`: whether the entry has a buffer now. -/
def block_cache_data (c : Cache) (i : Nat) : Bool × Cache :=
  match (c.entries i).data with
  | some _ => (true,c)
  | none =>
    match c.pages with
    | false :: pages => (false,{ c with pages := pages })
    | pages =>
      (true,{ c with
        entries := update c.entries i { c.entries i with data := some zeroes }
        pages := pages.tail })

def install (c : Cache) (i block : Nat) (content : Buffer) (dirty : Bool) : Cache :=
  { c with entries := update c.entries i ⟨true,dirty,block,some content⟩ }

section
variable (g : Geometry)

def disk_block (disk : Buffer) (block : Nat) : Buffer := fun i => disk (block * g.block_size + i)

/-- `blk_write_sectors` for one block. -/
def write_disk (disk : Buffer) (block : Nat) (content : Buffer) : Buffer :=
  copy disk (block * g.block_size) content 0 g.block_size

/-- The buffer of the block's entry, if it has one. -/
def cached (c : Cache) (block : Nat) : Option (Nat × Buffer) :=
  (find c block).bind fun i => (c.entries i).data.map (i,·)

/-- A copy of a block of the device goes into the entry. -/
def keep_copy (block : Nat) (content : Buffer) (choice : Option Nat × Cache) : Cache :=
  match choice with
  | (none,c) => c
  | (some i,c) =>
    let (buffered,c) := block_cache_data c i
    if buffered then install c i block content false else c

def read_block (c : Cache) (block : Nat) : Buffer × Cache :=
  match cached c block with
  | some (_,content) => (content,c)
  | none =>
    let content := disk_block g c.disk block
    (content,keep_copy block content (slot_for c block))

/-- The loop over the blocks read: dirty entries are newer. -/
def merge_blocks : List Nat → Cache → List Buffer × Cache
  | [], c => ([],c)
  | block :: rest, c =>
    let content := disk_block g c.disk block
    match cached c block with
    | some (i,newer) =>
      let newest := if (c.entries i).dirty then newer else content
      let (contents,c) := merge_blocks rest c
      (newest :: contents,c)
    | none =>
      let (contents,c) := merge_blocks rest (keep_copy block content (pick c block))
      (content :: contents,c)

/-- `ext2_read_contiguous_blocks`; `none` is `-EINVAL`. -/
def read_contiguous_blocks (c : Cache) (first_block block_count : Nat) : Option (List Buffer) × Cache :=
  let blocks := List.range' first_block block_count
  if block_count = 0 ∨ EXT2_IO_MAX_BLOCKS < block_count then (none,c)
  else if blocks.all (fun block => (cached c block).isSome) then
    (some (blocks.filterMap fun block => (cached c block).map Prod.snd),c)
  else
    let (contents,c) := merge_blocks g blocks c
    (some contents,c)

def write_block (c : Cache) (block : Nat) (content : Buffer) : Cache :=
  match slot_for { c with disk := write_disk g c.disk block content, dirty := true } block with
  | (none,c) => c
  | (some i,c) =>
    let (buffered,c) := block_cache_data c i
    if buffered then
      install { c with
        cache_dirty_blocks := if (c.entries i).dirty then c.cache_dirty_blocks - 1 else c.cache_dirty_blocks }
        i block content false
    else c

def write_data_block (c : Cache) (block : Nat) (content : Buffer) : Cache :=
  match slot_for c block with
  | (none,c) => write_block g c block content
  | (some i,c) =>
    let (buffered,c) := block_cache_data c i
    if buffered then
      install { c with
        cache_dirty_blocks := if (c.entries i).dirty then c.cache_dirty_blocks else c.cache_dirty_blocks + 1
        dirty := true } i block content true
    else write_block g c block content

/-! ### Flushing -/

def first_dirty (c : Cache) : Nat :=
  (List.range EXT2_BLOCK_CACHE_SIZE).foldl (fun first i =>
    if (c.entries i).valid && (c.entries i).dirty && (c.entries i).block < first then (c.entries i).block else first)
    NO_BLOCK

/-- The dirty blocks from `block` on without a gap, at most `room`. -/
def gather (c : Cache) : Nat → Nat → List (Nat × Buffer)
  | 0, _ => []
  | room + 1, block =>
    match cached c block with
    | some (i,content) => if (c.entries i).dirty then (block,content) :: gather c room (block + 1) else []
    | none => []

def mark_clean (c : Cache) (block : Nat) : Cache :=
  match find c block with
  | none => c
  | some i =>
    if (c.entries i).dirty then
      { c with
        entries := update c.entries i { c.entries i with dirty := false }
        cache_dirty_blocks := c.cache_dirty_blocks - 1 }
    else c

def flush_batch (capacity : Nat) (c : Cache) : Cache :=
  let batch := gather c capacity (first_dirty c)
  let written := { c with disk := batch.foldl (fun disk entry => write_disk g disk entry.1 entry.2) c.disk }
  batch.foldl (fun c entry => mark_clean c entry.1) written

/-- The rounds of `ext2_flush_dirty_blocks`; `none` is out of fuel. -/
def flush_rounds (capacity : Nat) : Nat → Cache → Option Cache
  | 0, _ => none
  | fuel + 1, c => if first_dirty c = NO_BLOCK then some c else flush_rounds capacity fuel (flush_batch g capacity c)

/-- More rounds than there are entries. -/
def FLUSH_ROUNDS : Nat := EXT2_BLOCK_CACHE_SIZE + 1

/-- `ext2_flush_dirty_blocks` with a batch of `capacity` blocks. -/
def flush_dirty_blocks (c : Cache) (capacity : Nat) : Option Cache :=
  if c.cache_dirty_blocks = 0 then some c
  else if capacity = 0 then none
  else flush_rounds g capacity FLUSH_ROUNDS c

/-! ### Inodes and the superblock -/

def inode_location (c : Cache) (ino : Nat) : (Nat × Nat) × Cache :=
  let group := (ino - 1) / g.inodes_per_group
  let index := (ino - 1) % g.inodes_per_group
  let descs_per_block := g.block_size / 32
  let (descs,c) := read_block g c (g.gdesc_block + group / descs_per_block)
  let bg_inode_table := load 4 descs (group % descs_per_block * 32 + 8)
  let inodes_per_block := g.block_size / g.inode_size
  ((bg_inode_table + index / inodes_per_block,index % inodes_per_block * g.inode_size),c)

def write_disk_inode (c : Cache) (ino : Nat) (inode : Buffer) : Cache :=
  let (place,c) := inode_location g c ino
  let (content,c) := read_block g c place.1
  let c := write_block g c place.1 (copy content place.2 inode 0 INODE_SIZE)
  { c with pending := c.pending.map fun slot => if slot.any (fun entry => entry.1 = ino) then none else slot }

/-- `ext2_queue_pending_inode`; a full table changes nothing. -/
def queue_pending_inode (c : Cache) (ino : Nat) (inode : Buffer) : Cache :=
  match c.pending.findIdx? (fun slot => slot.any fun entry => entry.1 = ino) with
  | some i => { c with pending := c.pending.set i (some (ino,inode)), dirty := true }
  | none =>
    match c.pending.findIdx? (·.isNone) with
    | some i => { c with pending := c.pending.set i (some (ino,inode)), dirty := true }
    | none => c

def flush_pending_inodes (c : Cache) : Cache :=
  c.pending.foldl (fun c slot =>
    match slot with
    | none => c
    | some (ino,inode) => write_disk_inode g c ino inode) c

def write_superblock (c : Cache) (sb : Buffer) : Cache := { c with sb := sb, sb_dirty := true, dirty := true }
def blk_flush (c : Cache) : Cache := { c with stable := c.disk }
def write_superblock_disk (c : Cache) : Cache :=
  { c with disk := copy c.disk SUPERBLOCK_OFFSET c.sb 0 SUPERBLOCK_SIZE, sb_dirty := false, dirty := true }

/-- `ext2_sync` on a mounted volume; `none` is `-EIO`. -/
def sync (c : Cache) (capacity : Nat) : Option Cache :=
  (flush_dirty_blocks g c capacity).map fun c =>
    let c := if c.sb_dirty then write_superblock_disk c else c
    let c := if c.pending.any (·.isSome) then flush_pending_inodes g (blk_flush c) else c
    if c.dirty then { blk_flush c with dirty := false } else c

end

end ArmOS.BlockCache

