import ArmOS.FileMap
import ArmOS.Words

/-!
The operations on an open regular file of the ext2 file system. Every description
keeps its own copy `di` of the disk inode, and `ext2_op_lock` is held around each
operation. The VFS copies of size and block count, which none reads, are left out.
-/
namespace ArmOS.FileOps
open Bytes Disk Volumes FileMap Function
open Words (wrap32)

def EIO : Int := 5
def EBADF : Int := 9
def EISDIR : Int := 21
def EINVAL : Int := 22
def EFBIG : Int := 27
def ENOSPC : Int := 28
def ENOSYS : Int := 38

/-- The file type in a mode, the bits of `S_IFMT`. -/
def file_type (mode : Nat) : Nat := mode / 2 ^ 12 % 16
def S_ISDIR (mode : Nat) : Bool := file_type mode = 4
def S_ISLNK (mode : Nat) : Bool := file_type mode = 10

/-- `file_t` of an open ext2 file with its `private_data`. -/
structure File where
  ino : Nat
  di : Inode
  offset : Nat
  /-- `(flags & O_ACCMODE) == O_RDONLY` -/
  rdonly : Bool

section
variable (fs : Fs)

/-! ### Reading -/

/-- The bytes of a buffer from an offset on. -/
def bytes (b : Buffer) (off n : Nat) : List UInt8 := (List.range n).map fun k => b (off + k)
def EXT2_IO_MAX_BLOCKS : Nat := 16

/-- How many blocks follow each other on the device. -/
def extend_run (d : Store) (di : Inode) (blk blk_idx : Nat) : Nat → Nat → Cursor → Nat × Cursor
  | 0, run, cur => (run,cur)
  | turns + 1, run, cur =>
    let (next,cur) := map_block_cursor fs d di (blk_idx + run) cur
    if next = blk + run then extend_run d di blk blk_idx turns (run + 1) cur else (run,cur)

/-- What `ext2_read_contiguous_blocks` puts in the buffer. -/
def read_contiguous_blocks (d : Store) (first count : Nat) : List UInt8 :=
  (List.range count).flatMap fun k => bytes (d.read (first + k)) 0 fs.block_size

/-- The loop of `ext2_file_read_unlocked`. -/
def read_loop (d : Store) (di : Inode) : Nat → Nat → Nat → Cursor → List UInt8 × Nat
  | 0, offset, _, _ => ([],offset)
  | turns + 1, offset, count, cur =>
    if count = 0 then ([],offset)
    else
      let blk_idx := offset / fs.block_size
      let blk_off := offset % fs.block_size
      let (blk,cur) := map_block_cursor fs d di blk_idx cur
      let chunk := min (fs.block_size - blk_off) count
      let (run,cur) :=
        if blk ≠ 0 ∧ blk_off = 0 ∧ chunk = fs.block_size then
          extend_run fs d di blk blk_idx (min (count / fs.block_size) EXT2_IO_MAX_BLOCKS - 1) 1 cur
        else (1,cur)
      if 1 < run then
        let taken := run * fs.block_size
        let rest := read_loop d di turns (wrap32 (offset + taken)) (count - taken) cur
        (read_contiguous_blocks fs d blk run ++ rest.1,rest.2)
      else
        let data := if blk = 0 then List.replicate chunk 0 else bytes (d.read blk) blk_off chunk
        let rest := read_loop d di turns (wrap32 (offset + chunk)) (count - chunk) cur
        (data ++ rest.1,rest.2)

/-- `ext2_file_read_unlocked` for counts below `2 ^ 32`. -/
def file_read (v : Volume) (file : File) (count : Nat) : List UInt8 × File :=
  let size := file.di.i_size
  if size ≤ file.offset then ([],file)
  else
    let count := if size < wrap32 (file.offset + count) then size - file.offset else count
    let (data,offset) := read_loop fs v.store file.di count file.offset count map_cursor_init
    (data,{ file with offset := offset })

/-! ### Writing -/

/-- `memcpy(blkbuf + off, src, n)` for the bytes of a list. -/
def put_bytes (b : Buffer) (off : Nat) (src : List UInt8) : Buffer := fun i =>
  if off ≤ i ∧ i < off + src.length then src.getD (i - off) 0 else b i
structure Writing where
  v : Volume
  di : Inode
  (offset total : Nat)

/-- The loop of `ext2_file_write`, up to where no block can be had. -/
def write_loop : Nat → Writing → List UInt8 → Writing
  | 0, w, _ => w
  | turns + 1, w, src =>
    if src = [] then w
    else
      let blk_off := w.offset % fs.block_size
      let got := get_or_alloc_block_at fs w.v w.di (w.offset / fs.block_size)
      if got.block = 0 then { w with v := got.v, di := got.di }
      else
        let chunk := min (fs.block_size - blk_off) src.length
        -- a block that is overwritten as a whole is not read
        let blkbuf :=
          if chunk = fs.block_size ∨ got.allocated then zeroes else got.v.store.read got.block
        write_loop turns
          { v := { got.v with
              store := got.v.store.write_data_block got.block (put_bytes blkbuf blk_off (src.take chunk)) }
            di := got.di
            offset := wrap32 (w.offset + chunk)
            total := w.total + chunk }
          (src.drop chunk)

def set_defer (v : Volume) (defer : Bool) : Volume := { v with store := { v.store with defer := defer } }

/-- The end of `ext2_file_write`: the inode is queued. -/
def commit_write (file : File) (old_size : Nat) (w : Writing) : Int × Volume × File :=
  let v := set_defer w.v false
  if w.total = 0 then (-ENOSPC,v,{ file with di := w.di, offset := w.offset })
  else
    let di := if old_size < w.offset then { w.di with i_size := w.offset } else w.di
    match queue_pending_inode v file.ino di with
    | none => (- EIO,v,{ file with di := di, offset := w.offset })
    | some v => (w.total,v,{ file with di := di, offset := w.offset })

def file_write (v : Volume) (file : File) (src : List UInt8) : Int × Volume × File :=
  if file.rdonly then (-EBADF,v,file)
  else if src = [] then (0,v,file)
  else if file.di.i_size < file.offset then (-ENOSPC,v,file)
  else commit_write file file.di.i_size (write_loop fs src.length ⟨set_defer v true,file.di,file.offset,0⟩ src)

/-! ### Moving the offset -/

inductive Whence
  | SEEK_SET
  | SEEK_CUR
  | SEEK_END

def file_lseek (file : File) (offset : Int) (whence : Whence) : Int × File :=
  let new_pos : Int :=
    match whence with
    | .SEEK_SET => offset
    | .SEEK_CUR => file.offset + offset
    | .SEEK_END => file.di.i_size + offset
  if new_pos < 0 then (-EINVAL,file) else (new_pos,{ file with offset := wrap32 new_pos.toNat })

/-! ### Truncating -/

def max_supported_file_blocks : Nat := wrap32 (12 + ptrs_per_block fs + ptrs_per_block fs * ptrs_per_block fs)

def truncate_block_capacity (di : Inode) : Nat :=
  if fs.sectors_per_block = 0 then 1
  else
    let rounded := di.i_blocks / fs.sectors_per_block + (if di.i_blocks % fs.sectors_per_block = 0 then 0 else 1)
    let capacity := min rounded (wrap32 (max_supported_file_blocks fs + 2 + ptrs_per_block fs))
    if capacity ≠ 0 then capacity else 1

def table_pointers (table : Buffer) : List Nat :=
  ((List.range (ptrs_per_block fs)).map (pointer table)).filter (· ≠ 0)

/-- `if (count < max_blocks) blocks[count++] = block`. -/
def push_below (capacity : Nat) (blocks : List Nat) (block : Nat) : List Nat :=
  if blocks.length < capacity then blocks ++ [block] else blocks

/-- The blocks that `ext2_truncate_inode_data` collects. -/
def collect_blocks (d : Store) (di : Inode) : List Nat :=
  let capacity := truncate_block_capacity fs di
  let direct := ((List.range 12).map di.i_block).filter (· ≠ 0)
  let single := if di.i_block 12 = 0 then [] else table_pointers fs (d.read (di.i_block 12)) ++ [di.i_block 12]
  let blocks := direct ++ single
  if di.i_block 13 = 0 then blocks
  else
    let blocks := (table_pointers fs (d.read (di.i_block 13))).foldl (fun blocks table =>
      push_below capacity ((table_pointers fs (d.read table)).foldl (push_below capacity) blocks) table) blocks
    push_below capacity blocks (di.i_block 13)

/-- `ext2_truncate_inode_data` on the stored inode, with its code. -/
def truncate_inode_data (v : Volume) (ino : Nat) (allow_dir : Bool) : Int × Volume :=
  let di := read_disk_inode v ino
  if !allow_dir && S_ISDIR di.i_mode then (-EISDIR,v)
  else if S_ISLNK di.i_mode && di.i_blocks = 0 then
    (0,write_disk_inode v ino { di with i_size := 0, i_block := fun _ => 0 })
  else if di.i_block 14 ≠ 0 then (-EFBIG,v)
  else
    match free_block_list fs v (collect_blocks fs v.store di) with
    | none => (-EINVAL,v)
    | some v => (0,write_disk_inode v ino { di with i_size := 0, i_blocks := 0, i_block := fun _ => 0 })

/-- What `ext2_file_truncate_unlocked` changes before it frees blocks. -/
structure Cut where
  v : Volume
  di : Inode
  blocks : List Nat

/-- `ext2_queue_block_free` of a block other than 0; `none` is `-EFBIG`. -/
def queue_block_free (capacity : Nat) (blocks : List Nat) (block : Nat) : Option (List Nat) :=
  if capacity ≤ blocks.length then none else some (blocks ++ [block])

/-- A turn of the loop over the first 12 pointers; a failure carries the changes. -/
def cut_pointer (capacity keep_blocks : Nat) (c : Cut) (i : Nat) : Except Cut Cut :=
  if i < keep_blocks ∨ c.di.i_block i = 0 then .ok c
  else
    match queue_block_free capacity c.blocks (c.di.i_block i) with
    | none => .error c
    | some blocks =>
      .ok { c with di := { c.di with i_block := update c.di.i_block i 0 }, blocks := blocks }

/-- A turn of the loop over a table, from block `base` on. -/
def cut_entry (capacity keep_blocks base : Nat) (state : Buffer × List Nat × Bool) (i : Nat) :
    Option (Buffer × List Nat × Bool) :=
  if base + i < keep_blocks ∨ pointer state.1 i = 0 then some state
  else (queue_block_free capacity state.2.1 (pointer state.1 i)).map fun blocks =>
    (set_pointer state.1 i 0,blocks,true)

def cut_table (capacity keep_blocks base : Nat) (table : Buffer) (blocks : List Nat) :
    Option (Buffer × List Nat × Bool) :=
  (List.range (ptrs_per_block fs)).foldlM (cut_entry capacity keep_blocks base) (table,blocks,false)

/-- `ext2_block_ptrs_empty` of a table. -/
def block_ptrs_empty (table : Buffer) : Bool := (List.range (ptrs_per_block fs)).all fun i => pointer table i = 0

def cut_single (capacity keep_blocks : Nat) (c : Cut) : Except Cut Cut :=
  let single := c.di.i_block 12
  if single = 0 then .ok c
  else
    match cut_table fs capacity keep_blocks 12 (c.v.store.read single) c.blocks with
    | none => .error c
    | some (table,blocks,changed) =>
      if block_ptrs_empty fs table then
        match queue_block_free capacity blocks single with
        | none => .error c
        | some blocks =>
          .ok { c with di := { c.di with i_block := update c.di.i_block 12 0 }, blocks := blocks }
      else
        .ok { c with
          v := if changed then { c.v with store := c.v.store.write_block single table } else c.v
          blocks := blocks }

/-- One turn of the loop over the double-indirect table `dbl`. -/
def cut_second (capacity keep_blocks : Nat) (state : Volume × Buffer × List Nat × Bool) (first : Nat) :
    Except Volume (Volume × Buffer × List Nat × Bool) :=
  let (v,dbl,blocks,dbl_changed) := state
  let ptrs := ptrs_per_block fs
  let indirect := pointer dbl first
  if indirect = 0 then .ok state
  else
    match cut_table fs capacity keep_blocks (12 + ptrs + first * ptrs) (v.store.read indirect) blocks with
    | none => .error v
    | some (table,blocks,changed) =>
      if block_ptrs_empty fs table then
        match queue_block_free capacity blocks indirect with
        | none => .error v
        | some blocks => .ok (v,set_pointer dbl first 0,blocks,true)
      else
        .ok (if changed then { v with store := v.store.write_block indirect table } else v,dbl,blocks,dbl_changed)

def cut_double (capacity keep_blocks : Nat) (c : Cut) : Except Cut Cut :=
  let double := c.di.i_block 13
  if double = 0 then .ok c
  else
    match (List.range (ptrs_per_block fs)).foldlM (cut_second fs capacity keep_blocks)
        (c.v,c.v.store.read double,c.blocks,false) with
    | .error v => .error { c with v := v }
    | .ok (v,dbl,blocks,changed) =>
      if block_ptrs_empty fs dbl then
        match queue_block_free capacity blocks double with
        | none => .error { c with v := v }
        | some blocks =>
          .ok ⟨v,{ c.di with i_block := update c.di.i_block 13 0 },blocks⟩
      else
        .ok ⟨if changed then { v with store := v.store.write_block double dbl } else v,c.di,blocks⟩

def cut_blocks (capacity keep_blocks : Nat) (c : Cut) : Except Cut Cut := do
  let c ← (List.range 12).foldlM (cut_pointer capacity keep_blocks) c
  let c ← cut_single fs capacity keep_blocks c
  cut_double fs capacity keep_blocks c

/-- Zeroes the rest of the last block that stays. -/
def clear_tail (v : Volume) (di : Inode) (new_size : Nat) : Volume :=
  let tail := new_size % fs.block_size
  let blk := map_block fs v.store di (new_size / fs.block_size)
  if tail = 0 ∨ blk = 0 then v
  else { v with store := v.store.write_block blk (clear (v.store.read blk) tail (fs.block_size - tail)) }

/-- The end of `ext2_file_truncate_unlocked`, with blocks queued. -/
def finish_truncate (file : File) (new_size : Nat) (c : Cut) : Int × Volume × File :=
  let v := clear_tail fs c.v c.di new_size
  match if c.blocks = [] then some v else free_block_list fs v c.blocks with
  | none => (-EINVAL,v,{ file with di := c.di })
  | some v =>
    let di := { c.di with
      i_size := new_size
      i_blocks := c.di.i_blocks - c.blocks.length * fs.sectors_per_block }
    (0,write_disk_inode v file.ino di,{ file with di := di, offset := min file.offset new_size })

def file_truncate (v : Volume) (file : File) (length : Int) : Int × Volume × File :=
  let new_size := wrap32 length.toNat
  if length < 0 then (-EINVAL,v,file)
  else if S_ISDIR file.di.i_mode then (-EISDIR,v,file)
  else if new_size = file.di.i_size then (0,v,file)
  else if file.di.i_size < new_size then (-ENOSYS,v,file)
  else if new_size = 0 then
    let (code,v) := truncate_inode_data fs v file.ino false
    if code < 0 then (code,v,file)
    else (0,v,{ file with di := read_disk_inode v file.ino, offset := 0 })
  else if file.di.i_block 14 ≠ 0 then (-EFBIG,v,file)
  else
    let keep_blocks := wrap32 (new_size + fs.block_size - 1) / fs.block_size
    match cut_blocks fs (truncate_block_capacity fs file.di) keep_blocks ⟨v,file.di,[]⟩ with
    | .error c => (-EFBIG,c.v,{ file with di := c.di })
    | .ok c => finish_truncate fs file new_size c

end

end ArmOS.FileOps

