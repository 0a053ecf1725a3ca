import ArmOS.Volumes
import ArmOS.Words

/-!
Where the blocks of a file are: the pointers in its inode and in the tables behind
them, found with the cursor of `read` and filled in as the file grows. Buffers from
`kmalloc` are available; block numbers and `i_blocks` do not wrap.
-/
namespace ArmOS.FileMap
open Bytes Disk Volumes
open Words (wrap32)

def ptrs_per_block (fs : Fs) : Nat := fs.block_size / 4

/-- `table[index]` in a block of pointers. -/
def pointer (table : Buffer) (index : Nat) : Nat := load 4 table (4 * index)
def set_pointer (table : Buffer) (index block : Nat) : Buffer := store 4 table (4 * index) block

/-! ### Looking a block up -/

/-- `ext2_map_cursor_t`: the tables loaded last, with their numbers. -/
structure Cursor where
  (table_no dbl_no : Nat)
  (table dbl : Buffer)
def map_cursor_init : Cursor := ⟨0,0,zeroes,zeroes⟩

/-- `ext2_map_cursor_load`: number and contents of the block. -/
def map_cursor_load (d : Store) (block_no loaded_no : Nat) (buf : Buffer) : Nat × Buffer :=
  if loaded_no = block_no then (loaded_no,buf) else (block_no,d.read block_no)

section
variable (fs : Fs)

/-- `ext2_map_block_cursor`; 0 is a hole. -/
def map_block_cursor (d : Store) (di : Inode) (idx : Nat) (cur : Cursor) : Nat × Cursor :=
  let ptrs := ptrs_per_block fs
  if idx < 12 then (di.i_block idx,cur)
  else if idx - 12 < ptrs then
    if di.i_block 12 = 0 then (0,cur)
    else
      let (no,table) := map_cursor_load d (di.i_block 12) cur.table_no cur.table
      (pointer table (idx - 12),{ cur with table_no := no, table := table })
  else if wrap32 (ptrs * ptrs) ≤ idx - 12 - ptrs then (0,cur)
  else if di.i_block 13 = 0 then (0,cur)
  else
    let (dbl_no,dbl) := map_cursor_load d (di.i_block 13) cur.dbl_no cur.dbl
    let cur := { cur with dbl_no := dbl_no, dbl := dbl }
    let first := pointer dbl ((idx - 12 - ptrs) / ptrs)
    if first = 0 then (0,cur)
    else
      let (no,table) := map_cursor_load d first cur.table_no cur.table
      (pointer table ((idx - 12 - ptrs) % ptrs),{ cur with table_no := no, table := table })

def map_block (d : Store) (di : Inode) (idx : Nat) : Nat := (map_block_cursor fs d di idx map_cursor_init).1

/-! ### Filling a hole -/

/-- `di->i_blocks += sectors_per_block`. -/
def charge (di : Inode) : Inode := { di with i_blocks := di.i_blocks + fs.sectors_per_block }

/-- `di->i_block[i] = block` for a block that was just allocated. -/
def point (di : Inode) (i block : Nat) : Inode := charge fs { di with i_block := Function.update di.i_block i block }

/-- What `ext2_get_or_alloc_block_at` returns, 0 where it failed. -/
structure Allocated where
  block : Nat
  allocated : Bool
  di : Inode
  v : Volume

def write_table (v : Volume) (table : Nat) (content : Buffer) : Volume :=
  { v with store := v.store.write_allocation_block table content }

/-- The block behind a slot of a table, `fresh` where just allocated. -/
def fill_slot (v : Volume) (di : Inode) (table slot : Nat) (fresh : Bool) : Allocated :=
  let indirect := if fresh then zeroes else v.store.read table
  if pointer indirect slot ≠ 0 then ⟨pointer indirect slot,fresh,di,v⟩
  else
    match alloc_block fs v with
    | (none,v) => ⟨0,fresh,di,if fresh then write_table v table indirect else v⟩
    | (some data,v) =>
      let indirect := set_pointer indirect slot data
      ⟨pointer indirect slot,true,charge fs di,write_table v table indirect⟩

def fill_direct (v : Volume) (di : Inode) (idx : Nat) : Allocated :=
  match alloc_block fs v with
  | (none,v) => ⟨0,false,di,v⟩
  | (some block,v) => ⟨block,true,point fs di idx block,v⟩

def fill_single (v : Volume) (di : Inode) (slot : Nat) : Allocated :=
  if di.i_block 12 ≠ 0 then fill_slot fs v di (di.i_block 12) slot false
  else
    match alloc_block fs v with
    | (none,v) => ⟨0,false,di,v⟩
    | (some table,v) => fill_slot fs v (point fs di 12 table) table slot true

/-- The double-indirect case from the table `double` on. -/
def fill_table (v : Volume) (di : Inode) (double first second : Nat) (fresh : Bool) : Allocated :=
  let dbl := if fresh then zeroes else v.store.read double
  if pointer dbl first ≠ 0 then
    fill_slot fs (write_table v double dbl) di (pointer dbl first) second false
  else
    match alloc_block fs v with
    | (none,v) => ⟨0,fresh,di,if fresh then write_table v double dbl else v⟩
    | (some table,v) =>
      let dbl := set_pointer dbl first table
      fill_slot fs (write_table v double dbl) (charge fs di) (pointer dbl first) second true

def fill_double (v : Volume) (di : Inode) (first second : Nat) : Allocated :=
  if di.i_block 13 ≠ 0 then fill_table fs v di (di.i_block 13) first second false
  else
    match alloc_block fs v with
    | (none,v) => ⟨0,false,di,v⟩
    | (some double,v) => fill_table fs v (point fs di 13 double) double first second true

def get_or_alloc_block_at (v : Volume) (di : Inode) (idx : Nat) : Allocated :=
  let ptrs := ptrs_per_block fs
  if map_block fs v.store di idx ≠ 0 then ⟨map_block fs v.store di idx,false,di,v⟩
  else if idx < 12 then fill_direct fs v di idx
  else if idx - 12 < ptrs then fill_single fs v di (idx - 12)
  else if wrap32 (ptrs * ptrs) ≤ idx - 12 - ptrs then ⟨0,false,di,v⟩
  else fill_double fs v di ((idx - 12 - ptrs) / ptrs) ((idx - 12 - ptrs) % ptrs)

end

end ArmOS.FileMap

