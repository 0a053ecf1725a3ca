import ArmOS.DirRecords
import ArmOS.FileCuts

/-!
Directories of an ext2 volume: looking a name up, adding and removing entries, and
reading. A directory is a file whose blocks are tiled by records, and means the list
of its live entries.
-/
namespace ArmOS.Directories
open Bytes Disk Volumes Allocator FileMap BlockMap Space FileSpace FileOps FileData FileCuts DirRecords Words Function

def ENOENT : Int := 2

/-- `d_type` of a `dirent_t`. -/
inductive DirentType
  | DT_FIFO | DT_CHR | DT_BLK | DT_DIR | DT_LNK | DT_REG
  deriving DecidableEq, Repr

def dirent_type (file_type : Nat) : DirentType :=
  if file_type = 5 then .DT_FIFO
  else if file_type = 3 then .DT_CHR
  else if file_type = 4 then .DT_BLK
  else if file_type = 2 then .DT_DIR
  else if file_type = 7 then .DT_LNK
  else .DT_REG

structure Dirent where
  d_ino : Nat
  d_type : DirentType
  d_name : List UInt8

/-! ### The functions -/

section
variable (fs : Fs)

/-- The loop over the records, bounded by the bytes of the block. -/
def scan_block {α : Type} (b : Buffer) (visit : Nat → Option α) : Option α := scan fs.block_size b visit fs.block_size 0

/-- The loop of `ext2_inode_lookup` over the blocks. -/
def lookup_blocks (v : Volume) (di : Inode) (name : List UInt8) : Nat → Nat → Option Nat
  | 0, _ => none
  | turns + 1, idx =>
    let blk := map_block fs v.store di idx
    if blk = 0 then none
    else
      match scan_block fs (v.store.read blk) (find_at (v.store.read blk) name) with
      | some ino => some ino
      | none => lookup_blocks v di name turns (idx + 1)

/-- `ext2_inode_lookup`, up to the number of the inode. -/
def inode_lookup (v : Volume) (dir : Nat) (name : List UInt8) : Option Nat :=
  lookup_blocks fs v (read_disk_inode v dir) name (max_supported_file_blocks fs) 0
structure NewEntry where
  ino : Nat
  name : List UInt8
  file_type : Nat

/-- A block is written, and then the inode of the directory. -/
def write_dir (v : Volume) (dir blk : Nat) (b : Buffer) (di : Inode) : Volume :=
  write_disk_inode { v with store := v.store.write_block blk b } dir di

/-- The branch of `ext2_add_dir_entry` for a new block. -/
def add_block (v : Volume) (dir : Nat) (di : Inode) (new : NewEntry) (idx : Nat) : Int × Volume :=
  let got := get_or_alloc_block_at fs v di idx
  if got.block = 0 then (-ENOSPC,got.v)
  else
    let b := init_dirent zeroes 0 new.ino fs.block_size new.name new.file_type
    let size := wrap32 ((idx + 1) * fs.block_size)
    (0,write_dir got.v dir got.block b (if got.di.i_size < size then { got.di with i_size := size } else got.di))

/-- The loop of `ext2_add_dir_entry` over the blocks. -/
def add_blocks (v : Volume) (dir : Nat) (di : Inode) (new : NewEntry) : Nat → Nat → Int × Volume
  | 0, _ => (-ENOSPC,v)
  | turns + 1, idx =>
    let blk := map_block fs v.store di idx
    let used_blocks := wrap32 (di.i_size + fs.block_size - 1) / fs.block_size
    if blk = 0 ∨ used_blocks ≤ idx then add_block fs v dir di new idx
    else
      match scan_block fs (v.store.read blk) (add_at (v.store.read blk) new.ino new.name new.file_type) with
      | some b => (0,write_dir v dir blk b di)
      | none => add_blocks v dir di new turns (idx + 1)

def add_dir_entry (v : Volume) (dir : Nat) (new : NewEntry) : Int × Volume :=
  let di := read_disk_inode v dir
  if S_ISDIR di.i_mode = false then (-EINVAL,v)
  else if new.name.length = 0 ∨ 255 < new.name.length then (-EINVAL,v)
  else add_blocks fs v dir di new (max_supported_file_blocks fs) 0

/-- The loop of `ext2_remove_dir_entry` over the blocks. -/
def remove_blocks (v : Volume) (dir : Nat) (di : Inode) (name : List UInt8) : Nat → Nat → Int × Volume
  | 0, _ => (-ENOENT,v)
  | turns + 1, idx =>
    let blk := map_block fs v.store di idx
    if blk = 0 then (-ENOENT,v)
    else
      match scan_block fs (v.store.read blk) (remove_at (v.store.read blk) name) with
      | some b => (0,write_dir v dir blk b di)
      | none => remove_blocks v dir di name turns (idx + 1)

def remove_dir_entry (v : Volume) (dir : Nat) (name : List UInt8) : Int × Volume :=
  if name.length = 0 ∨ 255 < name.length then (-EINVAL,v)
  else remove_blocks fs v dir (read_disk_inode v dir) name (max_supported_file_blocks fs) 0
def dirent_at (b : Buffer) (off : Nat) : Dirent := ⟨de_inode b off,dirent_type (de_file_type b off),de_name b off⟩

/-- The loop of `ext2_dir_readdir_unlocked`: the next entry and the offset behind it. -/
def readdir_loop (v : Volume) (di : Inode) : Nat → Nat → Option Dirent × Nat
  | 0, offset => (none,offset)
  | turns + 1, offset =>
    if di.i_size ≤ offset then (none,offset)
    else
      let blk := map_block fs v.store di (offset / fs.block_size)
      let blk_off := offset % fs.block_size
      if blk = 0 then (none,di.i_size)
      else
        let b := v.store.read blk
        if de_rec_len b blk_off = 0 then
          readdir_loop v di turns (wrap32 ((offset / fs.block_size + 1) * fs.block_size))
        else
          let next := wrap32 (offset + de_rec_len b blk_off)
          if de_inode b blk_off = 0 then readdir_loop v di turns next else (some (dirent_at b blk_off),next)

/-- `ext2_dir_readdir_unlocked`; every turn goes further. -/
def dir_readdir (v : Volume) (di : Inode) (offset : Nat) : Option Dirent × Nat := readdir_loop fs v di di.i_size offset

/-- What the calls of `readdir` give, up to the last one. -/
def read_entries (v : Volume) (di : Inode) : Nat → Nat → List Dirent
  | 0, _ => []
  | turns + 1, offset =>
    match dir_readdir fs v di offset with
    | (none,_) => []
    | (some e,next) => e :: read_entries v di turns next

def read_directory (v : Volume) (dir : Nat) : List Dirent :=
  let di := read_disk_inode v dir
  read_entries fs v di di.i_size 0

end

/-! ### Stored inodes -/

/-- What a slot of the pending table says of an inode. -/
def slot_inode (ino : Nat) (slot : Option (Nat × Inode)) : Option Inode :=
  slot.bind fun entry => if entry.1 = ino then some entry.2 else none
theorem find_pending_eq (v : Volume) (ino : Nat) : find_pending_inode v ino = v.pending.findSome? (slot_inode ino) := rfl

theorem find_forget {v : Volume} {ino : Nat} {content : Inode} (x : Nat) :
    find_pending_inode (write_disk_inode v ino content) x = if x = ino then none else find_pending_inode v x := by
  have slots : ∀ pending, (forget_pending ino pending).findSome? (slot_inode x) =
      if x = ino then none else pending.findSome? (slot_inode x) := by
    intro pending
    induction pending with
    | nil => simp [forget_pending]
    | cons slot pending ih =>
      simp only [forget_pending,List.map_cons,List.findSome?_cons] at ih ⊢
      rw [ih]
      rcases slot with _ | ⟨y,content⟩
      · simp [slot_inode]
      · grind [slot_inode]
  exact slots v.pending

theorem stored_write (v : Volume) (ino : Nat) (content : Inode) (x : Nat) :
    read_disk_inode (write_disk_inode v ino content) x = if x = ino then content else read_disk_inode v x := by
  rw [read_disk_inode,find_forget]
  by_cases same : x = ino
  · subst same
    simp [write_disk_inode,Store.write_inode,Device.apply]
  rw [if_neg same,if_neg same,read_disk_inode]
  simp [write_disk_inode,Store.write_inode,Device.apply,same]

variable {fs : Fs} {other : Nat → Prop} {F : List Nat} {v w : Volume} {inode : Nat → Inode} {ino : Nat}

theorem files_write_inode (files : Files fs other F v inode) (ino : Nat) (content : Inode) :
    Files fs other F (write_disk_inode v ino content) inode := by
  exact { files with consistent := { files.consistent with } }

/-- Inodes of the same file, but for the count of sectors. -/
structure SameFile (a b : Inode) : Prop where
  i_block : a.i_block = b.i_block
  i_size : a.i_size = b.i_size
  i_mode : a.i_mode = b.i_mode
theorem SameFile.refl (a : Inode) : SameFile a a := ⟨rfl,rfl,rfl⟩
variable {a b : Inode}

theorem block_data_same (same : a.i_block = b.i_block) (read : Nat → Buffer) (idx : Nat) :
    block_data fs read a idx = block_data fs read b idx := by
  rw [block_data,block_data,block_at,block_at,same]

/-- The volume holds the files `F`; a failed allocation can leave blocks to no file. -/
def Holds (fs : Fs) (F : List Nat) (v : Volume) (stored : Nat → Inode) : Prop :=
  ∃ other inode, Files fs other F v inode ∧ ∀ x ∈ F, SameFile (inode x) (stored x)

variable {stored : Nat → Inode}

/-! ### Blocks for a directory -/

/-- The same block and file, but for the count of sectors. -/
structure SameBlock (a b : Allocated) : Prop where
  block : a.block = b.block
  v : a.v = b.v
  di : SameFile a.di b.di
theorem SameFile.charge (same : SameFile a b) : SameFile (charge fs a) (charge fs b) :=
  ⟨same.i_block,same.i_size,same.i_mode⟩
theorem SameFile.point (same : SameFile a b) (i block : Nat) : SameFile (point fs a i block) (point fs b i block) :=
  ⟨by simp [FileMap.point,FileMap.charge,same.i_block],same.i_size,same.i_mode⟩

section
variable {a b : Inode} (same : SameFile a b)
include same

theorem fill_slot_same (v : Volume) (table slot : Nat) (fresh : Bool) :
    SameBlock (fill_slot fs v a table slot fresh) (fill_slot fs v b table slot fresh) := by
  unfold FileMap.fill_slot
  dsimp only
  generalize (if fresh = true then zeroes else v.store.read table) = indirect
  by_cases there : pointer indirect slot ≠ 0
  · rw [if_pos there,if_pos there]
    exact ⟨rfl,rfl,same⟩
  rw [if_neg there,if_neg there]
  rcases alloc_block fs v with ⟨_ | data,w⟩
  · exact ⟨rfl,rfl,same⟩
  · exact ⟨rfl,rfl,same.charge⟩

theorem fill_direct_same (v : Volume) (idx : Nat) : SameBlock (fill_direct fs v a idx) (fill_direct fs v b idx) := by
  unfold fill_direct
  rcases alloc_block fs v with ⟨_ | data,w⟩
  · exact ⟨rfl,rfl,same⟩
  · exact ⟨rfl,rfl,same.point idx data⟩

theorem fill_single_same (v : Volume) (slot : Nat) : SameBlock (fill_single fs v a slot) (fill_single fs v b slot) := by
  unfold fill_single
  rw [same.i_block]
  by_cases there : b.i_block 12 ≠ 0
  · rw [if_pos there,if_pos there]
    exact fill_slot_same same v _ slot false
  rw [if_neg there,if_neg there]
  rcases alloc_block fs v with ⟨_ | table,w⟩
  · exact ⟨rfl,rfl,same⟩
  · exact fill_slot_same (same.point 12 table) w table slot true

theorem fill_table_same (v : Volume) (double first second : Nat) (fresh : Bool) :
    SameBlock (fill_table fs v a double first second fresh) (fill_table fs v b double first second fresh) := by
  unfold fill_table
  dsimp only
  generalize (if fresh = true then zeroes else v.store.read double) = dbl
  by_cases there : pointer dbl first ≠ 0
  · rw [if_pos there,if_pos there]
    exact fill_slot_same same _ _ second false
  rw [if_neg there,if_neg there]
  rcases alloc_block fs v with ⟨_ | table,w⟩
  · exact ⟨rfl,rfl,same⟩
  · exact fill_slot_same same.charge _ _ second true

theorem fill_double_same (v : Volume) (first second : Nat) :
    SameBlock (fill_double fs v a first second) (fill_double fs v b first second) := by
  unfold fill_double
  rw [same.i_block]
  by_cases there : b.i_block 13 ≠ 0
  · rw [if_pos there,if_pos there]
    exact fill_table_same same v _ first second false
  rw [if_neg there,if_neg there]
  rcases alloc_block fs v with ⟨_ | double,w⟩
  · exact ⟨rfl,rfl,same⟩
  · exact fill_table_same (same.point 13 double) w double first second true

/-- The count of sectors does not matter to the block got. -/
theorem get_or_alloc_same (v : Volume) (idx : Nat) :
    SameBlock (get_or_alloc_block_at fs v a idx) (get_or_alloc_block_at fs v b idx) := by
  unfold get_or_alloc_block_at
  have mapped : map_block fs v.store a idx = map_block fs v.store b idx := by
    rw [map_block_eq,map_block_eq,block_at,block_at,same.i_block]
  simp only [mapped]
  split
  · exact ⟨rfl,rfl,same⟩
  split
  · exact fill_direct_same same v idx
  split
  · exact fill_single_same same v _
  split
  · exact ⟨rfl,rfl,same⟩
  · exact fill_double_same same v _ _

end

/-! ### A call that gets no block -/

/-- The pointer of the inode that leads to a place. -/
def root : Place → Nat
  | .direct i => i
  | .single => 12
  | .single_data _ => 12
  | .double => 13
  | .table _ => 13
  | .double_data _ _ => 13

variable {read : Nat → Buffer} {p : Place}

theorem at_place_root {f g : Nat → Nat} (same : f (root p) = g (root p)) : at_place read f p = at_place read g p := by
  cases p <;> simp only [root] at same <;> simp only [at_place,same]
theorem at_place_no_root {f : Nat → Nat} (zero : f (root p) = 0) : at_place read f p = 0 := by
  cases p <;> simp only [root] at zero <;> simp [at_place,behind,zero]

theorem fill_slot_keeps (v : Volume) (di : Inode) (table slot : Nat) (fresh : Bool) :
    (fill_slot fs v di table slot fresh).di.i_block = di.i_block := by
  unfold FileMap.fill_slot
  dsimp only
  generalize (if fresh = true then zeroes else v.store.read table) = indirect
  by_cases there : pointer indirect slot ≠ 0
  · rw [if_pos there]
  rw [if_neg there]
  rcases alloc_block fs v with ⟨_ | data,w⟩
  · rfl
  · rfl

theorem fill_table_keeps (v : Volume) (di : Inode) (double first second : Nat) (fresh : Bool) :
    (fill_table fs v di double first second fresh).di.i_block = di.i_block := by
  unfold fill_table
  dsimp only
  generalize (if fresh = true then zeroes else v.store.read double) = dbl
  by_cases there : pointer dbl first ≠ 0
  · rw [if_pos there]
    exact fill_slot_keeps _ _ _ _ _
  rw [if_neg there]
  rcases alloc_block fs v with ⟨_ | table,w⟩
  · rfl
  · exact fill_slot_keeps _ _ _ _ _

variable {di : Inode}

theorem point_fills {i : Nat} (hole : di.i_block i = 0) (block j : Nat) :
    (point fs di i block).i_block j = di.i_block j ∨ di.i_block j = 0 := by
  by_cases same : j = i
  · exact .inr (same ▸ hole)
  · exact .inl (by simp [point,charge,same])

/-- Only pointers that led nowhere are changed in the inode. -/
theorem get_or_alloc_fills (v : Volume) (di : Inode) (idx j : Nat) :
    (get_or_alloc_block_at fs v di idx).di.i_block j = di.i_block j ∨ di.i_block j = 0 := by
  unfold get_or_alloc_block_at
  dsimp only
  by_cases there : map_block fs v.store di idx ≠ 0
  · rw [if_pos there]
    exact .inl rfl
  rw [if_neg there]
  by_cases direct : idx < 12
  · rw [if_pos direct,fill_direct]
    have hole : di.i_block idx = 0 := by
      simpa [map_block,map_block_cursor,direct] using there
    rcases alloc_block fs v with ⟨_ | data,w⟩
    · exact .inl rfl
    · exact point_fills hole data j
  rw [if_neg direct]
  by_cases single : idx - 12 < ptrs_per_block fs
  · rw [if_pos single,fill_single]
    by_cases table : di.i_block 12 ≠ 0
    · rw [if_pos table,fill_slot_keeps]
      exact .inl rfl
    rw [if_neg table]
    rcases alloc_block fs v with ⟨_ | table_block,w⟩
    · exact .inl rfl
    simp only [fill_slot_keeps]
    exact point_fills (not_not.mp table) table_block j
  rw [if_neg single]
  by_cases beyond : wrap32 (ptrs_per_block fs * ptrs_per_block fs) ≤ idx - 12 - ptrs_per_block fs
  · rw [if_pos beyond]
    exact .inl rfl
  rw [if_neg beyond,fill_double]
  by_cases double : di.i_block 13 ≠ 0
  · rw [if_pos double,fill_table_keeps]
    exact .inl rfl
  rw [if_neg double]
  rcases alloc_block fs v with ⟨_ | double_block,w⟩
  · exact .inl rfl
  simp only [fill_table_keeps]
  exact point_fills (not_not.mp double) double_block j

variable {dir : Nat} {idx : Nat}

section
variable (holds : Holds fs F v stored) (member : dir ∈ F) (within : idx < max_blocks fs) {out : Allocated}
  (call : get_or_alloc_block_at fs v (stored dir) idx = out)
include holds member within call

/-- A call whose inode is not stored changes no file's blocks. -/
theorem Holds.given_up :
    Holds fs F out.v stored ∧ (∀ x, read_disk_inode out.v x = read_disk_inode v x) ∧
      ∀ x ∈ F, ∀ j, block_data fs out.v.store.read (stored x) j = block_data fs v.store.read (stored x) j := by
  obtain ⟨other,inode,files,like⟩ := holds
  have called := get_or_alloc_block_at_spec files member within
  have same := @get_or_alloc_same fs _ _ (like dir member) v idx
  have fills := fun j => @get_or_alloc_fills fs v (inode dir) idx j
  generalize get_or_alloc_block_at fs v (inode dir) idx = old at called same fills
  rw [call] at same
  have volume : old.v = out.v := same.v
  have grown := called.grows
  rw [volume] at grown
  have inodes : ∀ x, read_disk_inode out.v x = read_disk_inode v x := grown.keeps.stored
  have place : ∀ p : Place, at_place out.v.store.read (inode dir).i_block p = 0 ∨
      at_place out.v.store.read (inode dir).i_block p = at_place out.v.store.read old.di.i_block p := by
    intro p
    rcases fills (root p) with kept | hole
    · exact .inr (at_place_root kept.symm)
    · exact .inl (at_place_no_root hole)
  -- the sectors of the pointers that the stored inode leads to
  let counted : Inode := { inode dir with
    i_blocks := fs.sectors_per_block * (blocks_of fs out.v.store.read (inode dir)).length }
  obtain ⟨unused,lost⟩ : ∃ unused, Files fs unused F out.v (update inode dir counted) := by
    refine ⟨_,fewer_blocks grown.files (Keeps.refl grown.files.consistent) (fun _ _ => rfl) ?_ ?_ ?_⟩
    · grind [pointers]
    · intro x listed
      by_cases here : x = dir
      · subst here
        simp [counted,blocks_of]
      have charged := grown.files.charged x listed
      rw [update_of_ne here] at charged ⊢
      exact charged
    · grind [Files.triple]
  refine ⟨⟨unused,_,lost,fun x listed => ?_⟩,inodes,fun x listed j => ?_⟩
  · by_cases here : x = dir
    · subst here
      rw [update_self]
      exact ⟨(like x member).i_block,(like x member).i_size,(like x member).i_mode⟩
    rw [update_of_ne here]
    exact like x listed
  rw [block_data_same (like x listed).i_block.symm,block_data_same (like x listed).i_block.symm]
  have data := grown.data x listed j
  by_cases here : x = dir
  · subst here
    rw [update_self] at data
    rcases fills (root (data_place fs j)) with kept | hole
    · rw [← data,block_data,block_data,block_at,block_at,at_place_root kept]
    rw [block_data,block_data,block_at,block_at,at_place_no_root hole,at_place_no_root hole,ite_self]
    rfl
  rw [update_of_ne here] at data
  exact data

/-- A call that gets a block changes nothing else. -/
theorem Holds.got :
    (3 ≤ v.sb.s_free_blocks_count → out.block ≠ 0) ∧ (out.block ≠ 0 →
      Holds fs F out.v (update stored dir out.di) ∧ block_at fs out.v.store.read out.di idx = out.block ∧
      out.di.i_size = (stored dir).i_size ∧ out.di.i_mode = (stored dir).i_mode ∧
      (∀ x, read_disk_inode out.v x = read_disk_inode v x) ∧
      ∀ x ∈ F, ∀ j, block_data fs out.v.store.read (update stored dir out.di x) j =
        block_data fs v.store.read (stored x) j) := by
  obtain ⟨other,inode,files,like⟩ := holds
  have called := get_or_alloc_block_at_spec files member within
  have same := @get_or_alloc_same fs _ _ (like dir member) v idx
  generalize get_or_alloc_block_at fs v (inode dir) idx = old at called same
  rw [call] at same
  have volume : old.v = out.v := same.v
  have grown := called.grows
  rw [volume] at grown
  refine ⟨fun enough => same.block ▸ called.found enough,fun present => ⟨⟨other,_,grown.files,fun x listed => ?_⟩,?_,?_,?_,
    grown.keeps.stored,fun x listed j => ?_⟩⟩
  · grind [SameBlock.di]
  · rw [← same.block] at present ⊢
    rw [block_at,if_pos within,← same.di.i_block,← volume]
    exact called.block present
  · rw [← same.di.i_size,called.size,(like dir member).i_size]
  · rw [← same.di.i_mode,called.mode,(like dir member).i_mode]
  have data := grown.data x listed j
  rw [block_data_same (like x listed).i_block] at data
  rw [← data]
  by_cases here : x = dir
  · subst here
    rw [update_self,update_self]
    exact block_data_same same.di.i_block.symm _ _
  rw [update_of_ne here,update_of_ne here]
  exact block_data_same (like x listed).i_block.symm _ _

end

theorem stored_write_dir (v : Volume) (dir blk : Nat) (b : Buffer) (di : Inode) (x : Nat) :
    read_disk_inode (write_dir v dir blk b di) x = if x = dir then di else read_disk_inode v x :=
  stored_write _ dir di x

theorem Holds.write_dir (holds : Holds fs F v stored) (member : dir ∈ F) {idx blk : Nat}
    (within : idx < max_blocks fs) (here : block_at fs v.store.read (stored dir) idx = blk) (present : blk ≠ 0)
    (b : Buffer) (blocks : di.i_block = (stored dir).i_block) :
    Holds fs F (write_dir v dir blk b di) (update stored dir di) ∧
      block_data fs (write_dir v dir blk b di).store.read di idx = b ∧
      ∀ x ∈ F, ∀ j, (x,j) ≠ (dir,idx) →
        block_data fs (write_dir v dir blk b di).store.read (update stored dir di x) j =
          block_data fs v.store.read (stored x) j := by
  obtain ⟨other,inode,files,like⟩ := holds
  have pointer : pointers v.store.read inode (dir,data_place fs idx) = blk := by
    rw [block_at,if_pos within] at here
    rw [pointers,(like dir member).i_block]
    exact here
  have allowed := (files.owned (mem_keys.mpr ⟨member,data_place_valid within⟩) (by rw [pointer]; exact present)).2.1
  have wrote := wrote_block files.consistent allowed b
  obtain ⟨written,content,others⟩ := write_data_spec files member within (by rw [pointer]; exact present) wrote
  rw [pointer] at written content others
  have after : Files fs other F (Directories.write_dir v dir blk b di) inode := files_write_inode written dir di
  have resized : Files fs other F (Directories.write_dir v dir blk b di)
      (update inode dir { inode dir with i_size := di.i_size, i_mode := di.i_mode }) := by
    refine after.keep (Keeps.refl after.consistent) (fun _ _ => rfl) (fun k _ => ?_) (fun x _ => ?_) fun x _ => ?_
    · by_cases same : k.1 = dir <;> simp [pointers,same]
    all_goals by_cases same : x = dir <;> simp [same]
  refine ⟨⟨other,_,resized,fun x listed => ?_⟩,?_,fun x listed j apart => ?_⟩
  · by_cases same : x = dir
    · subst same
      rw [update_self,update_self]
      exact ⟨(like x member).i_block.trans blocks.symm,rfl,rfl⟩
    rw [update_of_ne same,update_of_ne same]
    exact like x listed
  · rw [block_data_same (blocks.trans (like dir member).i_block.symm)]
    exact content
  have data := others x listed j apart
  rw [block_data_same (like x listed).i_block,block_data_same (like x listed).i_block] at data
  by_cases same : x = dir
  · subst same
    rw [update_self,block_data_same blocks]
    exact data
  rw [update_of_ne same]
  exact data

end ArmOS.Directories

