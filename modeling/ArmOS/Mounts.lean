import ArmOS.Volumes
import ArmOS.Words

/-!
`ext2_mount` looks at the magic number only; later divisions and the places of inodes
go by the other fields as they are.
-/
namespace ArmOS.Mounts
open Bytes
open Volumes (Fs)
open Words (wrap32)

def s_inode_size (sb : Buffer) : Nat := if load 4 sb 76 ≥ 1 then load 2 sb 88 else 128

/-- With the size of inodes; the fields by their places in `ext2_superblock_t`. -/
def ext2_mount (sb : Buffer) : Option (Fs × Nat) :=
  if load 2 sb 56 ≠ 0xEF53 then none
  else
    let block_size := wrap32 (1024 <<< load 4 sb 24)
    let groups_count := wrap32 (load 4 sb 4 + 2 ^ 32 - load 4 sb 20 + load 4 sb 32 + 2 ^ 32 - 1) / load 4 sb 32
    some (⟨block_size,block_size / 512,load 4 sb 20,load 4 sb 4,groups_count,load 4 sb 40,load 4 sb 32⟩,
      s_inode_size sb)

section
variable (sb : Buffer) (fs : Fs) (inode_size : Nat) (bg_inode_table : Nat → UInt32)

def inode_location (ino : Nat) : Option (Nat × Nat) :=
  if ino = 0 then none
  else
    let index := (ino - 1) % fs.inodes_per_group
    let inodes_per_block := fs.block_size / inode_size
    some (wrap32 ((bg_inode_table ((ino - 1) / fs.inodes_per_group)).toNat + index / inodes_per_block),
      wrap32 (index % inodes_per_block * inode_size))

/-- Shift and divisions have a value, and every inode has its place in a block of the volume. -/
def Defined : Prop :=
  load 4 sb 24 < 32 ∧ fs.blocks_per_group ≠ 0 ∧ fs.inodes_per_group ≠ 0 ∧
    (0 < inode_size ∧ inode_size ≤ fs.block_size ∧ inode_size ∣ fs.block_size) ∧
    ∀ ino, 0 < ino → ino ≤ load 4 sb 0 → ∃ block offset,
      inode_location fs inode_size bg_inode_table ino = some (block,offset) ∧
      block < fs.blocks_count ∧ offset + inode_size ≤ fs.block_size

end

/-- Of each group only the last block that holds inodes is looked at. -/
def Checked (sb : Buffer) (bg_inode_table : Nat → UInt32) : Prop :=
  load 4 sb 24 < 22 ∧ load 4 sb 32 ≠ 0 ∧ load 4 sb 40 ≠ 0 ∧
    (0 < s_inode_size sb ∧ s_inode_size sb ∣ 1024 * 2 ^ load 4 sb 24) ∧
    ∀ group, group * load 4 sb 40 < load 4 sb 0 → (bg_inode_table group).toNat +
      (min (load 4 sb 40) (load 4 sb 0 - group * load 4 sb 40) - 1) / (1024 * 2 ^ load 4 sb 24 / s_inode_size sb) <
        load 4 sb 4

/-- Every inode is in a block of the volume if the last one of every group is. -/
theorem table_inside {n inodes per_block blocks : Nat} {table : Nat → UInt32} (some_inodes : 0 < inodes)
    (some_block : 0 < per_block) (small : blocks < 2 ^ 32) :
    (∀ ino, 0 < ino → ino ≤ n → wrap32 ((table ((ino - 1) / inodes)).toNat + (ino - 1) % inodes / per_block) < blocks) ↔
      ∀ group, group * inodes < n → (table group).toNat + (min inodes (n - group * inodes) - 1) / per_block < blocks := by
  constructor
  · intro all group used
    by_contra outside
    -- the first block of the table that is not on the volume
    have first := tsub_le_iff_left.mpr (not_lt.mp outside)
    have index := (Nat.mul_le_mul_right per_block first).trans (Nat.div_mul_le_self _ _)
    have below : (blocks - (table group).toNat) * per_block < inodes := by omega
    have found := all (group * inodes + (blocks - (table group).toNat) * per_block + 1) (by omega) (by omega)
    rw [Nat.add_sub_cancel,mul_comm group,Nat.mul_add_div some_inodes,Nat.div_eq_of_lt below,add_zero,Nat.mul_add_mod,
      Nat.mod_eq_of_lt below,Nat.mul_div_cancel _ some_block] at found
    have word := (table group).toNat_lt
    unfold wrap32 at found
    omega
  · intro tables ino positive most
    have split := Nat.div_add_mod' (ino - 1) inodes
    have index := Nat.mod_lt (ino - 1) some_inodes
    have last := tables ((ino - 1) / inodes) (by omega)
    refine (Nat.mod_le _ _).trans_lt ((Nat.add_le_add_left (Nat.div_le_div_right ?_) _).trans_lt last)
    omega

theorem mount_defined_iff {sb : Buffer} {fs : Fs} {inode_size : Nat} {table : Nat → UInt32}
    (accepted : ext2_mount sb = some (fs,inode_size)) : Defined sb fs inode_size table ↔ Checked sb table := by
  obtain ⟨block_size,count,inodes,blocks,size⟩ : fs.block_size = wrap32 (1024 * 2 ^ load 4 sb 24) ∧
      fs.blocks_count = load 4 sb 4 ∧ fs.inodes_per_group = load 4 sb 40 ∧ fs.blocks_per_group = load 4 sb 32 ∧
      inode_size = s_inode_size sb := by
    unfold ext2_mount at accepted
    split at accepted <;> cases accepted
    rw [Nat.shiftLeft_eq]
    exact ⟨rfl,rfl,rfl,rfl,rfl⟩
  have small : fs.blocks_count < 2 ^ 32 := count ▸ load_lt 4 sb 4
  unfold wrap32 at block_size
  have shifted (log : load 4 sb 24 < 22) : fs.block_size = 1024 * 2 ^ load 4 sb 24 ∧ fs.block_size < 2 ^ 32 := by
    have most := Nat.pow_le_pow_right two_pos (Nat.le_of_lt_succ log)
    omega
  rw [Defined,Checked,← inodes,← blocks,← count,← size]
  constructor
  · rintro ⟨-,some_blocks,some_inodes,⟨positive,most,divides⟩,inside⟩
    have log : load 4 sb 24 < 22 := by
      by_contra large
      obtain ⟨m,product⟩ := pow_dvd_pow 2 (not_lt.mp large)
      omega
    rw [← (shifted log).1]
    refine ⟨log,some_blocks,some_inodes,⟨positive,divides⟩,?_⟩
    refine (table_inside some_inodes.pos (Nat.div_pos most positive) small).mp fun ino low high => ?_
    obtain ⟨block,offset,found,on_volume,-⟩ := inside ino low high
    rw [inode_location,if_neg low.ne'] at found
    cases found
    exact on_volume
  · rintro ⟨log,some_blocks,some_inodes,⟨positive,divides⟩,tables⟩
    obtain ⟨whole,word⟩ := shifted log
    rw [← whole] at divides tables
    have most := Nat.le_of_dvd (by rw [whole]; positivity) divides
    have some_block := Nat.div_pos most positive
    refine ⟨by omega,some_blocks,some_inodes,⟨positive,most,divides⟩,fun ino low high => ?_⟩
    refine ⟨_,_,if_neg low.ne',(table_inside some_inodes.pos some_block small).mpr tables ino low high,?_⟩
    have offset := Nat.mul_le_mul_right inode_size (Nat.mod_lt ((ino - 1) % fs.inodes_per_group) some_block)
    rw [Nat.div_mul_cancel divides,Nat.succ_mul] at offset
    unfold wrap32
    omega

/-- 64 blocks and 16 inodes in one group. -/
def sample (blocks_per_group : UInt8) : Buffer
  | 0 | 40 => 16 | 4 => 64 | 32 => blocks_per_group | 56 => 0x53 | 57 => 0xEF | _ => 0

theorem mount_defined_iff_sample : ∃ fs, ext2_mount (sample 64) = some (fs,128) ∧ Defined (sample 64) fs 128 fun _ => 5 := by
  refine ⟨_,rfl,(mount_defined_iff rfl).mpr ⟨by decide,by decide,by decide,by decide,fun group used => ?_⟩⟩
  obtain rfl : group = 0 := by
    change group * 16 < 16 at used
    omega
  decide

theorem mount_divides_by_zero : ∃ fs, ext2_mount (sample 0) = some (fs,128) ∧ fs.blocks_per_group = 0 ∧
    ¬ Defined (sample 0) fs 128 fun _ => 5 := ⟨_,rfl,rfl,fun defined => defined.2.1 rfl⟩

end ArmOS.Mounts
