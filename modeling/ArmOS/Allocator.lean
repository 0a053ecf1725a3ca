import ArmOS.Runs
import ArmOS.Tallies
import ArmOS.Volumes
import Mathlib

/-!
The allocators of blocks and inodes on a consistent volume. The counts are a `Tally`
of the bitmaps, whose own blocks are marked in use; every operation keeps this, and
a search from a hint visits every bit.
-/
namespace ArmOS.Allocator
open Bytes Disk Runs Tallies Volumes List Option Nat
open Function (update update_self update_of_ne update_eq_self)
open Finset (range)

/-- A geometry as `ext2_mount` computes it, with counts that fit. -/
structure Layout (fs : Fs) (sb : Superblock) : Prop where
  blocks_pos : 0 < fs.blocks_per_group
  blocks_fit : fs.blocks_per_group < 2 ^ 16
  inodes_pos : 0 < fs.inodes_per_group
  inodes_fit : fs.inodes_per_group < 2 ^ 16
  blocks_count : fs.blocks_count < 2 ^ 32
  inodes_count : sb.s_inodes_count < 2 ^ 32
  start : fs.first_data_block ≤ fs.blocks_count
  groups : fs.groups_count =
    (fs.blocks_count - fs.first_data_block + fs.blocks_per_group - 1) / fs.blocks_per_group
  covered : sb.s_inodes_count ≤ fs.groups_count * fs.inodes_per_group

def block_bitmap (v : Volume) (group : Nat) : Buffer := v.store.read (v.groups group).bg_block_bitmap
def inode_bitmap (v : Volume) (group : Nat) : Buffer := v.store.read (v.groups group).bg_inode_bitmap

section
variable (fs : Fs)

def block_used (v : Volume) (block : Nat) : Bool :=
  bitmap_test (block_bitmap v ((block - fs.first_data_block) / fs.blocks_per_group))
    ((block - fs.first_data_block) % fs.blocks_per_group)
def inode_used (v : Volume) (ino : Nat) : Bool :=
  bitmap_test (inode_bitmap v ((ino - 1) / fs.inodes_per_group)) ((ino - 1) % fs.inodes_per_group)
def OnVolume (block : Nat) : Prop := fs.first_data_block ≤ block ∧ block < fs.blocks_count
def FreeBlock (v : Volume) (block : Nat) : Prop := OnVolume fs block ∧ block_used fs v block = false
def FreeInode (v : Volume) (ino : Nat) : Prop := 1 ≤ ino ∧ ino ≤ v.sb.s_inodes_count ∧ inode_used fs v ino = false
def Reserved (v : Volume) (block : Nat) : Prop :=
  (block = 0 ∧ fs.first_data_block = 0) ∨
    ∃ g < fs.groups_count, block = (v.groups g).bg_block_bitmap ∨ block = (v.groups g).bg_inode_bitmap

structure Consistent (v : Volume) : Prop where
  layout : Layout fs v.sb
  block_bitmaps : ∀ g < fs.groups_count, ∀ h < fs.groups_count,
    (v.groups g).bg_block_bitmap = (v.groups h).bg_block_bitmap → g = h
  inode_bitmaps : ∀ g < fs.groups_count, ∀ h < fs.groups_count,
    (v.groups g).bg_inode_bitmap = (v.groups h).bg_inode_bitmap → g = h
  kinds : ∀ g < fs.groups_count, ∀ h < fs.groups_count, (v.groups g).bg_block_bitmap ≠ (v.groups h).bg_inode_bitmap
  reserved : ∀ block, Reserved fs v block → OnVolume fs block ∧ block_used fs v block = true
  blocks : Tally fs.groups_count (group_blocks fs) (block_bitmap v) (fun g => (v.groups g).bg_free_blocks_count)
    v.sb.s_free_blocks_count
  inodes : Tally fs.groups_count (group_inodes fs v.sb) (inode_bitmap v)
    (fun g => (v.groups g).bg_free_inodes_count) v.sb.s_free_inodes_count

end

variable {fs : Fs} {v w : Volume}

/-! ### Places of blocks and inodes -/

section
variable {sb : Superblock} (layout : Layout fs sb)
include layout

theorem group_first_lt {g : Nat} (inside : g < fs.groups_count) : group_first fs g < fs.blocks_count := by
  have pos := layout.blocks_pos
  rw [layout.groups] at inside
  have below := (lt_div_iff_mul_lt pos).mp inside
  unfold group_first
  omega

theorem block_place {block : Nat} (on : OnVolume fs block) :
    (block - fs.first_data_block) / fs.blocks_per_group < fs.groups_count ∧
      (block - fs.first_data_block) % fs.blocks_per_group <
        group_blocks fs ((block - fs.first_data_block) / fs.blocks_per_group) ∧
      group_first fs ((block - fs.first_data_block) / fs.blocks_per_group) +
        (block - fs.first_data_block) % fs.blocks_per_group = block := by
  obtain ⟨low,high⟩ := on
  have pos := layout.blocks_pos
  have split := div_add_mod (block - fs.first_data_block) fs.blocks_per_group
  have small := mod_lt (block - fs.first_data_block) pos
  rw [mul_comm] at split
  have whole : group_first fs ((block - fs.first_data_block) / fs.blocks_per_group) +
      (block - fs.first_data_block) % fs.blocks_per_group = block := by
    unfold group_first
    omega
  refine ⟨?_,?_,whole⟩
  · rw [layout.groups,lt_div_iff_mul_lt pos]
    omega
  unfold group_blocks
  omega

theorem place_block {g bit : Nat} (below : bit < group_blocks fs g) :
    OnVolume fs (group_first fs g + bit) ∧
      (group_first fs g + bit - fs.first_data_block) / fs.blocks_per_group = g ∧
      (group_first fs g + bit - fs.first_data_block) % fs.blocks_per_group = bit := by
  have pos := layout.blocks_pos
  unfold group_blocks at below
  have distance : group_first fs g + bit - fs.first_data_block = bit + fs.blocks_per_group * g := by
    unfold group_first
    rw [mul_comm]
    omega
  refine ⟨⟨by unfold group_first; omega,by omega⟩,?_,?_⟩
  · rw [distance,add_mul_div_left _ _ pos,div_eq_of_lt (by omega),zero_add]
  · rw [distance,add_mul_mod_self_left,mod_eq_of_lt (by omega)]

theorem inode_place {ino : Nat} (low : 1 ≤ ino) (high : ino ≤ sb.s_inodes_count) :
    (ino - 1) / fs.inodes_per_group < fs.groups_count ∧
      (ino - 1) % fs.inodes_per_group < group_inodes fs sb ((ino - 1) / fs.inodes_per_group) ∧
      group_first_ino fs ((ino - 1) / fs.inodes_per_group) + (ino - 1) % fs.inodes_per_group = ino := by
  have pos := layout.inodes_pos
  have covered := layout.covered
  have split := div_add_mod (ino - 1) fs.inodes_per_group
  have small := mod_lt (ino - 1) pos
  rw [mul_comm] at split
  have whole : group_first_ino fs ((ino - 1) / fs.inodes_per_group) + (ino - 1) % fs.inodes_per_group = ino := by
    unfold group_first_ino
    omega
  refine ⟨?_,?_,whole⟩
  · rw [div_lt_iff_lt_mul pos]
    omega
  unfold group_inodes
  omega

theorem place_inode {g bit : Nat} (below : bit < group_inodes fs sb g) :
    1 ≤ group_first_ino fs g + bit ∧ group_first_ino fs g + bit ≤ sb.s_inodes_count ∧
      (group_first_ino fs g + bit - 1) / fs.inodes_per_group = g ∧
      (group_first_ino fs g + bit - 1) % fs.inodes_per_group = bit := by
  have pos := layout.inodes_pos
  unfold group_inodes at below
  have distance : group_first_ino fs g + bit - 1 = bit + fs.inodes_per_group * g := by
    unfold group_first_ino
    rw [mul_comm]
    omega
  refine ⟨by unfold group_first_ino; omega,by omega,?_,?_⟩
  · rw [distance,add_mul_div_left _ _ pos,div_eq_of_lt (by omega),zero_add]
  · rw [distance,add_mul_mod_self_left,mod_eq_of_lt (by omega)]

end

theorem sum_group_blocks (n : Nat) : ∑ g ∈ range n, group_blocks fs g ≤ fs.blocks_count := by
  have exact_sum : ∑ g ∈ range n, group_blocks fs g + (fs.blocks_count - group_first fs n) =
      fs.blocks_count - fs.first_data_block := by
    induction n with
    | zero => simp [group_first]
    | succ n ih => grind [group_first,group_blocks,Finset.sum_range_succ]
  omega

theorem sum_group_inodes (sb : Superblock) (n : Nat) : ∑ g ∈ range n, group_inodes fs sb g ≤ sb.s_inodes_count := by
  have exact_sum : ∑ g ∈ range n, group_inodes fs sb g + (sb.s_inodes_count + 1 - group_first_ino fs n) =
      sb.s_inodes_count := by
    induction n with
    | zero => simp [group_first_ino]
    | succ n ih => grind [group_inodes,group_first_ino,Finset.sum_range_succ]
  omega

/-! ### The searches -/

variable {bitmap : Buffer} {bit block : Nat}

theorem takes_bit_iff {g : Nat} :
    takes_bit fs bitmap g bit = true ↔
      group_first fs g + bit ≠ 0 ∧ group_first fs g + bit < fs.blocks_count ∧ bitmap_test bitmap bit = false := by
  simp only [takes_bit,Bool.and_eq_true,decide_eq_true_eq,Bool.not_eq_true',and_assoc]

variable {g first : Nat}

theorem find_bit_none (missing : find_bit fs bitmap g first = none)
    (below : bit < group_blocks fs g) : takes_bit fs bitmap g bit = false := by
  obtain ⟨upper,lower⟩ := or_eq_none_iff.mp missing
  grind

theorem first_bit_le (v : Volume) (g : Nat) : first_bit fs v g ≤ group_blocks fs g := by
  unfold first_bit
  generalize (if g = start_group fs v then v.alloc_bit_hint else 0) = hint
  dsimp only
  split <;> omega

theorem search_group_some {g h : Nat} (found : search_group fs v g = some (h,bit)) :
    h = g ∧ bit < group_blocks fs g ∧ takes_bit fs (block_bitmap v g) g bit = true := by
  unfold search_group at found
  split at found
  · cases found
  split at found
  · cases found
  obtain ⟨other,bit_found,same⟩ := map_eq_some_iff.mp found
  cases same
  have start := @first_bit_le fs v g
  refine ⟨rfl,?_⟩
  rcases or_eq_some_iff.mp bit_found with upper | ⟨_,lower⟩ <;> grind [block_bitmap]

theorem search_blocks_some (found : search_blocks fs v = some (g,bit)) :
    g < fs.groups_count ∧ bit < group_blocks fs g ∧ takes_bit fs (block_bitmap v g) g bit = true := by
  obtain ⟨offset,member,here⟩ := exists_of_findSome?_eq_some found
  obtain ⟨rfl,below,takes⟩ := search_group_some here
  have positive : 0 < fs.groups_count := zero_lt_of_lt (mem_range.mp member)
  exact ⟨mod_lt _ positive,below,takes⟩

/-- The loop over the groups comes to every group. -/
theorem group_visited (v : Volume) (inside : g < fs.groups_count) :
    ∃ offset < fs.groups_count, (start_group fs v + offset) % fs.groups_count = g := by
  have start : start_group fs v < fs.groups_count := by
    unfold start_group
    split <;> omega
  by_cases after : start_group fs v ≤ g
  · refine ⟨g - start_group fs v,by omega,?_⟩
    rw [Nat.add_sub_cancel' after,Nat.mod_eq_of_lt inside]
  refine ⟨g + fs.groups_count - start_group fs v,by omega,?_⟩
  rw [Nat.add_sub_cancel' (by omega),Nat.add_mod_right,Nat.mod_eq_of_lt inside]

theorem Consistent.search_none (consistent : Consistent fs v) (missing : search_blocks fs v = none)
    (inside : g < fs.groups_count) (below : bit < group_blocks fs g) : bitmap_test (block_bitmap v g) bit = true := by
  obtain ⟨offset,within,visited⟩ := group_visited v inside
  have nothing := findSome?_eq_none_iff.mp missing offset (mem_range.mpr within)
  rw [visited] at nothing
  unfold search_group at nothing
  split at nothing
  · rename_i empty
    exact consistent.blocks.none_in inside empty below
  rw [if_neg (not_le.mpr (group_first_lt consistent.layout inside))] at nothing
  have skipped := find_bit_none (map_eq_none_iff.mp nothing) below
  obtain ⟨on,group,place⟩ := place_block consistent.layout below
  by_contra unused
  have clear : bitmap_test (block_bitmap v g) bit = false := Bool.eq_false_iff.mpr unused
  -- the only bit that is skipped although it is clear would be that of block 0
  have zero : group_first fs g + bit = 0 := by
    by_contra nonzero
    exact Bool.eq_false_iff.mp skipped (takes_bit_iff.mpr ⟨nonzero,on.2,clear⟩)
  have marked := (consistent.reserved 0 (.inl ⟨rfl,by have := on.1; omega⟩)).2
  unfold block_used at marked
  rw [← zero,group,place,clear] at marked
  cases marked

/-! ### Changes of one bitmap -/

structure SamePlaces (v w : Volume) : Prop where
  blocks : ∀ g, (w.groups g).bg_block_bitmap = (v.groups g).bg_block_bitmap
  inodes : ∀ g, (w.groups g).bg_inode_bitmap = (v.groups g).bg_inode_bitmap
  count : w.sb.s_inodes_count = v.sb.s_inodes_count
theorem SamePlaces.reserved (same : SamePlaces v w) : Reserved fs w block ↔ Reserved fs v block := by
  unfold Reserved
  simp only [same.blocks,same.inodes]

theorem Consistent.kept (consistent : Consistent fs v) (same : SamePlaces v w)
    (reserved : ∀ block, Reserved fs v block → block_used fs w block = true)
    (blocks : Tally fs.groups_count (group_blocks fs) (block_bitmap w) (fun g => (w.groups g).bg_free_blocks_count)
      w.sb.s_free_blocks_count)
    (inodes : Tally fs.groups_count (group_inodes fs v.sb) (inode_bitmap w)
      (fun g => (w.groups g).bg_free_inodes_count) w.sb.s_free_inodes_count) : Consistent fs w := by
  obtain ⟨layout,block_bitmaps,inode_bitmaps,kinds,marked,_,_⟩ := consistent
  refine ⟨?_,?_,?_,?_,?_,blocks,?_⟩
  · obtain ⟨h1,h2,h3,h4,h5,h6,h7,h8,h9⟩ := layout
    exact ⟨h1,h2,h3,h4,h5,same.count ▸ h6,h7,h8,same.count ▸ h9⟩
  · simpa only [same.blocks] using block_bitmaps
  · simpa only [same.inodes] using inode_bitmaps
  · simpa only [same.blocks,same.inodes] using kinds
  · intro block here
    have before := same.reserved.mp here
    exact ⟨(marked block before).1,reserved block before⟩
  have size : group_inodes fs w.sb = group_inodes fs v.sb := by
    unfold group_inodes
    rw [same.count]
  rwa [size]

variable {next : Buffer}

/-- Blocks whose group has a new bitmap are looked up there. -/
theorem block_used_update (layout : Layout fs v.sb)
    (bitmaps : ∀ h < fs.groups_count, block_bitmap w h = update (block_bitmap v) g next h) (on : OnVolume fs block) :
    block_used fs w block =
      if (block - fs.first_data_block) / fs.blocks_per_group = g then
        bitmap_test next ((block - fs.first_data_block) % fs.blocks_per_group)
      else block_used fs v block := by
  unfold block_used
  rw [bitmaps _ (block_place layout on).1]
  grind

theorem Consistent.free_not_reserved (consistent : Consistent fs v) (free : FreeBlock fs v block) :
    ¬ Reserved fs v block := by
  intro here
  have marked := (consistent.reserved block here).2
  rw [free.2] at marked
  cases marked

variable {groups : Nat → GroupDesc} {gd : GroupDesc}

theorem count_update (field : GroupDesc → Nat) :
    (fun h => field (update groups g gd h)) = update (fun h => field (groups h)) g (field gd) := by
  funext h
  by_cases here : h = g
  · subst here
    simp only [update_self]
  · simp only [update_of_ne here]

theorem place_update (field : GroupDesc → Nat)
    (same : field gd = field (groups g)) (h : Nat) : field (update groups g gd h) = field (groups h) := by
  by_cases here : h = g
  · subst here
    rw [update_self,same]
  · rw [update_of_ne here]

/-! ### Taking and freeing blocks -/

theorem take_block_places (v : Volume) (g bit : Nat) : SamePlaces v (take_block fs v g bit) :=
  ⟨place_update (·.bg_block_bitmap) rfl,place_update (·.bg_inode_bitmap) rfl,rfl⟩

theorem take_block_read (v : Volume) (g bit : Nat) :
    (take_block fs v g bit).store.read =
      update (update v.store.read (group_first fs g + bit) zeroes) (v.groups g).bg_block_bitmap
        (bitmap_set (block_bitmap v g) bit) := by
  simp only [take_block,read_write_allocation_block,block_bitmap]

section
variable (consistent : Consistent fs v)
include consistent

/-- A clear bit is that of a free block, none of the bitmaps. -/
theorem Consistent.clear_bit (below : bit < group_blocks fs g)
    (clear : bitmap_test (block_bitmap v g) bit = false) : FreeBlock fs v (group_first fs g + bit) := by
  obtain ⟨on,group,place⟩ := place_block consistent.layout below
  refine ⟨on,?_⟩
  unfold block_used
  rw [group,place,clear]

section
variable (inside : g < fs.groups_count) (below : bit < group_blocks fs g)
  (clear : bitmap_test (block_bitmap v g) bit = false)
include inside below clear

theorem Consistent.take_block_bitmaps {h : Nat}
    (within : h < fs.groups_count) : block_bitmap (take_block fs v g bit) h =
      update (block_bitmap v) g (bitmap_set (block_bitmap v g) bit) h := by
  have free := consistent.clear_bit below clear
  unfold block_bitmap
  rw [(take_block_places v g bit).blocks,take_block_read]
  by_cases here : h = g
  · subst here
    rw [update_self,update_self]
    rfl
  have other : (v.groups h).bg_block_bitmap ≠ group_first fs g + bit := by
    intro same
    exact consistent.free_not_reserved free (.inr ⟨h,within,.inl same.symm⟩)
  grind [block_bitmaps]

theorem Consistent.take_block : Consistent fs (take_block fs v g bit) := by
  have places : SamePlaces v (Volumes.take_block fs v g bit) := take_block_places v g bit
  have free := consistent.clear_bit below clear
  -- the block is none of the bitmaps, so zeroing it leaves them alone
  have other : ∀ {block}, Reserved fs v block → block ≠ group_first fs g + bit := by
    rintro block here rfl
    exact consistent.free_not_reserved free here
  have block_bitmaps : ∀ h < fs.groups_count, block_bitmap (Volumes.take_block fs v g bit) h =
      update (block_bitmap v) g (bitmap_set (block_bitmap v g) bit) h :=
    fun h within => consistent.take_block_bitmaps inside below clear within
  have inode_bitmaps : ∀ h < fs.groups_count, inode_bitmap (Volumes.take_block fs v g bit) h = inode_bitmap v h := by
    intro h within
    unfold inode_bitmap
    rw [places.inodes,take_block_read,update_of_ne (Ne.symm (consistent.kinds g inside h within)),
      update_of_ne (other (.inr ⟨h,within,.inr rfl⟩))]
  refine consistent.kept places ?_ ?_ ?_
  · intro block here
    obtain ⟨on_volume,marked⟩ := consistent.reserved block here
    rw [block_used_update consistent.layout block_bitmaps on_volume]
    split
    · rename_i same
      rw [bitmap_test_set]
      unfold block_used at marked
      rw [same] at marked
      rw [marked,Bool.true_or]
    · exact marked
  · have taken := consistent.blocks.take inside below clear
    refine taken.congr block_bitmaps (fun h _ => ?_)
    exact congrFun (count_update (·.bg_free_blocks_count)) h
  refine consistent.inodes.congr inode_bitmaps (fun h _ => ?_)
  exact place_update (·.bg_free_inodes_count) (by rfl) h

end

theorem Consistent.alloc_block :
    (∃ g bit, g < fs.groups_count ∧ bit < group_blocks fs g ∧ bitmap_test (block_bitmap v g) bit = false ∧
      group_first fs g + bit ≠ 0 ∧
      Volumes.alloc_block fs v = (some (group_first fs g + bit),Volumes.take_block fs v g bit)) ∨
    alloc_block fs v = (none,v) ∧ ∀ block, ¬ FreeBlock fs v block := by
  unfold Volumes.alloc_block
  by_cases empty : v.sb.s_free_blocks_count = 0
  · refine .inr ⟨by rw [if_pos empty],?_⟩
    rintro block ⟨on,clear⟩
    obtain ⟨inside,below,_⟩ := block_place consistent.layout on
    have marked := consistent.blocks.none_anywhere inside empty below
    unfold block_used at clear
    rw [marked] at clear
    cases clear
  rw [if_neg empty]
  cases found : search_blocks fs v with
  | none =>
    refine .inr ⟨rfl,?_⟩
    rintro block ⟨on,clear⟩
    obtain ⟨inside,below,_⟩ := block_place consistent.layout on
    have marked := consistent.search_none found inside below
    unfold block_used at clear
    rw [marked] at clear
    cases clear
  | some place =>
    obtain ⟨g,bit⟩ := place
    obtain ⟨inside,below,takes⟩ := search_blocks_some found
    obtain ⟨nonzero,_,clear⟩ := takes_bit_iff.mp takes
    exact .inl ⟨g,bit,inside,below,clear,nonzero,rfl⟩

end

theorem clear_fold_test (g : Nat) (blocks : List Nat) (state : Buffer × Nat) (bit : Nat) :
    bitmap_test (blocks.foldl (clear_block fs g) state).1 bit =
      (bitmap_test state.1 bit && decide (∀ block ∈ blocks, block - group_first fs g ≠ bit)) := by
  induction blocks generalizing state with
  | nil => simp
  | cons block rest ih =>
    rw [foldl_cons,ih]
    by_cases marked : bitmap_test state.1 (block - group_first fs g) = true
    · have step : clear_block fs g state block =
          (bitmap_clear state.1 (block - group_first fs g),state.2 + 1) := if_pos marked
      rw [step,bitmap_test_clear]
      simp only [Bool.and_assoc,forall_mem_cons,Bool.decide_and,decide_not]
    have step : clear_block fs g state block = state := if_neg marked
    rw [step]
    by_cases here : block - group_first fs g = bit
    · subst here
      simp [marked]
    · simp [here]

theorem clear_fold_count (g size : Nat) (blocks : List Nat) (inside : ∀ block ∈ blocks, block - group_first fs g < size)
    (state : Buffer × Nat) :
    (clear_bits (blocks.foldl (clear_block fs g) state).1 size).card + state.2 =
      (clear_bits state.1 size).card + (blocks.foldl (clear_block fs g) state).2 := by
  induction blocks generalizing state with
  | nil => rfl
  | cons block rest ih =>
    have count := ih (forall_mem_cons.mp inside).2 (clear_block fs g state block)
    have below := inside block mem_cons_self
    rw [foldl_cons]
    by_cases marked : bitmap_test state.1 (block - group_first fs g) = true
    · have step : clear_block fs g state block =
          (bitmap_clear state.1 (block - group_first fs g),state.2 + 1) := if_pos marked
      have absent : block - group_first fs g ∉ clear_bits state.1 size := by
        intro member
        rw [(mem_clear_bits.mp member).2] at marked
        cases marked
      rw [step] at count ⊢
      rw [clear_bits_clear below,Finset.card_insert_of_notMem absent] at count
      omega
    have step : clear_block fs g state block = state := if_neg marked
    rwa [step] at count ⊢

theorem clear_fold_none (g : Nat) (blocks : List Nat) (state : Buffer × Nat) :
    state.2 ≤ (blocks.foldl (clear_block fs g) state).2 ∧
      ((blocks.foldl (clear_block fs g) state).2 = state.2 → blocks.foldl (clear_block fs g) state = state) := by
  induction blocks generalizing state with
  | nil => exact ⟨le_rfl,fun _ => rfl⟩
  | cons block rest ih =>
    obtain ⟨more,same⟩ := ih (clear_block fs g state block)
    rw [foldl_cons]
    by_cases marked : bitmap_test state.1 (block - group_first fs g) = true
    · have step : (clear_block fs g state block).2 = state.2 + 1 := by rw [clear_block,if_pos marked]
      exact ⟨by omega,fun none_counted => by omega⟩
    · grind [clear_block]

/-- The volume with the blocks freed so far counted. -/
def counted (state : Volume × Nat) : Volume :=
  { state.1 with sb := { state.1.sb with s_free_blocks_count := state.1.sb.s_free_blocks_count + state.2 } }

theorem free_in_group_places (blocks : List Nat) (state : Volume × Nat) (g : Nat) :
    SamePlaces (counted state) (counted (free_in_group fs blocks state g)) := by
  unfold free_in_group
  dsimp only
  split
  · exact ⟨fun _ => rfl,fun _ => rfl,rfl⟩
  · exact ⟨place_update (·.bg_block_bitmap) rfl,place_update (·.bg_inode_bitmap) rfl,rfl⟩

/-- The turn for one group: `next` is its bitmap, `freed` the number freed. -/
structure FreedIn (fs : Fs) (blocks : List Nat) (g : Nat) (state result : Volume × Nat) (next : Buffer) (freed : Nat) :
    Prop where
  folded : (blocks.filter (in_group fs g)).foldl (clear_block fs g) (block_bitmap state.1 g,0) = (next,freed)
  more : (clear_bits next (group_blocks fs g)).card = (state.1.groups g).bg_free_blocks_count + freed
  total : result.2 = state.2 + freed
  read : result.1.store.read = update state.1.store.read (state.1.groups g).bg_block_bitmap next
  groups : result.1.groups = update state.1.groups g
    { state.1.groups g with bg_free_blocks_count := (state.1.groups g).bg_free_blocks_count + freed }
  sb : result.1.sb = state.1.sb
  pending : result.1.pending = state.1.pending
  inodes : result.1.store.device.inodes = state.1.store.device.inodes

variable {blocks : List Nat}

theorem mem_in_group : block ∈ blocks.filter (in_group fs g) ↔
    block ∈ blocks ∧ group_first fs g ≤ block ∧ block < group_first fs g + group_blocks fs g := by
  simp only [mem_filter,in_group,Bool.and_eq_true,decide_eq_true_eq]

variable {state : Volume × Nat}

theorem Consistent.freed_in (consistent : Consistent fs (counted state)) (blocks : List Nat) (inside : g < fs.groups_count) :
    ∃ next freed, FreedIn fs blocks g state (free_in_group fs blocks state g) next freed := by
  obtain ⟨v,total⟩ := state
  rcases folded : (blocks.filter (in_group fs g)).foldl (clear_block fs g) (block_bitmap v g,0) with ⟨next,freed⟩
  have small : ∀ block ∈ blocks.filter (in_group fs g), block - group_first fs g < group_blocks fs g := by
    intro block member
    have within := mem_in_group.mp member
    omega
  have count := clear_fold_count g (group_blocks fs g) (blocks.filter (in_group fs g)) small (block_bitmap v g,0)
  have before : (v.groups g).bg_free_blocks_count = (clear_bits (block_bitmap v g) (group_blocks fs g)).card :=
    consistent.blocks.counts g inside
  rw [folded] at count
  have more : (clear_bits next (group_blocks fs g)).card = (v.groups g).bg_free_blocks_count + freed := by
    dsimp only at count
    omega
  refine ⟨next,freed,?_⟩
  by_cases none_freed : freed = 0
  · have unchanged : free_in_group fs blocks (v,total) g = (v,total) := by
      unfold free_in_group
      dsimp only
      unfold block_bitmap at folded
      rw [folded]
      exact if_pos none_freed
    have same : (next,freed) = (block_bitmap v g,0) := by
      have quiet := (@clear_fold_none fs g (blocks.filter (in_group fs g)) (block_bitmap v g,0)).2
      rw [folded] at quiet
      exact quiet none_freed
    cases same
    rw [unchanged]
    exact ⟨folded,more,rfl,(update_eq_self _ _).symm,(update_eq_self _ _).symm,rfl,rfl,rfl⟩
  have fits : (v.groups g).bg_free_blocks_count + freed < 2 ^ 16 := by
    have most := clear_bits_card_le next (group_blocks fs g)
    have width := consistent.layout.blocks_fit
    unfold group_blocks at most more
    omega
  have changed : free_in_group fs blocks (v,total) g =
      ({ v with
        store := v.store.write_block (v.groups g).bg_block_bitmap next
        groups := update v.groups g
          { v.groups g with bg_free_blocks_count := (v.groups g).bg_free_blocks_count + freed } },
        total + freed) := by
    unfold free_in_group
    dsimp only
    unfold block_bitmap at folded
    rw [folded]
    rw [if_neg none_freed,mod_eq_of_lt fits]
  rw [changed]
  exact ⟨folded,more,rfl,read_write_block _ _ _,rfl,rfl,rfl,rfl⟩

section
variable {blocks : List Nat} {g : Nat} {state : Volume × Nat} {next : Buffer} {freed : Nat}

section
variable (consistent : Consistent fs (counted state))
include consistent

section
variable (inside : g < fs.groups_count)
  (turn : FreedIn fs blocks g state (free_in_group fs blocks state g) next freed)
include inside turn

theorem Consistent.freed_bitmaps {h : Nat}
    (within : h < fs.groups_count) : block_bitmap (counted (free_in_group fs blocks state g)) h =
      update (block_bitmap (counted state)) g next h := by
  have read : (counted (free_in_group fs blocks state g)).store.read = _ := turn.read
  unfold block_bitmap
  rw [(free_in_group_places blocks state g).blocks,read]
  by_cases here : h = g
  · subst here
    rw [update_self]
    exact update_self _ _ _
  rw [update_of_ne here]
  exact update_of_ne (fun same => here (consistent.block_bitmaps h within g inside same)) _ _

/-- The blocks of the list in the group are free after its turn. -/
theorem Consistent.freed_used
    (on : OnVolume fs block) : block_used fs (counted (free_in_group fs blocks state g)) block =
      (block_used fs (counted state) block &&
        !decide ((block - fs.first_data_block) / fs.blocks_per_group = g ∧ block ∈ blocks)) := by
  rw [block_used_update consistent.layout (fun h within => consistent.freed_bitmaps inside turn within) on]
  by_cases same : (block - fs.first_data_block) / fs.blocks_per_group = g
  · obtain ⟨_,below,whole⟩ := block_place consistent.layout on
    have test := @clear_fold_test fs g (blocks.filter (in_group fs g)) (block_bitmap state.1 g,0)
      ((block - fs.first_data_block) % fs.blocks_per_group)
    rw [turn.folded] at test
    rw [same] at below whole
    have listed : (∀ other ∈ blocks.filter (in_group fs g),
        other - group_first fs g ≠ (block - fs.first_data_block) % fs.blocks_per_group) ↔ block ∉ blocks := by
      constructor
      · intro apart member
        exact apart block (mem_in_group.mpr ⟨member,by omega,by omega⟩) (by omega)
      intro absent other member equal
      obtain ⟨member,low,_⟩ := mem_in_group.mp member
      have found : other = block := by omega
      exact absent (found ▸ member)
    have before : block_used fs (counted state) block =
        bitmap_test (block_bitmap state.1 g) ((block - fs.first_data_block) % fs.blocks_per_group) := by
      unfold block_used
      rw [same]
      rfl
    rw [if_pos same,test,before]
    simp only [same,true_and,listed,decide_not]
  · simp [same]

end

theorem Consistent.free_in_group (allowed : ∀ block ∈ blocks, ¬ Reserved fs (counted state) block)
    (inside : g < fs.groups_count) : Consistent fs (counted (free_in_group fs blocks state g)) := by
  obtain ⟨next,freed,turn⟩ := consistent.freed_in blocks inside
  have places : SamePlaces (counted state) (counted (Volumes.free_in_group fs blocks state g)) :=
    free_in_group_places blocks state g
  have inode_bitmaps : ∀ h < fs.groups_count,
      inode_bitmap (counted (Volumes.free_in_group fs blocks state g)) h = inode_bitmap (counted state) h := by
    intro h within
    have read : (counted (Volumes.free_in_group fs blocks state g)).store.read = _ := turn.read
    unfold inode_bitmap
    rw [places.inodes,read]
    exact update_of_ne (Ne.symm (consistent.kinds g inside h within)) _ _
  refine consistent.kept places ?_ ?_ ?_
  · intro block here
    obtain ⟨on,marked⟩ := consistent.reserved block here
    have absent : block ∉ blocks := fun member => allowed block member here
    rw [consistent.freed_used inside turn on,marked]
    simp [absent]
  · have sum : (counted (Volumes.free_in_group fs blocks state g)).sb.s_free_blocks_count =
        (counted state).sb.s_free_blocks_count + freed := by
      simp only [counted,turn.sb,turn.total]
      omega
    have given := consistent.blocks.give inside turn.more
    rw [sum]
    refine given.congr (fun h within => consistent.freed_bitmaps inside turn within) (fun h _ => ?_)
    simp only [counted,turn.groups]
    exact congrFun (count_update (·.bg_free_blocks_count)) h
  have sum : (counted (Volumes.free_in_group fs blocks state g)).sb.s_free_inodes_count =
      (counted state).sb.s_free_inodes_count := by
    simp only [counted,turn.sb]
  rw [sum]
  refine consistent.inodes.congr inode_bitmaps (fun h _ => ?_)
  simp only [counted,turn.groups]
  exact place_update (·.bg_free_inodes_count) (by rfl) h

end

end

theorem Consistent.free_groups {blocks groups : List Nat} (within : ∀ g ∈ groups, g < fs.groups_count)
    (consistent : Consistent fs (counted state))
    (allowed : ∀ block ∈ blocks, ¬ Reserved fs (counted state) block) :
    Consistent fs (counted (groups.foldl (Volumes.free_in_group fs blocks) state)) := by
  induction groups generalizing state with
  | nil => exact consistent
  | cons g rest ih =>
    have places : SamePlaces (counted state) (counted (Volumes.free_in_group fs blocks state g)) :=
      free_in_group_places blocks state g
    refine ih (forall_mem_cons.mp within).2
      (consistent.free_in_group allowed (within g mem_cons_self)) ?_
    intro block member here
    exact allowed block member (places.reserved.mp here)

theorem Consistent.free_block_list (consistent : Consistent fs v) (allowed : ∀ block ∈ blocks, ¬ Reserved fs v block)
    (freed : Volumes.free_block_list fs v blocks = some w) : Consistent fs w := by
  unfold Volumes.free_block_list at freed
  split at freed
  · cases freed
  dsimp only at freed
  have within : ∀ g ∈ (List.range fs.groups_count).takeWhile (fun g => group_first fs g < fs.blocks_count),
      g < fs.groups_count := fun g member => mem_range.mp (takeWhile_subset _ member)
  have first : Consistent fs (counted (v,0)) := consistent
  have kept := first.free_groups within allowed
  rcases folded : ((List.range fs.groups_count).takeWhile (fun g => group_first fs g < fs.blocks_count)).foldl
    (Volumes.free_in_group fs blocks) (v,0) with ⟨next,total⟩
  rw [folded] at freed kept
  dsimp only at freed
  -- the sum in the superblock counts blocks of the volume, so it fits its 32 bits
  have most : next.sb.s_free_blocks_count + total < 2 ^ 32 :=
    (kept.blocks.total_le.trans (sum_group_blocks _)).trans_lt kept.layout.blocks_count
  cases freed
  split
  · rename_i none_freed
    rwa [none_freed] at kept
  · rwa [mod_eq_of_lt most]

/-! ### Inodes -/

theorem search_inodes_some (found : search_inodes fs v = some (g,bit)) :
    g < fs.groups_count ∧ bit < group_inodes fs v.sb g ∧ bitmap_test (inode_bitmap v g) bit = false := by
  obtain ⟨h,member,here⟩ := exists_of_findSome?_eq_some found
  unfold search_inodes_in at here
  split at here
  · cases here
  split at here
  · cases here
  obtain ⟨other,bit_found,same⟩ := map_eq_some_iff.mp here
  cases same
  have test := find?_some bit_found
  simp only [Bool.and_eq_true,Bool.not_eq_true'] at test
  exact ⟨mem_range.mp member,mem_range.mp (mem_of_find?_eq_some bit_found),test.1⟩

section
variable (consistent : Consistent fs v)
include consistent

namespace Consistent

theorem search_inodes_none (missing : search_inodes fs v = none) (inside : g < fs.groups_count)
    (below : bit < group_inodes fs v.sb g) : bitmap_test (inode_bitmap v g) bit = true := by
  have nothing := findSome?_eq_none_iff.mp missing g (mem_range.mpr inside)
  obtain ⟨_,most,_⟩ := place_inode consistent.layout below
  unfold search_inodes_in at nothing
  split at nothing
  · rename_i empty
    exact consistent.inodes.none_in inside empty below
  rw [if_neg (by omega)] at nothing
  have skipped := find?_eq_none.mp (map_eq_none_iff.mp nothing) bit (mem_range.mpr below)
  by_contra unused
  exact skipped (by simp only [Bool.and_eq_true,Bool.not_eq_true',decide_eq_true_eq]
                    exact ⟨Bool.eq_false_iff.mpr unused,most⟩)

theorem replace_inodes (places : SamePlaces v w) (inside : g < fs.groups_count) {count : Nat}
    (read : w.store.read = update v.store.read (v.groups g).bg_inode_bitmap next)
    (blocks : ∀ h, (w.groups h).bg_free_blocks_count = (v.groups h).bg_free_blocks_count)
    (counts : (fun h => (w.groups h).bg_free_inodes_count) =
      update (fun h => (v.groups h).bg_free_inodes_count) g count)
    (total : w.sb.s_free_blocks_count = v.sb.s_free_blocks_count)
    (tally : Tally fs.groups_count (group_inodes fs v.sb) (update (inode_bitmap v) g next)
      (update (fun h => (v.groups h).bg_free_inodes_count) g count) w.sb.s_free_inodes_count) :
    Consistent fs w := by
  have block_bitmaps : ∀ h < fs.groups_count, block_bitmap w h = block_bitmap v h := by
    intro h within
    unfold block_bitmap
    rw [places.blocks,read,update_of_ne (consistent.kinds h within g inside)]
  have inode_bitmaps : ∀ h < fs.groups_count, inode_bitmap w h = update (inode_bitmap v) g next h := by
    intro h within
    unfold inode_bitmap
    rw [places.inodes,read]
    by_cases here : h = g
    · subst here
      rw [update_self,update_self]
    · grind [inode_bitmaps]
  refine consistent.kept places ?_ ?_ ?_
  · intro block here
    obtain ⟨on,marked⟩ := consistent.reserved block here
    unfold block_used at marked ⊢
    rwa [block_bitmaps _ (block_place consistent.layout on).1]
  · rw [total]
    exact consistent.blocks.congr block_bitmaps (fun h _ => blocks h)
  · exact tally.congr inode_bitmaps (fun h _ => congrFun counts h)

theorem take_inode (inside : g < fs.groups_count) (below : bit < group_inodes fs v.sb g)
    (clear : bitmap_test (inode_bitmap v g) bit = false) : Consistent fs (take_inode v g bit) :=
  consistent.replace_inodes
    ⟨place_update (·.bg_block_bitmap) rfl,place_update (·.bg_inode_bitmap) rfl,rfl⟩ inside
    (read_write_block _ _ _) (place_update (·.bg_free_blocks_count) rfl) (count_update (·.bg_free_inodes_count)) rfl
    (consistent.inodes.take inside below clear)

theorem alloc_inode :
    (∃ g bit, g < fs.groups_count ∧ bit < group_inodes fs v.sb g ∧ bitmap_test (inode_bitmap v g) bit = false ∧
      Volumes.alloc_inode fs v = (some (group_first_ino fs g + bit),Volumes.take_inode v g bit)) ∨
    alloc_inode fs v = (none,v) ∧ ∀ ino, ¬ FreeInode fs v ino := by
  have none_free : (∀ g < fs.groups_count, ∀ bit < group_inodes fs v.sb g, bitmap_test (inode_bitmap v g) bit = true) →
      ∀ ino, ¬ FreeInode fs v ino := by
    rintro marked ino ⟨low,high,clear⟩
    obtain ⟨inside,below,_⟩ := inode_place consistent.layout low high
    unfold inode_used at clear
    rw [marked _ inside _ below] at clear
    cases clear
  unfold Volumes.alloc_inode
  by_cases empty : v.sb.s_free_inodes_count = 0
  · refine .inr ⟨by rw [if_pos empty],none_free (fun g inside bit below => ?_)⟩
    exact consistent.inodes.none_anywhere inside empty below
  rw [if_neg empty]
  cases found : search_inodes fs v with
  | none =>
    refine .inr ⟨rfl,none_free (fun g inside bit below => ?_)⟩
    exact consistent.search_inodes_none found inside below
  | some place =>
    obtain ⟨g,bit⟩ := place
    obtain ⟨inside,below,clear⟩ := search_inodes_some found
    exact .inl ⟨g,bit,inside,below,clear,rfl⟩

theorem free_inode {ino : Nat} (freed : free_inode fs v ino = some w) : Consistent fs w := by
  unfold Volumes.free_inode at freed
  dsimp only at freed
  split at freed
  · cases freed
  rename_i valid
  simp only [not_or,not_lt,not_le] at valid
  split at freed
  · rename_i marked
    obtain ⟨inside,below,_⟩ := inode_place consistent.layout (by omega) valid.2.1
    have absent : (ino - 1) % fs.inodes_per_group ∉ clear_bits
        (inode_bitmap v ((ino - 1) / fs.inodes_per_group)) (group_inodes fs v.sb ((ino - 1) / fs.inodes_per_group)) := by
      intro member
      have clear := (mem_clear_bits.mp member).2
      unfold inode_bitmap at clear
      rw [marked] at clear
      cases clear
    have more : (clear_bits (bitmap_clear (inode_bitmap v ((ino - 1) / fs.inodes_per_group))
        ((ino - 1) % fs.inodes_per_group)) (group_inodes fs v.sb ((ino - 1) / fs.inodes_per_group))).card =
        (v.groups ((ino - 1) / fs.inodes_per_group)).bg_free_inodes_count + 1 := by
      rw [clear_bits_clear below,Finset.card_insert_of_notMem absent,← consistent.inodes.counts _ inside]
    have given := consistent.inodes.give inside more
    -- neither the 16-bit nor the 32-bit count can overflow: both count bits of bitmaps
    have fits : (v.groups ((ino - 1) / fs.inodes_per_group)).bg_free_inodes_count + 1 < 2 ^ 16 := by
      have most := clear_bits_card_le (bitmap_clear (inode_bitmap v ((ino - 1) / fs.inodes_per_group))
        ((ino - 1) % fs.inodes_per_group)) (group_inodes fs v.sb ((ino - 1) / fs.inodes_per_group))
      have width := consistent.layout.inodes_fit
      rw [more] at most
      unfold group_inodes at most
      omega
    have sum_fits : v.sb.s_free_inodes_count + 1 < 2 ^ 32 :=
      (given.total_le.trans (sum_group_inodes _ _)).trans_lt consistent.layout.inodes_count
    cases freed
    refine consistent.replace_inodes
      ⟨place_update (·.bg_block_bitmap) rfl,place_update (·.bg_inode_bitmap) rfl,rfl⟩ inside
      (read_write_block _ _ _) (place_update (·.bg_free_blocks_count) rfl) (count_update (·.bg_free_inodes_count)) rfl ?_
    dsimp only [release_inode,write_disk_inode]
    rw [mod_eq_of_lt fits,mod_eq_of_lt sum_fits]
    exact given
  cases freed
  exact consistent

end Consistent

end

/-! ### Runs -/

inductive Op
  | alloc_block
  | free_blocks (blocks : List Nat)
  | alloc_inode
  | free_inode (ino : Nat)

/-- A call that fails leaves the volume as it was. -/
def run_op (fs : Fs) (v : Volume) : Op → Volume
  | .alloc_block => (alloc_block fs v).2
  | .free_blocks blocks => (free_block_list fs v blocks).getD v
  | .alloc_inode => (alloc_inode fs v).2
  | .free_inode ino => (free_inode fs v ino).getD v

/-- Callers free blocks of files and directories only. -/
def Step (fs : Fs) (v : Volume) (op : Op) (w : Volume) : Prop :=
  (∀ blocks, op = .free_blocks blocks → ∀ block ∈ blocks, ¬ Reserved fs v block) ∧ w = run_op fs v op

theorem step_consistent {op : Op} (consistent : Consistent fs v) (taken : Step fs v op w) : Consistent fs w := by
  obtain ⟨allowed,rfl⟩ := taken
  cases op with
  | alloc_block =>
    rw [run_op]
    rcases consistent.alloc_block with ⟨g,bit,inside,below,clear,_,result⟩ | ⟨result,_⟩
    · rw [result]
      exact consistent.take_block inside below clear
    · rwa [result]
  | free_blocks blocks =>
    rw [run_op]
    cases freed : free_block_list fs v blocks with
    | none => exact consistent
    | some next => exact consistent.free_block_list (allowed blocks rfl) freed
  | alloc_inode =>
    rw [run_op]
    rcases consistent.alloc_inode with ⟨g,bit,inside,below,clear,result⟩ | ⟨result,_⟩
    · rw [result]
      exact consistent.take_inode inside below clear
    · rwa [result]
  | free_inode ino =>
    rw [run_op]
    cases freed : free_inode fs v ino with
    | none => exact consistent
    | some next => exact consistent.free_inode freed

/-- Two groups of eight blocks and inodes; bitmaps in 3, 4, 9 and 10. -/
def sample_fs : Fs := ⟨1024,2,1,16,2,8,8⟩

def sample_blocks (number : Nat) : Buffer :=
  if number = 3 then fun _ => 0x1f
  else if number = 4 then fun _ => 0x03
  else if number = 9 then fun _ => 0x07
  else zeroes

def sample_groups (g : Nat) : GroupDesc := if g = 0 then ⟨3,4,3,6,1⟩ else ⟨9,10,4,8,0⟩
def sample_volume : Volume :=
  ⟨⟨⟨sample_blocks,fun _ => Inode.zero⟩,[],ascending_nil,[],[],false⟩,⟨16,7,14⟩,sample_groups,[],0,0⟩

theorem sample_consistent : Consistent sample_fs sample_volume := by
  constructor
  · constructor <;> decide
  · decide
  · decide
  · decide
  · rintro block (⟨_,first⟩ | ⟨g,below,rfl | rfl⟩)
    · cases first
    · have each : ∀ g < 2, OnVolume sample_fs (sample_volume.groups g).bg_block_bitmap ∧
          block_used sample_fs sample_volume (sample_volume.groups g).bg_block_bitmap = true := by
        unfold OnVolume
        decide
      exact each g below
    have each : ∀ g < 2, OnVolume sample_fs (sample_volume.groups g).bg_inode_bitmap ∧
        block_used sample_fs sample_volume (sample_volume.groups g).bg_inode_bitmap = true := by
      unfold OnVolume
      decide
    exact each g below
  · constructor <;> decide
  · constructor <;> decide

def sample_ops : List Op := [.alloc_block,.alloc_inode,.free_blocks [6],.free_inode 3]

end ArmOS.Allocator

