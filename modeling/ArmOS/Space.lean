import ArmOS.Allocator
import ArmOS.FileMap

/-!
Taking and freeing blocks as the file system sees it: which block is taken, which
read differently and which are in use afterwards.
-/
namespace ArmOS.Space
open Bytes Disk Volumes Tallies Allocator FileMap List
open Function (update update_of_ne update_apply)

variable {fs : Fs} {v w u : Volume}

/-- A change of blocks only: the inodes stay, stored or pending. -/
structure Keeps (fs : Fs) (v w : Volume) : Prop where
  consistent : Consistent fs w
  places : SamePlaces v w
  pending : w.pending = v.pending
  inodes : w.store.device.inodes = v.store.device.inodes

theorem Keeps.refl (consistent : Consistent fs v) : Keeps fs v v :=
  ⟨consistent,⟨fun _ => rfl,fun _ => rfl,rfl⟩,rfl,rfl⟩

theorem Keeps.trans (first : Keeps fs v w) (second : Keeps fs w u) : Keeps fs v u := by
  refine ⟨second.consistent,?_,second.pending.trans first.pending,second.inodes.trans first.inodes⟩
  obtain ⟨blocks,inodes,count⟩ := first.places
  obtain ⟨blocks',inodes',count'⟩ := second.places
  exact ⟨fun g => (blocks' g).trans (blocks g),fun g => (inodes' g).trans (inodes g),count'.trans count⟩

variable {block : Nat}

theorem Keeps.reserved (keeps : Keeps fs v w) : Reserved fs w block ↔ Reserved fs v block :=
  keeps.places.reserved
theorem Keeps.stored (keeps : Keeps fs v w) (ino : Nat) : read_disk_inode w ino = read_disk_inode v ino := by
  simp only [read_disk_inode,find_pending_inode,keeps.pending,keeps.inodes]

/-! ### Writing a block -/

theorem inodes_write_data_block (d : Store) (number : Nat) (content : Buffer) :
    (d.write_data_block number content).device.inodes = d.device.inodes := by
  unfold Store.write_data_block
  split <;> rfl

theorem inodes_write_allocation_block (d : Store) (number : Nat) (content : Buffer) :
    (d.write_allocation_block number content).device.inodes = d.device.inodes := by
  unfold Store.write_allocation_block
  split
  · exact inodes_write_data_block _ _ _
  · rfl

section
variable (consistent : Consistent fs v) {store : Store}
  (same : ∀ block, Reserved fs v block → store.read block = v.store.read block)
include consistent same

theorem block_used_store (on : OnVolume fs block) :
    block_used fs { v with store := store } block = block_used fs v block := by
  have inside := (block_place consistent.layout on).1
  simp only [block_used,block_bitmap]
  rw [same _ (.inr ⟨_,inside,.inl rfl⟩)]

theorem keeps_store (inodes : store.device.inodes = v.store.device.inodes) : Keeps fs v { v with store := store } := by
  have places : SamePlaces v { v with store := store } := ⟨fun _ => rfl,fun _ => rfl,rfl⟩
  refine ⟨consistent.kept places ?_ ?_ ?_,places,rfl,inodes⟩
  · intro block here
    obtain ⟨on,marked⟩ := consistent.reserved block here
    rw [block_used_store consistent same on,marked]
  · exact consistent.blocks.congr (fun g inside => same _ (.inr ⟨g,inside,.inl rfl⟩)) (fun _ _ => rfl)
  · exact consistent.inodes.congr (fun g inside => same _ (.inr ⟨g,inside,.inr rfl⟩)) (fun _ _ => rfl)

end

structure Wrote (fs : Fs) (v w : Volume) (block : Nat) (content : Buffer) : Prop where
  keeps : Keeps fs v w
  read : w.store.read = update v.store.read block content
  used : ∀ n, OnVolume fs n → block_used fs w n = block_used fs v n
  free : w.sb.s_free_blocks_count = v.sb.s_free_blocks_count

section
variable (consistent : Consistent fs v)
include consistent

section
variable (allowed : ¬ Reserved fs v block)
include allowed

theorem wrote_store {store : Store}
    {content : Buffer} (read : store.read = update v.store.read block content)
    (inodes : store.device.inodes = v.store.device.inodes) : Wrote fs v { v with store := store } block content := by
  have same : ∀ n, Reserved fs v n → store.read n = v.store.read n := by
    intro n here
    rw [read,update_of_ne]
    rintro rfl
    exact allowed here
  exact ⟨keeps_store consistent same inodes,read,fun n on => block_used_store consistent same on,rfl⟩

theorem wrote_block (content : Buffer) : Wrote fs v { v with store := v.store.write_block block content } block content :=
  wrote_store consistent allowed (read_write_block _ _ _) rfl
theorem wrote_data_block (content : Buffer) :
    Wrote fs v { v with store := v.store.write_data_block block content } block content :=
  wrote_store consistent allowed (read_write_data_block _ _ _) (inodes_write_data_block _ _ _)
theorem wrote_table (content : Buffer) : Wrote fs v (write_table v block content) block content :=
  wrote_store consistent allowed (read_write_allocation_block _ _ _) (inodes_write_allocation_block _ _ _)

end

end

/-! ### Taking a block -/

structure Took (fs : Fs) (v w : Volume) (block : Nat) : Prop where
  keeps : Keeps fs v w
  free : FreeBlock fs v block
  nonzero : block ≠ 0
  read : ∀ n, ¬ Reserved fs v n → w.store.read n = if n = block then zeroes else v.store.read n
  used : ∀ n, OnVolume fs n → block_used fs w n = (block_used fs v n || decide (n = block))
  fewer : w.sb.s_free_blocks_count + 1 = v.sb.s_free_blocks_count

theorem Took.small (took : Took fs v w block) : block < 2 ^ 32 :=
  took.free.1.2.trans took.keeps.consistent.layout.blocks_count
theorem Took.allowed (took : Took fs v w block) (consistent : Consistent fs v) : ¬ Reserved fs v block :=
  consistent.free_not_reserved took.free

variable {g bit : Nat}

section
variable (consistent : Consistent fs v) (inside : g < fs.groups_count) (below : bit < group_blocks fs g)
  (clear : bitmap_test (block_bitmap v g) bit = false)
include consistent inside below clear

theorem take_block_used {n : Nat}
    (on : OnVolume fs n) : block_used fs (take_block fs v g bit) n =
      (block_used fs v n || decide (n = group_first fs g + bit)) := by
  obtain ⟨_,group,place⟩ := place_block consistent.layout below
  rw [block_used_update consistent.layout
    (fun h within => consistent.take_block_bitmaps inside below clear within) on]
  by_cases same : (n - fs.first_data_block) / fs.blocks_per_group = g
  · have whole := (block_place consistent.layout on).2.2
    rw [same] at whole
    have there : bit = (n - fs.first_data_block) % fs.blocks_per_group ↔ n = group_first fs g + bit := by omega
    rw [if_pos same,bitmap_test_set]
    simp only [block_used,same,there]
  · grind

theorem took_block
    (nonzero : group_first fs g + bit ≠ 0) : Took fs v (take_block fs v g bit) (group_first fs g + bit) := by
  have inodes : (take_block fs v g bit).store.device.inodes = v.store.device.inodes := by
    simp only [take_block,inodes_write_allocation_block]
  refine ⟨⟨consistent.take_block inside below clear,take_block_places v g bit,rfl,inodes⟩,
    consistent.clear_bit below clear,nonzero,?_,fun n on => take_block_used consistent inside below clear on,?_⟩
  · intro n outside
    have other : n ≠ (v.groups g).bg_block_bitmap := by
      rintro rfl
      exact outside (.inr ⟨g,inside,.inl rfl⟩)
    rw [take_block_read,update_of_ne other,update_apply]
  have positive := consistent.blocks.count_pos inside below clear
  simp only [take_block]
  omega

end

theorem alloc_block_cases (consistent : Consistent fs v) :
    (∃ block w, alloc_block fs v = (some block,w) ∧ Took fs v w block) ∨
      alloc_block fs v = (none,v) ∧ v.sb.s_free_blocks_count = 0 := by
  rcases consistent.alloc_block with ⟨g,bit,inside,below,clear,nonzero,taken⟩ | ⟨missing,full⟩
  · exact .inl ⟨_,_,taken,took_block consistent inside below clear nonzero⟩
  refine .inr ⟨missing,?_⟩
  rw [consistent.blocks.bits]
  refine Finset.sum_eq_zero fun g member => Finset.card_eq_zero.mpr (Finset.eq_empty_of_forall_notMem fun bit clear => ?_)
  obtain ⟨below,unmarked⟩ := mem_clear_bits.mp clear
  exact full _ (consistent.clear_bit below unmarked)

/-! ### Freeing blocks -/

structure Freed (fs : Fs) (v w : Volume) (blocks : List Nat) : Prop where
  keeps : Keeps fs v w
  read : ∀ n, ¬ Reserved fs v n → w.store.read n = v.store.read n
  used : ∀ n, OnVolume fs n → block_used fs w n = (block_used fs v n && !decide (n ∈ blocks))

theorem free_groups_frame {blocks groups : List Nat} (within : ∀ g ∈ groups, g < fs.groups_count) {state : Volume × Nat}
    (consistent : Consistent fs (counted state)) (allowed : ∀ block ∈ blocks, ¬ Reserved fs (counted state) block) :
    Keeps fs (counted state) (counted (groups.foldl (free_in_group fs blocks) state)) ∧
      (∀ n, ¬ Reserved fs (counted state) n →
        (groups.foldl (free_in_group fs blocks) state).1.store.read n = state.1.store.read n) ∧
      ∀ n, OnVolume fs n → block_used fs (counted (groups.foldl (free_in_group fs blocks) state)) n =
        (block_used fs (counted state) n &&
          !decide ((n - fs.first_data_block) / fs.blocks_per_group ∈ groups ∧ n ∈ blocks)) := by
  induction groups generalizing state with
  | nil =>
    refine ⟨Keeps.refl consistent,fun _ _ => rfl,fun n _ => ?_⟩
    simp
  | cons g rest ih =>
    have inside := within g mem_cons_self
    obtain ⟨next,freed,turn⟩ := consistent.freed_in blocks inside
    have keeps : Keeps fs (counted state) (counted (free_in_group fs blocks state g)) :=
      ⟨consistent.free_in_group allowed inside,free_in_group_places blocks state g,turn.pending,turn.inodes⟩
    obtain ⟨later,read,used⟩ := ih (forall_mem_cons.mp within).2 keeps.consistent
      (fun block member here => allowed block member (keeps.reserved.mp here))
    rw [foldl_cons]
    refine ⟨keeps.trans later,fun n outside => ?_,fun n on => ?_⟩
    · have other : n ≠ (state.1.groups g).bg_block_bitmap := by
        rintro rfl
        exact outside (.inr ⟨g,inside,.inl rfl⟩)
      rw [read n (fun here => outside (keeps.reserved.mp here)),turn.read,update_of_ne other]
    rw [used n on,consistent.freed_used inside turn on,Bool.and_assoc]
    by_cases member : n ∈ blocks
    · simp [member]
    · simp [member]

theorem free_block_list_spec (consistent : Consistent fs v) {blocks : List Nat}
    (allowed : ∀ block ∈ blocks, OnVolume fs block ∧ ¬ Reserved fs v block) :
    ∃ w, free_block_list fs v blocks = some w ∧ Freed fs v w blocks := by
  have valid : blocks.any (fun block =>
      block ≠ 0 && (block < fs.first_data_block || fs.blocks_count ≤ block)) = false := by
    rw [any_eq_false]
    intro block member
    obtain ⟨⟨low,high⟩,_⟩ := allowed block member
    simp [not_lt.mpr low,not_le.mpr high]
  have groups : (range fs.groups_count).takeWhile (fun g => group_first fs g < fs.blocks_count) =
      range fs.groups_count := by
    refine takeWhile_eq_self_iff.mpr fun g member => ?_
    exact decide_eq_true (group_first_lt consistent.layout (mem_range.mp member))
  have first : Consistent fs (counted (v,0)) := consistent
  obtain ⟨keeps,read,used⟩ := free_groups_frame (fun g member => mem_range.mp member) first
    (fun block member => (allowed block member).2)
  rcases folded : (range fs.groups_count).foldl (free_in_group fs blocks) (v,0) with ⟨next,total⟩
  rw [folded] at keeps read used
  -- the sum in the superblock counts blocks of the volume, so it fits its 32 bits
  have most : next.sb.s_free_blocks_count + total < 2 ^ 32 :=
    (keeps.consistent.blocks.total_le.trans (sum_group_blocks _)).trans_lt keeps.consistent.layout.blocks_count
  have result : free_block_list fs v blocks = some (counted (next,total)) := by
    simp only [free_block_list,valid,groups,folded,counted]
    by_cases zero : total = 0
    · simp [zero]
    · simpa [zero] using most
  refine ⟨_,result,keeps,read,fun n on => ?_⟩
  rw [used n on]
  have inside := (block_place consistent.layout on).1
  simp only [mem_range,inside,true_and]
  rfl

end ArmOS.Space

