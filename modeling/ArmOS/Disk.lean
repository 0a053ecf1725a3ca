import ArmOS.Bytes

/-!
The block device below the ext2 file system with the dirty blocks in front of it: a
read returns what was written last, metadata goes to the device at once, data may
wait for a flush. The inode table is kept as a table of inodes. `ext2_op_lock` is
held around every operation.
-/
namespace ArmOS.Disk
open Bytes Function List

/-- The fields of `ext2_inode_t` that the file system reads. -/
structure Inode where
  (i_mode i_uid i_gid i_size i_links_count i_blocks : Nat)
  i_block : Nat → Nat

/-- `memset(&di, 0, sizeof(di))`. -/
def Inode.zero : Inode := ⟨0,0,0,0,0,0,fun _ => 0⟩

/-- What one write changes on the device. -/
inductive DeviceWrite
  | block (number : Nat) (content : Buffer)
  | inode (ino : Nat) (content : Inode)
structure Device where
  blocks : Nat → Buffer
  inodes : Nat → Inode
def Device.apply (device : Device) : DeviceWrite → Device
  | .block number content => { device with blocks := update device.blocks number content }
  | .inode ino content => { device with inodes := update device.inodes ino content }

/-! ### The dirty blocks -/

/-- A block goes among the dirty ones, in order. -/
def put (number : Nat) (content : Buffer) : List (Nat × Buffer) → List (Nat × Buffer)
  | [] => [(number,content)]
  | first :: rest =>
    if number < first.1 then (number,content) :: first :: rest
    else if number = first.1 then (number,content) :: rest
    else first :: put number content rest

def drop (number : Nat) (dirty : List (Nat × Buffer)) : List (Nat × Buffer) :=
  dirty.filter (fun entry => entry.1 ≠ number)

/-- The numbers of the blocks ascend, so no block is there twice. -/
def Ascending (dirty : List (Nat × Buffer)) : Prop := dirty.Pairwise (fun a b => a.1 < b.1)
theorem ascending_nil : Ascending [] := .nil

theorem lookup_first (entry : Nat × Buffer) (rest : List (Nat × Buffer)) (other : Nat) :
    (entry :: rest).lookup other = if other = entry.1 then some entry.2 else rest.lookup other := by
  rw [lookup_cons]
  by_cases same : other = entry.1
  · rw [if_pos same,beq_iff_eq.mpr same]
  · rw [if_neg same,beq_false_of_ne same]

theorem lookup_put (number other : Nat) (content : Buffer) (dirty : List (Nat × Buffer)) :
    (put number content dirty).lookup other = if other = number then some content else dirty.lookup other := by
  induction dirty with
  | nil => rw [put,lookup_first]
  | cons first rest ih =>
    rw [put]
    split
    · rw [lookup_first]
    · grind

theorem lookup_drop (number other : Nat) (dirty : List (Nat × Buffer)) :
    (drop number dirty).lookup other = if other = number then none else dirty.lookup other := by
  induction dirty with
  | nil => simp [drop]
  | cons first rest ih =>
    unfold drop at ih ⊢
    grind

variable {dirty : List (Nat × Buffer)}

theorem mem_put {number : Nat} {content : Buffer} {entry : Nat × Buffer}
    (member : entry ∈ put number content dirty) : entry = (number,content) ∨ entry ∈ dirty := by
  induction dirty with
  | nil => exact .inl (mem_singleton.mp member)
  | cons first rest ih =>
    rw [put] at member
    grind

theorem Ascending.put (ascending : Ascending dirty) (number : Nat) (content : Buffer) :
    Ascending (put number content dirty) := by
  induction dirty with
  | nil => exact pairwise_singleton _ _
  | cons first rest ih =>
    obtain ⟨below,later⟩ := pairwise_cons.mp ascending
    rw [Disk.put]
    split
    · rename_i before
      refine pairwise_cons.mpr ⟨fun entry member => ?_,ascending⟩
      grind
    split
    · rename_i _ same
      exact pairwise_cons.mpr ⟨fun entry member => same ▸ below entry member,later⟩
    refine pairwise_cons.mpr ⟨fun entry member => ?_,ih later⟩
    rcases mem_put member with rfl | member
    · simp only
      omega
    · exact below entry member

theorem Ascending.drop (ascending : Ascending dirty) (number : Nat) :
    Ascending (drop number dirty) := List.Pairwise.filter _ ascending

/-! ### The block store -/

/-- The device, the cache, the writes so far, and where the cache has room. -/
structure Store where
  device : Device
  dirty : List (Nat × Buffer)
  ascending : Ascending dirty
  log : List DeviceWrite
  room : List Bool
  /-- `ext2_defer_allocation_writes` -/
  defer : Bool

/-- `ext2_read_block`. -/
def Store.read (d : Store) (number : Nat) : Buffer := (d.dirty.lookup number).getD (d.device.blocks number)

/-- `ext2_write_block`: the block goes to the device, its entry is clean. -/
def Store.write_block (d : Store) (number : Nat) (content : Buffer) : Store :=
  { d with
    device := d.device.apply (.block number content)
    dirty := drop number d.dirty
    ascending := d.ascending.drop number
    log := d.log ++ [.block number content] }

/-- `ext2_write_data_block`: the block stays in the cache if it can. -/
def Store.write_data_block (d : Store) (number : Nat) (content : Buffer) : Store :=
  match d.room with
  | false :: room => { d with room := room }.write_block number content
  | room =>
    { d with
      dirty := put number content d.dirty
      ascending := d.ascending.put number content
      room := room.tail }

/-- `ext2_write_allocation_block`. -/
def Store.write_allocation_block (d : Store) (number : Nat) (content : Buffer) : Store :=
  if d.defer then d.write_data_block number content else d.write_block number content

/-- The write of the table block in `ext2_write_disk_inode`. -/
def Store.write_inode (d : Store) (ino : Nat) (content : Inode) : Store :=
  { d with
    device := d.device.apply (.inode ino content)
    log := d.log ++ [.inode ino content] }

section
variable (d : Store) (number : Nat) (content : Buffer)
include d number content

theorem read_write_block :
    (d.write_block number content).read = update d.read number content := by
  funext other
  simp only [Store.read,Store.write_block,lookup_drop,Device.apply]
  by_cases same : other = number
  · subst same
    simp
  · simp [same,Store.read]

theorem read_write_data_block :
    (d.write_data_block number content).read = update d.read number content := by
  unfold Store.write_data_block
  split
  · exact read_write_block _ _ _
  funext other
  simp only [Store.read,lookup_put]
  by_cases same : other = number
  · subst same
    simp
  · simp [same,Store.read]

/-- A read returns what an allocation write wrote, waiting or not. -/
theorem read_write_allocation_block :
    (d.write_allocation_block number content).read = update d.read number content := by
  unfold Store.write_allocation_block
  split
  · exact read_write_data_block _ _ _
  · exact read_write_block _ _ _

end

end ArmOS.Disk

