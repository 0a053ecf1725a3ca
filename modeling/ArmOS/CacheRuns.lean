import ArmOS.Coherence

/-!
Runs of the block cache beside a record of what was last written to each block. The
two agree in every state reached from a mounted volume, and after a sync the device
holds the record.
-/
namespace ArmOS.CacheRuns
open Bytes BlockCache Coherence Runs Function List Option

variable {g : Geometry} {c d : Cache} {w : Nat → Buffer}

def Agrees (g : Geometry) (c : Cache) (w : Nat → Buffer) : Prop :=
  ∀ block, Usable g block → ∀ k < g.block_size, view g c block k = w block k

/-! ### The place of an inode -/

def desc_block (g : Geometry) (ino : Nat) : Nat :=
  g.gdesc_block + (ino - 1) / g.inodes_per_group / (g.block_size / 32)

/-- The block and the offset of an inode, on record. -/
def place (g : Geometry) (w : Nat → Buffer) (ino : Nat) : Nat × Nat :=
  let table := load 4 (w (desc_block g ino)) ((ino - 1) / g.inodes_per_group % (g.block_size / 32) * 32 + 8)
  let inodes_per_block := g.block_size / g.inode_size
  (table + (ino - 1) % g.inodes_per_group / inodes_per_block,
    (ino - 1) % g.inodes_per_group % inodes_per_block * g.inode_size)

def put_inode (g : Geometry) (w : Nat → Buffer) (ino : Nat) (inode : Buffer) : Nat → Buffer :=
  update w (place g w ino).1 (copy (w (place g w ino).1) (place g w ino).2 inode 0 INODE_SIZE)

def put_slots (g : Geometry) (w : Nat → Buffer) (slots : List (Option (Nat × Buffer))) : Nat → Buffer :=
  slots.foldl (fun w slot =>
    match slot with
    | none => w
    | some (ino,inode) => put_inode g w ino inode) w

/-- The inode's descriptor and table block are on the volume. -/
def Located (g : Geometry) (w : Nat → Buffer) (ino : Nat) : Prop :=
  Usable g (desc_block g ino) ∧ Usable g (place g w ino).1

/-- Inode tables hold no descriptors; inodes of the slots do not overlap. -/
structure Placed (g : Geometry) (w : Nat → Buffer) (slots : List (Option (Nat × Buffer))) : Prop where
  located : ∀ entry, some entry ∈ slots → Located g w entry.1
  tables : ∀ entry other, some entry ∈ slots → some other ∈ slots → (place g w entry.1).1 ≠ desc_block g other.1
  apart : ∀ entry other, some entry ∈ slots → some other ∈ slots → entry.1 ≠ other.1 →
    (place g w entry.1).1 = (place g w other.1).1 →
    (place g w entry.1).2 + INODE_SIZE ≤ (place g w other.1).2 ∨
      (place g w other.1).2 + INODE_SIZE ≤ (place g w entry.1).2

def Distinct (slots : List (Option (Nat × Buffer))) : Prop :=
  slots.Pairwise fun s t => ∀ entry ∈ s, ∀ other ∈ t, entry.1 ≠ other.1

/-- Block and inode sizes as ext2 has them. -/
structure Sane (g : Geometry) : Prop where
  large : 1024 ≤ g.block_size
  least : INODE_SIZE ≤ g.inode_size
  most : g.inode_size ≤ g.block_size

theorem Sane.place_inside (sane : Sane g) (ino : Nat) : (place g w ino).2 + INODE_SIZE ≤ g.block_size := by
  have least := sane.least
  have positive : 0 < g.inode_size := by
    unfold INODE_SIZE at least
    omega
  have some_inode : 0 < g.block_size / g.inode_size := Nat.div_pos sane.most positive
  have index := Nat.mod_lt ((ino - 1) % g.inodes_per_group) some_inode
  have whole := Nat.div_mul_le_self g.block_size g.inode_size
  have stops : ((ino - 1) % g.inodes_per_group % (g.block_size / g.inode_size) + 1) * g.inode_size ≤
      g.block_size / g.inode_size * g.inode_size := Nat.mul_le_mul_right _ index
  rw [add_mul,one_mul] at stops
  unfold place
  dsimp only
  omega

variable {ino block : Nat} {slots : List (Option (Nat × Buffer))}

theorem place_congr {w' : Nat → Buffer} (large : 1024 ≤ g.block_size)
    (same : ∀ k < g.block_size, w' (desc_block g ino) k = w (desc_block g ino) k) : place g w' ino = place g w ino := by
  have descs : load 4 (w' (desc_block g ino)) ((ino - 1) / g.inodes_per_group % (g.block_size / 32) * 32 + 8) =
      load 4 (w (desc_block g ino)) ((ino - 1) / g.inodes_per_group % (g.block_size / 32) * 32 + 8) := by
    refine load_congr (fun k low high => same k ?_)
    have small : (ino - 1) / g.inodes_per_group % (g.block_size / 32) < g.block_size / 32 := Nat.mod_lt _ (by omega)
    omega
  unfold place
  rw [descs]

theorem inode_location_spec {found : Nat × Nat} (large : 1024 ≤ g.block_size) (inv : Inv g c)
    (agrees : Agrees g c w) (usable : Usable g (desc_block g ino)) (result : inode_location g c ino = (found,d)) :
    found = place g w ino ∧ Filled g c d := by
  unfold inode_location at result
  rcases read : read_block g c (desc_block g ino) with ⟨descs,c₁⟩
  obtain ⟨content,filled⟩ := read_block_spec inv usable read
  unfold desc_block at read
  dsimp only at result
  rw [read] at result
  cases result
  refine ⟨?_,filled⟩
  have same : place g (fun _ => descs) ino = place g w ino := by
    refine place_congr large (fun k inside => ?_)
    rw [content,agrees _ usable k inside]
  exact same

def forget (ino : Nat) (slot : Option (Nat × Buffer)) : Option (Nat × Buffer) :=
  if slot.any (fun entry => entry.1 = ino) then none else slot

structure WroteInode (g : Geometry) (c d : Cache) (w : Nat → Buffer) (ino : Nat) (inode : Buffer) : Prop where
  inv : Inv g d
  agrees : Agrees g d (put_inode g w ino inode)
  stable : d.stable = c.stable
  flag : d.dirty = true
  sb : d.sb = c.sb
  sb_dirty : d.sb_dirty = c.sb_dirty
  pending : d.pending = c.pending.map (forget ino)
  superblock : SameSuperblock c d
  dirty : dirty_entries d ⊆ dirty_entries c

section
variable (large : 1024 ≤ g.block_size)
include large

theorem write_disk_inode_spec (inv : Inv g c) (agrees : Agrees g c w)
    (located : Located g w ino) (inode : Buffer) : WroteInode g c (write_disk_inode g c ino inode) w ino inode := by
  rcases where_is : inode_location g c ino with ⟨found,c₁⟩
  obtain ⟨rfl,looked⟩ := inode_location_spec large inv agrees located.1 where_is
  rcases read : read_block g c₁ (place g w ino).1 with ⟨content,c₂⟩
  obtain ⟨held,filled⟩ := read_block_spec looked.inv located.2 read
  have both := looked.trans filled
  obtain ⟨wrote,fewer⟩ := write_block_spec both.inv located.2 (copy content (place g w ino).2 inode 0 INODE_SIZE)
  have result : write_disk_inode g c ino inode = { write_block g c₂ (place g w ino).1
      (copy content (place g w ino).2 inode 0 INODE_SIZE) with
      pending := (write_block g c₂ (place g w ino).1 (copy content (place g w ino).2 inode 0 INODE_SIZE)).pending.map
        (forget ino) } := by
    unfold write_disk_inode
    rw [where_is]
    dsimp only
    rw [read]
    rfl
  rw [result]
  refine ⟨⟨wrote.inv.home,wrote.inv.single,wrote.inv.dirty_valid,wrote.inv.clean,wrote.inv.counter⟩,?_,
    wrote.stable.trans both.stable,wrote.flag,wrote.sb.trans both.sb,wrote.sb_dirty.trans both.sb_dirty,?_,?_,?_⟩
  · intro block usable k inside
    refine (wrote.view block k inside).trans ?_
    unfold put_inode
    by_cases same : block = (place g w ino).1
    · subst same
      rw [if_pos rfl,update_self]
      unfold copy
      split
      · rfl
      · rw [held,looked.view _ k inside,agrees _ usable k inside]
    · rw [if_neg same,update_of_ne same,both.view block k inside,agrees block usable k inside]
  · dsimp only
    rw [wrote.pending,both.pending]
  · intro k inside
    exact (wrote.superblock k inside).trans (congrFun both.disk _)
  · exact fewer.trans both.dirty.le

/-- Putting one inode leaves the places of the others. -/
theorem Placed.tail {slot : Option (Nat × Buffer)} (placed : Placed g w (slot :: slots)) :
    Placed g (put_slots g w [slot]) slots ∧
      ∀ entry, some entry ∈ slots → place g (put_slots g w [slot]) entry.1 = place g w entry.1 := by
  have same : ∀ entry, some entry ∈ slots → place g (put_slots g w [slot]) entry.1 = place g w entry.1 := by
    intro entry member
    cases slot with
    | none => rfl
    | some first =>
      have apart := placed.tables first entry mem_cons_self (mem_cons_of_mem _ member)
      exact place_congr large fun k _ => congrFun (update_of_ne (Ne.symm apart) _ _) k
  refine ⟨⟨?_,?_,?_⟩,same⟩
  · intro entry member
    unfold Located
    rw [same entry member]
    exact placed.located entry (mem_cons_of_mem _ member)
  · intro entry other member listed
    grind [tables]
  intro entry other member listed
  rw [same entry member,same other listed]
  exact placed.apart entry other (mem_cons_of_mem _ member) (mem_cons_of_mem _ listed)

end

theorem put_slots_cons (w : Nat → Buffer) (slot : Option (Nat × Buffer)) (slots : List (Option (Nat × Buffer))) :
    put_slots g w (slot :: slots) = put_slots g (put_slots g w [slot]) slots := rfl

theorem put_slots_outside (large : 1024 ≤ g.block_size) (placed : Placed g w slots) {k : Nat}
    (outside : ∀ entry, some entry ∈ slots → (place g w entry.1).1 = block →
      k < (place g w entry.1).2 ∨ (place g w entry.1).2 + INODE_SIZE ≤ k) : put_slots g w slots block k = w block k := by
  induction slots generalizing w with
  | nil => rfl
  | cons slot rest ih =>
    obtain ⟨later,same⟩ := placed.tail large
    rw [put_slots_cons,ih later]
    · cases slot with
      | none => rfl
      | some first =>
        change put_inode g w first.1 first.2 block k = w block k
        unfold put_inode
        by_cases here : block = (place g w first.1).1
        · have apart := outside first mem_cons_self here.symm
          rw [here,update_self]
          exact if_neg (by omega)
        · rw [update_of_ne here]
    intro entry member
    rw [same entry member]
    exact outside entry (mem_cons_of_mem _ member)

theorem put_slots_inode (large : 1024 ≤ g.block_size) (placed : Placed g w slots) (distinct : Distinct slots)
    {entry : Nat × Buffer} (member : some entry ∈ slots) {k : Nat} (inside : k < INODE_SIZE) :
    put_slots g w slots (place g w entry.1).1 ((place g w entry.1).2 + k) = entry.2 k := by
  induction slots generalizing w with
  | nil => cases member
  | cons slot rest ih =>
    obtain ⟨later,same⟩ := placed.tail large
    rw [put_slots_cons]
    rcases mem_cons.mp member with rfl | listed
    · have other_ino := (pairwise_cons.mp distinct).1
      rw [put_slots_outside large later]
      · change put_inode g w entry.1 entry.2 _ _ = _
        unfold put_inode copy
        rw [update_self,if_pos (by omega),zero_add,Nat.add_sub_cancel_left]
      intro other listed at_block
      rw [same other listed] at at_block ⊢
      have distance := placed.apart entry other mem_cons_self (mem_cons_of_mem _ listed)
        (other_ino (some other) listed entry rfl other rfl) at_block.symm
      omega
    rw [← same entry listed]
    exact ih later (pairwise_cons.mp distinct).2 listed

/-! ### Syncing -/

theorem flush_pending_spec (large : 1024 ≤ g.block_size) (inv : Inv g c) (agrees : Agrees g c w)
    (placed : Placed g w slots) (flag : c.dirty = true) : let d := slots.foldl (fun c slot =>
      match slot with
      | none => c
      | some (ino,inode) => write_disk_inode g c ino inode) c
    Inv g d ∧ Agrees g d (put_slots g w slots) ∧ d.dirty = true ∧ d.sb = c.sb ∧ d.sb_dirty = c.sb_dirty ∧
      SameSuperblock c d ∧ dirty_entries d ⊆ dirty_entries c ∧
      ∀ entry, some entry ∈ d.pending → some entry ∈ c.pending ∧ ∀ other, some other ∈ slots → other.1 ≠ entry.1 := by
  induction slots generalizing c w with
  | nil =>
    exact ⟨inv,agrees,flag,rfl,rfl,fun _ _ => rfl,subset_rfl,fun entry member => ⟨member,nofun⟩⟩
  | cons slot rest ih =>
    obtain ⟨later,same⟩ := placed.tail large
    cases slot with
    | none =>
      obtain ⟨inv',agrees',flag',sb,sb_dirty,superblock,fewer,left⟩ := ih inv agrees later flag
      refine ⟨inv',agrees',flag',sb,sb_dirty,superblock,fewer,fun entry member => ?_⟩
      refine ⟨(left entry member).1,fun other listed => ?_⟩
      rcases mem_cons.mp listed with none_some | listed
      · cases none_some
      · exact (left entry member).2 other listed
    | some first =>
      have wrote := write_disk_inode_spec large inv agrees (placed.located first mem_cons_self) first.2
      obtain ⟨inv',agrees',flag',sb,sb_dirty,superblock,fewer,left⟩ := ih wrote.inv wrote.agrees later wrote.flag
      refine ⟨inv',agrees',flag',sb.trans wrote.sb,sb_dirty.trans wrote.sb_dirty,
        fun k inside => (superblock k inside).trans (wrote.superblock k inside),fewer.trans wrote.dirty,
        fun entry member => ?_⟩
      obtain ⟨listed,apart⟩ := left entry member
      rw [wrote.pending] at listed
      obtain ⟨slot,before,forgot⟩ := mem_map.mp listed
      unfold forget at forgot
      split at forgot
      · cases forgot
      rename_i kept
      subst forgot
      refine ⟨before,fun other member => ?_⟩
      rcases mem_cons.mp member with here | member
      · cases here
        intro equal
        exact kept (by simp [equal])
      · exact apart other member

/-- The superblock is on the device unless it waits; nothing waits without `ext2_dirty`. -/
structure Whole (g : Geometry) (c : Cache) : Prop where
  inv : Inv g c
  superblock : c.sb_dirty = false → ∀ k < SUPERBLOCK_SIZE, c.disk (SUPERBLOCK_OFFSET + k) = c.sb k
  quiet : c.dirty = false →
    c.stable = c.disk ∧ dirty_entries c = ∅ ∧ (∀ entry, some entry ∉ c.pending) ∧ c.sb_dirty = false
  distinct : Distinct c.pending

/-- Writing the superblock leaves the blocks behind it alone. -/
theorem write_superblock_disk_spec (inv : Inv g c) :
    Inv g (write_superblock_disk c) ∧ (∀ block, Usable g block → ∀ k < g.block_size,
      view g (write_superblock_disk c) block k = view g c block k) ∧
      ∀ k < SUPERBLOCK_SIZE, (write_superblock_disk c).disk (SUPERBLOCK_OFFSET + k) = c.sb k := by
  have behind : ∀ block, Usable g block → ∀ k, disk_block g (write_superblock_disk c).disk block k =
      disk_block g c.disk block k := by
    intro block usable k
    have far := usable.1
    unfold disk_block write_superblock_disk copy
    unfold SUPERBLOCK_OFFSET SUPERBLOCK_SIZE at *
    exact if_neg (by omega)
  refine ⟨⟨inv.home,inv.single,inv.dirty_valid,?_,inv.counter⟩,?_,?_⟩
  · intro i content valid clean data k inside
    exact (inv.clean i content valid clean data k inside).trans (behind _ (inv.home i valid).2.1 k).symm
  · intro block usable k inside
    cases found : find c block with
    | none =>
      have missing : find (write_superblock_disk c) block = none := found
      rw [view_absent missing,view_absent found,behind block usable]
    | some i =>
      obtain ⟨_,valid,_⟩ := find_some found
      obtain ⟨content,data⟩ := isSome_iff_exists.mp (inv.home i valid).2.2
      have there : find (write_superblock_disk c) block = some i := found
      rw [view_entry there data,view_entry found data]
  · simp_all [write_superblock_disk,copy]

structure Synced (g : Geometry) (c d : Cache) (w : Nat → Buffer) : Prop where
  whole : Whole g d
  agrees : Agrees g d (put_slots g w c.pending)
  contents : ∀ block, Usable g block → ∀ k < g.block_size,
    disk_block g d.stable block k = put_slots g w c.pending block k
  superblock : ∀ k < SUPERBLOCK_SIZE, d.stable (SUPERBLOCK_OFFSET + k) = c.sb k

def finish_sync (g : Geometry) (c : Cache) : Cache :=
  let c := if c.sb_dirty then write_superblock_disk c else c
  let c := if c.pending.any (·.isSome) then flush_pending_inodes g (blk_flush c) else c
  if c.dirty then { blk_flush c with dirty := false } else c

theorem put_slots_none (empty : slots.any (·.isSome) = false) :
    put_slots g w slots = w ∧ ∀ entry, some entry ∉ slots := by
  have none_left : ∀ entry, some entry ∉ slots := by
    intro entry member
    rw [List.any_eq_false] at empty
    exact empty _ member rfl
  refine ⟨?_,none_left⟩
  clear empty
  induction slots with
  | nil => rfl
  | cons slot rest ih =>
    cases slot with
    | some entry => exact absurd mem_cons_self (none_left entry)
    | none => exact ih (fun entry member => none_left entry (mem_cons_of_mem _ member))

/-- Without dirty blocks, the rest of a sync brings superblock and inodes to the device. -/
theorem finish_sync_spec (large : 1024 ≤ g.block_size) (inv : Inv g c) (agrees : Agrees g c w)
    (placed : Placed g w c.pending) (clean : dirty_entries c = ∅) (flag : c.dirty = true)
    (superblock : c.sb_dirty = false → ∀ k < SUPERBLOCK_SIZE, c.disk (SUPERBLOCK_OFFSET + k) = c.sb k) :
    Synced g c (finish_sync g c) w := by
  -- the superblock
  obtain ⟨c₁,first⟩ : ∃ c₁, c₁ = if c.sb_dirty then write_superblock_disk c else c := ⟨_,rfl⟩
  obtain ⟨inv₁,agrees₁,pending₁,flag₁,sb₁,sb_dirty₁,clean₁,written₁⟩ :
      Inv g c₁ ∧ Agrees g c₁ w ∧ c₁.pending = c.pending ∧ c₁.dirty = true ∧ c₁.sb = c.sb ∧
      c₁.sb_dirty = false ∧ dirty_entries c₁ = ∅ ∧
      ∀ k < SUPERBLOCK_SIZE, c₁.disk (SUPERBLOCK_OFFSET + k) = c.sb k := by
    by_cases dirty : c.sb_dirty = true
    · rw [if_pos dirty] at first
      subst first
      obtain ⟨new,same,written⟩ := write_superblock_disk_spec inv
      exact ⟨new,fun block usable k inside => (same block usable k inside).trans (agrees block usable k inside),
        rfl,rfl,rfl,rfl,clean,written⟩
    · grind
  -- the inodes
  obtain ⟨c₂,second⟩ : ∃ c₂, c₂ = if c₁.pending.any (·.isSome) then flush_pending_inodes g (blk_flush c₁) else c₁ :=
    ⟨_,rfl⟩
  obtain ⟨inv₂,agrees₂,flag₂,sb₂,sb_dirty₂,clean₂,written₂,empty₂⟩ :
      Inv g c₂ ∧ Agrees g c₂ (put_slots g w c.pending) ∧ c₂.dirty = true ∧ c₂.sb = c.sb ∧
      c₂.sb_dirty = false ∧ dirty_entries c₂ = ∅ ∧ (∀ k < SUPERBLOCK_SIZE, c₂.disk (SUPERBLOCK_OFFSET + k) = c.sb k) ∧
      ∀ entry, some entry ∉ c₂.pending := by
    by_cases some_left : c₁.pending.any (·.isSome) = true
    · rw [if_pos some_left] at second
      have flushed : Inv g (blk_flush c₁) :=
        ⟨inv₁.home,inv₁.single,inv₁.dirty_valid,inv₁.clean,inv₁.counter⟩
      obtain ⟨new,same,marked,sb,sb_dirty,superblock₂,fewer,left⟩ :=
        flush_pending_spec large flushed agrees₁ (pending₁ ▸ placed) flag₁
      subst second
      refine ⟨new,pending₁ ▸ same,marked,sb.trans sb₁,sb_dirty.trans sb_dirty₁,?_,?_,?_⟩
      · exact Finset.subset_empty.mp (fewer.trans clean₁.le)
      · intro k inside
        exact (superblock₂ k inside).trans (written₁ k inside)
      intro entry member
      obtain ⟨listed,apart⟩ := left entry member
      exact apart entry listed rfl
    have none_left := put_slots_none (g := g) (w := w) (Bool.eq_false_iff.mpr some_left)
    grind
  have last : finish_sync g c = { blk_flush c₂ with dirty := false } := by
    unfold finish_sync
    dsimp only
    rw [← first,← second]
    exact if_pos flag₂
  rw [last]
  have new : Inv g { blk_flush c₂ with dirty := false } :=
    ⟨inv₂.home,inv₂.single,inv₂.dirty_valid,inv₂.clean,inv₂.counter⟩
  refine ⟨⟨new,?_,?_,?_⟩,agrees₂,?_,written₂⟩
  · intro _ k inside
    exact (written₂ k inside).trans (congrFun sb₂.symm k)
  · intro _
    exact ⟨rfl,clean₂,empty₂,sb_dirty₂⟩
  · have none_slots : ∀ slot ∈ c₂.pending, slot = none := by
      intro slot member
      cases slot with
      | none => rfl
      | some entry => exact absurd member (empty₂ entry)
    refine pairwise_of_forall_mem_list (fun s in_s t _ entry member => ?_)
    rw [none_slots s in_s] at member
    cases member
  intro block usable k inside
  rw [← agrees₂ block usable k inside]
  exact (inv₂.view_clean clean₂ block inside).symm

theorem sync_spec {capacity : Nat} (large : 1024 ≤ g.block_size) (whole : Whole g c) (agrees : Agrees g c w)
    (placed : Placed g w c.pending) (result : sync g c capacity = some d) : Synced g c d w := by
  unfold sync at result
  obtain ⟨c₁,flushed,finished⟩ := map_eq_some_iff.mp result
  change finish_sync g c₁ = d at finished
  rcases flush_dirty_blocks_spec whole.inv capacity with ⟨failed,_⟩ | ⟨e,done,kept,clean,unchanged,_⟩
  · rw [failed] at flushed
    cases flushed
  rw [done] at flushed
  obtain rfl := some.inj flushed
  cases dirty : c.dirty with
  | true =>
    have synced := finish_sync_spec large kept.inv
      (fun block usable k inside => (kept.view block k inside).trans (agrees block usable k inside))
      (kept.pending ▸ placed) clean (kept.flag.trans dirty)
      (fun not_dirty k inside => by
        rw [kept.superblock k inside,kept.sb]
        exact whole.superblock (kept.sb_dirty ▸ not_dirty) k inside)
    subst finished
    refine ⟨synced.whole,kept.pending ▸ synced.agrees,kept.pending ▸ synced.contents,kept.sb ▸ synced.superblock⟩
  | false =>
    -- nothing waits to be written: the sync does nothing, and the device is durable already
    obtain ⟨durable,no_dirty,no_pending,sb_clean⟩ := whole.quiet dirty
    have same : e = c := unchanged (by rw [whole.inv.counter,no_dirty]; rfl)
    rw [same] at finished
    have empty : c.pending.any (·.isSome) = false := by
      rw [List.any_eq_false]
      intro slot member
      cases slot with
      | none => decide
      | some entry => exact absurd member (no_pending entry)
    have idle : finish_sync g c = c := by
      unfold finish_sync
      dsimp only
      simp only [sb_clean,Bool.false_eq_true,if_false,empty,dirty]
    rw [idle] at finished
    subst finished
    have nothing : put_slots g w c.pending = w := (put_slots_none empty).1
    refine ⟨whole,by rwa [nothing],?_,?_⟩
    · intro block usable k inside
      rw [nothing,durable,← agrees block usable k inside]
      exact (whole.inv.view_clean no_dirty block inside).symm
    intro k inside
    rw [durable]
    exact whole.superblock sb_clean k inside

/-! ### The table of pending inodes -/

theorem Distinct.set (distinct : Distinct slots) {i : Nat} {inode : Buffer}
    (others : ∀ j entry, slots[j]? = some (some entry) → j ≠ i → entry.1 ≠ ino) :
    Distinct (slots.set i (some (ino,inode))) := by
  unfold Distinct at *
  rw [pairwise_iff_getElem] at distinct ⊢
  intro j k below inside ordered entry member other listed
  rw [length_set] at below inside
  rw [getElem_set] at member listed
  have at_j : slots[j]? = some slots[j] := getElem?_eq_getElem below
  have at_k : slots[k]? = some slots[k] := getElem?_eq_getElem inside
  by_cases here : i = j
  · rw [if_pos here] at member
    rw [if_neg (by omega)] at listed
    cases member
    rw [mem_def.mp listed] at at_k
    exact Ne.symm (others k other at_k (by omega))
  rw [if_neg here] at member
  by_cases there : i = k
  · rw [if_pos there] at listed
    cases listed
    rw [mem_def.mp member] at at_j
    exact others j entry at_j (by omega)
  rw [if_neg there] at listed
  exact distinct j k below inside ordered entry member other listed

theorem queue_pending_distinct (distinct : Distinct c.pending) (ino : Nat) (inode : Buffer) :
    Distinct (queue_pending_inode c ino inode).pending := by
  unfold queue_pending_inode
  split
  · rename_i i found
    refine distinct.set (fun j entry at_j other => ?_)
    -- the inode is in slot `i`, so in no other one
    obtain ⟨bound,here,_⟩ := findIdx?_eq_some_iff_getElem.mp found
    cases slot : c.pending[i] with
    | none =>
      rw [slot] at here
      cases here
    | some old =>
      rw [slot] at here
      have same : old.1 = ino := by simpa using here
      intro equal
      unfold Distinct at distinct
      rw [pairwise_iff_getElem] at distinct
      grind
  rename_i missing
  split
  · refine distinct.set (fun j entry at_j _ => ?_)
    rw [findIdx?_eq_none_iff] at missing
    have absent := missing _ (mem_of_getElem? at_j)
    simpa using absent
  · exact distinct

theorem Distinct.forget (distinct : Distinct slots) (ino : Nat) : Distinct (slots.map (forget ino)) := by
  unfold Distinct at *
  rw [pairwise_map]
  refine distinct.imp (fun {s t} apart entry member other listed => ?_)
  have kept : ∀ {slot : Option (Nat × Buffer)} {entry}, entry ∈ CacheRuns.forget ino slot → entry ∈ slot := by
    intro slot entry inside
    unfold CacheRuns.forget at inside
    split at inside
    · cases inside
    · exact inside
  exact apart entry (kept member) other (kept listed)

/-! ### Runs -/

inductive Op
  | read (block : Nat)
  | read_contiguous (first count : Nat)
  | write_block (block : Nat) (content : Buffer)
  | write_data_block (block : Nat) (content : Buffer)
  | flush (capacity : Nat)
  | write_inode (ino : Nat) (inode : Buffer)
  | queue_inode (ino : Nat) (inode : Buffer)
  | write_superblock (sb : Buffer)
  | sync (capacity : Nat)

def run_op (g : Geometry) (c : Cache) : Op → Cache
  | .read block => (read_block g c block).2
  | .read_contiguous first count => (read_contiguous_blocks g c first count).2
  | .write_block block content => BlockCache.write_block g c block content
  | .write_data_block block content => BlockCache.write_data_block g c block content
  | .flush capacity => (flush_dirty_blocks g c capacity).getD c
  | .write_inode ino inode => write_disk_inode g c ino inode
  | .queue_inode ino inode => queue_pending_inode c ino inode
  | .write_superblock sb => BlockCache.write_superblock c sb
  | .sync capacity => (BlockCache.sync g c capacity).getD c

def effect (g : Geometry) (c : Cache) (w : Nat → Buffer) : Op → Nat → Buffer
  | .write_block block content => update w block content
  | .write_data_block block content => update w block content
  | .write_inode ino inode => put_inode g w ino inode
  | .sync capacity => if (BlockCache.sync g c capacity).isSome then put_slots g w c.pending else w
  | _ => w

/-- Callers use blocks of the volume; inode tables and descriptors are apart. -/
def Allowed (g : Geometry) (c : Cache) (w : Nat → Buffer) : Op → Prop
  | .read block => Usable g block
  | .read_contiguous first count => ∀ block ∈ List.range' first count, Usable g block
  | .write_block block _ => Usable g block
  | .write_data_block block _ => Usable g block
  | .write_inode ino _ => Located g w ino
  | .sync _ => Placed g w c.pending
  | _ => True

def Step (g : Geometry) (state : Cache × (Nat → Buffer)) (op : Op) (next : Cache × (Nat → Buffer)) : Prop :=
  Allowed g state.1 state.2 op ∧ next = (run_op g state.1 op,effect g state.1 state.2 op)

/-- The state after `ext2_mount`: an empty cache over the device. -/
structure Mounted (c : Cache) : Prop where
  entries : ∀ i, (c.entries i).valid = false ∧ (c.entries i).dirty = false
  count : c.cache_dirty_blocks = 0
  stable : c.stable = c.disk
  sb : ∀ k < SUPERBLOCK_SIZE, c.sb k = c.disk (SUPERBLOCK_OFFSET + k)
  sb_dirty : c.sb_dirty = false
  pending : ∀ slot ∈ c.pending, slot = none

theorem Mounted.whole (mounted : Mounted c) : Whole g c ∧ Agrees g c (disk_block g c.disk) := by
  have unused : ∀ i, (c.entries i).valid = true → False := by
    intro i valid
    rw [(mounted.entries i).1] at valid
    cases valid
  have clean : dirty_entries c = ∅ := by
    refine Finset.eq_empty_of_forall_notMem (fun i member => ?_)
    have dirty := (Finset.mem_filter.mp member).2
    rw [(mounted.entries i).2] at dirty
    cases dirty
  have inv : Inv g c := by
    refine ⟨fun i valid => (unused i valid).elim,fun i _ valid => (unused i valid).elim,fun i dirty => ?_,
      fun i _ valid => (unused i valid).elim,?_⟩
    · rw [(mounted.entries i).2] at dirty
      cases dirty
    rw [mounted.count,clean]
    rfl
  refine ⟨⟨inv,fun _ k inside => (mounted.sb k inside).symm,fun _ => ⟨mounted.stable,clean,?_,mounted.sb_dirty⟩,?_⟩,?_⟩
  · intro entry member
    cases mounted.pending _ member
  · refine pairwise_of_forall_mem_list (fun s in_s t _ entry member => ?_)
    rw [mounted.pending s in_s] at member
    cases member
  intro block _ k inside
  exact inv.view_clean clean block inside

theorem Whole.filled (whole : Whole g c) (filled : Filled g c d) : Whole g d := by
  refine ⟨filled.inv,fun clean k inside => ?_,fun quiet => ?_,filled.pending ▸ whole.distinct⟩
  · rw [filled.disk,filled.sb]
    exact whole.superblock (filled.sb_dirty ▸ clean) k inside
  rw [filled.stable,filled.disk,filled.dirty,filled.pending,filled.sb_dirty]
  exact whole.quiet (filled.flag ▸ quiet)

variable {content : Buffer}

theorem Whole.wrote (whole : Whole g c) (wrote : Wrote g c d block content) : Whole g d := by
  refine ⟨wrote.inv,fun clean k inside => ?_,fun quiet => ?_,wrote.pending ▸ whole.distinct⟩
  · rw [wrote.superblock k inside,wrote.sb]
    exact whole.superblock (wrote.sb_dirty ▸ clean) k inside
  rw [wrote.flag] at quiet
  cases quiet

theorem Agrees.wrote (agrees : Agrees g c w) (wrote : Wrote g c d block content) :
    Agrees g d (update w block content) := by
  intro other usable k inside
  rw [wrote.view other k inside]
  by_cases same : other = block
  · rw [if_pos same,same,update_self]
  · rw [if_neg same,update_of_ne same,agrees other usable k inside]

theorem step_whole {op : Op} (large : 1024 ≤ g.block_size) (whole : Whole g c) (agrees : Agrees g c w)
    (allowed : Allowed g c w op) : Whole g (run_op g c op) ∧ Agrees g (run_op g c op) (effect g c w op) := by
  have filled : ∀ {d : Cache}, Filled g c d → Whole g d ∧ Agrees g d w := by
    intro d same
    exact ⟨whole.filled same,fun block usable k inside => (same.view block k inside).trans (agrees block usable k inside)⟩
  cases op with
  | read block =>
    rcases result : read_block g c block with ⟨content,d⟩
    rw [run_op,result]
    exact filled (read_block_spec whole.inv allowed result).2
  | read_contiguous first count =>
    rcases result : read_contiguous_blocks g c first count with ⟨contents,d⟩
    rw [run_op,result]
    cases contents with
    | some contents => exact filled (read_contiguous_spec whole.inv allowed result).1
    | none =>
      have same : d = c := by
        unfold read_contiguous_blocks at result
        dsimp only at result
        split at result
        · cases result
          rfl
        · split at result <;> cases result
      rw [same]
      exact ⟨whole,agrees⟩
  | write_block block content =>
    have wrote := (write_block_spec whole.inv allowed content).1
    exact ⟨whole.wrote wrote,agrees.wrote wrote⟩
  | write_data_block block content =>
    have wrote := write_data_block_spec whole.inv allowed content
    exact ⟨whole.wrote wrote,agrees.wrote wrote⟩
  | flush capacity =>
    rcases flush_dirty_blocks_spec whole.inv capacity with ⟨failed,_⟩ | ⟨d,done,kept,clean,unchanged,_⟩
    · rw [run_op,failed]
      exact ⟨whole,agrees⟩
    rw [run_op,done]
    refine ⟨⟨kept.inv,fun clean_sb k inside => ?_,fun quiet => ?_,kept.pending ▸ whole.distinct⟩,
      fun block usable k inside => (kept.view block k inside).trans (agrees block usable k inside)⟩
    · rw [getD_some,kept.superblock k inside,kept.sb]
      exact whole.superblock (kept.sb_dirty ▸ clean_sb) k inside
    have before := whole.quiet (kept.flag ▸ quiet)
    rw [getD_some,unchanged (by rw [whole.inv.counter,before.2.1]; rfl)]
    exact before
  | write_inode ino inode =>
    have wrote := write_disk_inode_spec large whole.inv agrees allowed inode
    refine ⟨⟨wrote.inv,fun clean k inside => ?_,fun quiet => ?_,?_⟩,wrote.agrees⟩
    · exact (wrote.superblock k inside).trans
        ((whole.superblock (wrote.sb_dirty ▸ clean) k inside).trans (congrFun wrote.sb.symm k))
    · exact absurd (wrote.flag.symm.trans quiet) (by decide)
    · exact wrote.pending ▸ whole.distinct.forget ino
  | queue_inode ino inode =>
    have distinct := queue_pending_distinct whole.distinct ino inode
    have same : ∃ pending flag, queue_pending_inode c ino inode = { c with pending := pending, dirty := flag } ∧
        (flag = true ∨ pending = c.pending ∧ flag = c.dirty) := by
      unfold queue_pending_inode
      split
      · exact ⟨_,_,rfl,.inl rfl⟩
      split
      · exact ⟨_,_,rfl,.inl rfl⟩
      · exact ⟨c.pending,c.dirty,rfl,.inr ⟨rfl,rfl⟩⟩
    obtain ⟨pending,flag,result,marked⟩ := same
    rw [run_op]
    rw [result] at distinct ⊢
    refine ⟨⟨⟨whole.inv.home,whole.inv.single,whole.inv.dirty_valid,whole.inv.clean,whole.inv.counter⟩,
      whole.superblock,fun quiet => ?_,distinct⟩,agrees⟩
    rcases marked with rfl | ⟨rfl,rfl⟩
    · cases quiet
    · exact whole.quiet quiet
  | write_superblock sb =>
    exact ⟨⟨⟨whole.inv.home,whole.inv.single,whole.inv.dirty_valid,whole.inv.clean,whole.inv.counter⟩,
      nofun,nofun,whole.distinct⟩,agrees⟩
  | sync capacity =>
    cases result : sync g c capacity with
    | none =>
      rw [run_op,effect,result]
      exact ⟨whole,agrees⟩
    | some d =>
      have synced := sync_spec large whole agrees allowed result
      rw [run_op,effect,result]
      exact ⟨synced.whole,synced.agrees⟩

/-- From a mounted volume, reads return what was written last, what the device lacks
    is dirty in the cache, the counter is right, and a sync leaves everything on the
    device. -/
theorem cache_coherent {start : Cache} {ops : List Op} (sane : Sane g) (mounted : Mounted start)
    (run : Run (Step g) (start,disk_block g start.disk) ops (c,w)) :
    (∀ block, Usable g block → ∀ k < g.block_size, (read_block g c block).1 k = w block k) ∧
      (∀ first count contents, (∀ block ∈ List.range' first count, Usable g block) →
        (read_contiguous_blocks g c first count).1 = some contents →
        List.Forall₂ (fun block content => ∀ k < g.block_size, content k = w block k) (List.range' first count) contents) ∧
      (∀ block, Usable g block → (∀ k < g.block_size, disk_block g c.disk block k = w block k) ∨
        ∃ i content, (c.entries i).valid = true ∧ (c.entries i).dirty = true ∧ (c.entries i).block = block ∧
          (c.entries i).data = some content ∧ ∀ k < g.block_size, content k = w block k) ∧
      c.cache_dirty_blocks = (dirty_entries c).card ∧
      (∀ capacity, 0 < capacity → (BlockCache.sync g c capacity).isSome = true) ∧
      ∀ capacity d, Placed g w c.pending → BlockCache.sync g c capacity = some d →
        (∀ block, Usable g block → ∀ k < g.block_size,
          disk_block g d.stable block k = put_slots g w c.pending block k) ∧
        (∀ k < SUPERBLOCK_SIZE, d.stable (SUPERBLOCK_OFFSET + k) = c.sb k) ∧
        ∀ entry, some entry ∈ c.pending → ∀ k < INODE_SIZE,
          d.stable ((place g w entry.1).1 * g.block_size + ((place g w entry.1).2 + k)) = entry.2 k := by
  have kept : ∀ s op t, Whole g s.1 ∧ Agrees g s.1 s.2 → Step g s op t → Whole g t.1 ∧ Agrees g t.1 t.2 := by
    rintro s op t ⟨whole,agrees⟩ ⟨allowed,rfl⟩
    exact step_whole sane.large whole agrees allowed
  obtain ⟨whole,agrees⟩ := run.invariant kept mounted.whole
  dsimp only at whole agrees
  refine ⟨?_,?_,?_,whole.inv.counter,?_,?_⟩
  · intro block usable k inside
    rcases result : read_block g c block with ⟨content,d⟩
    rw [(read_block_spec whole.inv usable result).1]
    exact agrees block usable k inside
  · intro first count contents usable returned
    rcases result : read_contiguous_blocks g c first count with ⟨_,d⟩
    rw [result] at returned
    cases returned
    have read := (read_contiguous_spec whole.inv usable result).2
    clear result
    generalize List.range' first count = blocks at usable read
    induction read with
    | nil => exact .nil
    | cons same _ ih =>
      refine .cons (fun k inside => ?_) (ih (forall_mem_cons.mp usable).2)
      rw [same k inside,agrees _ (usable _ mem_cons_self) k inside]
  · intro block usable
    cases found : find c block with
    | none =>
      refine .inl (fun k inside => ?_)
      rw [← agrees block usable k inside,view_absent found]
    | some i =>
      obtain ⟨_,valid,at_block⟩ := find_some found
      obtain ⟨content,data⟩ := isSome_iff_exists.mp (whole.inv.home i valid).2.2
      have held : ∀ k < g.block_size, content k = w block k := by
        intro k inside
        rw [← agrees block usable k inside,view_entry found data]
      grind [Whole.inv,Inv.clean]
  · intro capacity room
    unfold BlockCache.sync
    rw [isSome_map]
    rcases flush_dirty_blocks_spec whole.inv capacity with ⟨_,_,none_left⟩ | ⟨d,done,_⟩
    · omega
    rw [done]
    rfl
  intro capacity d placed result
  have synced := sync_spec sane.large whole agrees placed result
  refine ⟨synced.contents,synced.superblock,?_⟩
  intro entry member k inside
  have fits : (place g w entry.1).2 + k < g.block_size := by
    have reach : (place g w entry.1).2 + INODE_SIZE ≤ g.block_size := sane.place_inside entry.1
    omega
  have there := synced.contents _ (placed.located entry member).2 _ fits
  rw [put_slots_inode sane.large placed whole.distinct member inside] at there
  exact there

def sample_geometry : Geometry := ⟨1024,2,8,128⟩
def sample_cache : Cache :=
  ⟨zeroes,zeroes,fun _ => ⟨false,false,0,none⟩,fun _ => 0,0,false,zeroes,false,List.replicate 128 none,[]⟩
def sample_ops : List Op := [.write_data_block 20 (fun _ => 7),.write_block 21 (fun _ => 8),.flush 16,.read 20]

theorem cache_coherent_sample :
    (read_block sample_geometry (sample_ops.foldl (run_op sample_geometry) sample_cache) 20).1 0 = 7 := by
  have sane : Sane sample_geometry := ⟨by decide,by decide,by decide⟩
  have mounted : Mounted sample_cache :=
    ⟨fun _ => ⟨rfl,rfl⟩,rfl,rfl,fun _ _ => rfl,rfl,fun slot member => (mem_replicate.mp member).2⟩
  have usable : Usable sample_geometry 20 ∧ Usable sample_geometry 21 := by
    unfold Usable
    decide
  have step : ∀ c w op, Allowed sample_geometry c w op →
      Step sample_geometry (c,w) op (run_op sample_geometry c op,effect sample_geometry c w op) :=
    fun _ _ _ allowed => ⟨allowed,rfl⟩
  have run := Run.next (step sample_cache (disk_block sample_geometry zeroes) (.write_data_block 20 (fun _ => 7)) usable.1)
    (.next (step _ _ (.write_block 21 (fun _ => 8)) usable.2) (.next (step _ _ (.flush 16) trivial)
      (.next (step _ _ (.read 20) usable.1) (.done _))))
  have result := (cache_coherent sane mounted run).1 20 usable.1 0 (by decide)
  simp only [effect,update_of_ne (show 20 ≠ 21 by decide),update_self] at result
  simp only [sample_ops,foldl_cons,foldl_nil]
  exact result

/-- Without `ext2_dirty` all that was written is durable, and no inode waits. -/
theorem clean_volume_durable {start : Cache} {ops : List Op} (sane : Sane g) (mounted : Mounted start)
    (run : Run (Step g) (start,disk_block g start.disk) ops (c,w)) (clean : c.dirty = false) :
    (∀ block, Usable g block → ∀ k < g.block_size, disk_block g c.stable block k = w block k) ∧
      (∀ k < SUPERBLOCK_SIZE, c.stable (SUPERBLOCK_OFFSET + k) = c.sb k) ∧ ∀ entry, some entry ∉ c.pending := by
  have kept : ∀ s op t, Whole g s.1 ∧ Agrees g s.1 s.2 → Step g s op t → Whole g t.1 ∧ Agrees g t.1 t.2 := by
    rintro s op t ⟨whole,agrees⟩ ⟨allowed,rfl⟩
    exact step_whole sane.large whole agrees allowed
  obtain ⟨whole,agrees⟩ := run.invariant kept mounted.whole
  obtain ⟨stable,empty,written,flag⟩ := whole.quiet clean
  dsimp only at stable
  rw [stable]
  refine ⟨fun block usable k inside => ?_,whole.superblock flag,written⟩
  exact (whole.inv.view_clean empty block inside).symm.trans (agrees block usable k inside)

theorem clean_volume_durable_sample : disk_block sample_geometry (run_op sample_geometry
    (run_op sample_geometry sample_cache (.write_block 20 fun _ => 7)) (.sync 16)).stable 20 0 = 7 := by
  have usable : Usable sample_geometry 20 := ⟨by decide,by decide⟩
  have placed (w) : Placed sample_geometry w (replicate 128 none) := ⟨by simp,by simp,by simp⟩
  have run : Run (Step sample_geometry) (sample_cache,disk_block sample_geometry zeroes)
    [.write_block 20 fun _ => 7,.sync 16] _ := .next ⟨usable,rfl⟩ (.next ⟨placed _,rfl⟩ (.done _))
  have durable := clean_volume_durable ⟨by decide,by decide,by decide⟩
    ⟨fun _ => ⟨rfl,rfl⟩,rfl,rfl,fun _ _ => rfl,rfl,fun slot member => (mem_replicate.mp member).2⟩ run (by decide +kernel)
  rw [durable.1 20 usable 0 (by decide)]
  decide +kernel

end ArmOS.CacheRuns

