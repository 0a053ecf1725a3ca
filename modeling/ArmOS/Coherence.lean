import ArmOS.BlockCache
import ArmOS.Runs

/-!
The block cache is coherent. A read returns the view of a block: its entry, or the
device. Every entry stands in its set and alone for its block, a clean one is a copy
of the device, and the counter counts the dirty ones. Only clean entries are reused.
-/
namespace ArmOS.Coherence
open Bytes BlockCache Function List Option

/-- A block of the volume behind the superblock. -/
def Usable (g : Geometry) (block : Nat) : Prop :=
  SUPERBLOCK_OFFSET + 1024 ≤ block * g.block_size ∧ block < NO_BLOCK
def dirty_entries (c : Cache) : Finset Nat :=
  (Finset.range EXT2_BLOCK_CACHE_SIZE).filter fun i => (c.entries i).dirty = true

structure Inv (g : Geometry) (c : Cache) : Prop where
  home : ∀ i, (c.entries i).valid = true →
    i ∈ ways (c.entries i).block ∧ Usable g (c.entries i).block ∧ (c.entries i).data.isSome = true
  single : ∀ i j, (c.entries i).valid = true → (c.entries j).valid = true →
    (c.entries i).block = (c.entries j).block → i = j
  dirty_valid : ∀ i, (c.entries i).dirty = true → (c.entries i).valid = true
  clean : ∀ i content, (c.entries i).valid = true → (c.entries i).dirty = false → (c.entries i).data = some content →
    ∀ k < g.block_size, content k = disk_block g c.disk (c.entries i).block k
  counter : c.cache_dirty_blocks = (dirty_entries c).card

def view (g : Geometry) (c : Cache) (block : Nat) : Buffer :=
  match cached c block with
  | some (_,content) => content
  | none => disk_block g c.disk block

variable {g : Geometry} {c d : Cache} {b i : Nat}

/-! ### Blocks of the device -/

variable {k : Nat} {content : Buffer} {e : Entry} {chosen : Option Nat}

theorem disk_block_write (disk : Buffer) (block other : Nat) (content : Buffer) (inside : k < g.block_size) :
    disk_block g (write_disk g disk block content) other k =
      if other = block then content k else disk_block g disk other k := by
  unfold disk_block write_disk copy
  by_cases same : other = block
  · subst same
    rw [if_pos (by omega),if_pos rfl]
    congr 1
    omega
  rw [if_neg same,if_neg]
  rintro ⟨low,high⟩
  apply same
  -- both blocks hold the byte, so the quotients by the block size agree
  have left : (other * g.block_size + k) / g.block_size = other := by
    rw [mul_comm,Nat.mul_add_div (by omega),Nat.div_eq_of_lt inside,add_zero]
  grind [Nat.div_eq_of_lt_le]

/-- The superblock on the device. -/
def SameSuperblock (c d : Cache) : Prop :=
  ∀ k < SUPERBLOCK_SIZE, d.disk (SUPERBLOCK_OFFSET + k) = c.disk (SUPERBLOCK_OFFSET + k)

theorem write_disk_superblock {disk : Buffer} (usable : Usable g b) (inside : k < SUPERBLOCK_SIZE) :
    write_disk g disk b content (SUPERBLOCK_OFFSET + k) = disk (SUPERBLOCK_OFFSET + k) := by
  have behind := usable.1
  unfold SUPERBLOCK_SIZE SUPERBLOCK_OFFSET at *
  exact if_neg (by omega)

/-! ### Looking up -/

theorem mem_ways : i ∈ ways b ↔
    set_index b * EXT2_BLOCK_CACHE_WAYS ≤ i ∧ i < set_index b * EXT2_BLOCK_CACHE_WAYS + EXT2_BLOCK_CACHE_WAYS :=
  mem_range'_1

theorem ways_lt (inside : i ∈ ways b) : i < EXT2_BLOCK_CACHE_SIZE := by
  have set : set_index b < EXT2_BLOCK_CACHE_SETS := Nat.mod_lt _ (by decide)
  obtain ⟨_,high⟩ := mem_ways.mp inside
  unfold EXT2_BLOCK_CACHE_SIZE
  unfold EXT2_BLOCK_CACHE_SETS EXT2_BLOCK_CACHE_WAYS at *
  omega

theorem find_some (found : find c b = some i) : i ∈ ways b ∧ (c.entries i).valid = true ∧ (c.entries i).block = b := by
  have test := find?_some found
  simp only [Bool.and_eq_true,beq_iff_eq] at test
  exact ⟨mem_of_find?_eq_some found,test⟩

theorem Inv.find_of_valid (inv : Inv g c) (valid : (c.entries i).valid = true) (same : (c.entries i).block = b) :
    find c b = some i := by
  cases found : find c b with
  | none =>
    have missed := find?_eq_none.mp found i (same ▸ (inv.home i valid).1)
    simp [valid,same] at missed
  | some j =>
    obtain ⟨_,other,block⟩ := find_some found
    rw [inv.single j i other valid (block.trans same.symm)]

theorem Inv.absent (inv : Inv g c) (missing : find c b = none) (valid : (c.entries i).valid = true) :
    (c.entries i).block ≠ b := by
  intro same
  rw [inv.find_of_valid valid same] at missing
  cases missing

theorem Inv.cached_none (inv : Inv g c) (missing : cached c b = none) : find c b = none := by
  cases found : find c b with
  | none => rfl
  | some j =>
    obtain ⟨_,valid,_⟩ := find_some found
    obtain ⟨content,data⟩ := isSome_iff_exists.mp (inv.home j valid).2.2
    rw [cached,found,bind_some,data] at missing
    cases missing

theorem cached_of_find (found : find c b = some i) (data : (c.entries i).data = some content) :
    cached c b = some (i,content) := by
  rw [cached,found,bind_some,data]
  rfl

theorem cached_some (found : cached c b = some (i,content)) :
    find c b = some i ∧ (c.entries i).data = some content := by
  obtain ⟨j,here,data⟩ := bind_eq_some_iff.mp found
  obtain ⟨other,buffer,same⟩ := map_eq_some_iff.mp data
  cases same
  exact ⟨here,buffer⟩

theorem view_absent (missing : find c b = none) : view g c b = disk_block g c.disk b := by
  unfold view cached
  rw [missing]
  rfl
theorem view_entry (found : find c b = some i) (data : (c.entries i).data = some content) : view g c b = content := by
  unfold view
  rw [cached_of_find found data]

/-- Without a dirty entry a block is read from the device. -/
theorem Inv.view_clean (inv : Inv g c) (empty : dirty_entries c = ∅) (block : Nat) (inside : k < g.block_size) :
    view g c block k = disk_block g c.disk block k := by
  cases found : find c block with
  | none => rw [view_absent found]
  | some i =>
    obtain ⟨_,valid,same⟩ := find_some found
    obtain ⟨home,_,here⟩ := inv.home i valid
    obtain ⟨content,data⟩ := isSome_iff_exists.mp here
    cases dirty : (c.entries i).dirty with
    | false => rw [view_entry found data,inv.clean i content valid dirty data k inside,same]
    | true =>
      have member : i ∈ dirty_entries c := Finset.mem_filter.mpr ⟨Finset.mem_range.mpr (ways_lt home),dirty⟩
      rw [empty] at member
      cases member

/-! ### Choosing an entry -/

/-- What stays when only clean entries change. -/
structure Filled (g : Geometry) (c d : Cache) : Prop where
  inv : Inv g d
  view : ∀ block, ∀ k < g.block_size, view g d block k = view g c block k
  disk : d.disk = c.disk
  stable : d.stable = c.stable
  flag : d.dirty = c.dirty
  sb : d.sb = c.sb
  sb_dirty : d.sb_dirty = c.sb_dirty
  pending : d.pending = c.pending
  dirty : dirty_entries d = dirty_entries c

theorem Filled.refl (inv : Inv g c) : Filled g c c := ⟨inv,fun _ _ _ => rfl,rfl,rfl,rfl,rfl,rfl,rfl,rfl⟩

theorem Filled.trans {e : Cache} (first : Filled g c d) (second : Filled g d e) : Filled g c e :=
  ⟨second.inv,fun block k inside => (second.view block k inside).trans (first.view block k inside),
    second.disk.trans first.disk,second.stable.trans first.stable,second.flag.trans first.flag,
    second.sb.trans first.sb,second.sb_dirty.trans first.sb_dirty,second.pending.trans first.pending,
    second.dirty.trans first.dirty⟩

structure Slot (c : Cache) (b i : Nat) : Prop where
  inside : i ∈ ways b
  own : (c.entries i).valid = true → (c.entries i).block = b
  only : ∀ j, (c.entries j).valid = true → (c.entries j).block = b → j = i

variable {entries : Nat → Entry}

theorem entry_update (j : Nat) : update entries i e j = if j = i then e else entries j := by
  by_cases same : j = i
  · rw [if_pos same,same,update_self]
  · rw [if_neg same,update_of_ne same]

theorem entry_field {α : Type} (field : Entry → α)
    (same : field e = field (entries i)) (j : Nat) : field (update entries i e j) = field (entries j) := by
  rw [entry_update]
  split
  · rename_i here
    rw [same,here]
  · rfl

section
variable (inv : Inv g c)
include inv

theorem Inv.spare (clean : (c.entries i).dirty = false) (invalid : e.valid = false)
    (kept : e.dirty = false) : Filled g c { c with entries := update c.entries i e } := by
  have valid_of : ∀ j, (update c.entries i e j).valid = true →
      update c.entries i e j = c.entries j ∧ (c.entries j).valid = true := by
    intro j valid
    rw [entry_update] at valid ⊢
    split at valid
    · rw [invalid] at valid
      cases valid
    rename_i apart
    exact ⟨if_neg apart,valid⟩
  have dirty_same : ∀ j, (update c.entries i e j).dirty = (c.entries j).dirty :=
    entry_field (·.dirty) (kept.trans clean.symm)
  have new : Inv g { c with entries := update c.entries i e } := by
    constructor
    · grind [home]
    · intro j k valid other
      obtain ⟨same,before⟩ := valid_of j valid
      obtain ⟨same_other,before_other⟩ := valid_of k other
      dsimp only
      rw [same,same_other]
      exact inv.single j k before before_other
    · grind [dirty_valid]
    · grind [clean]
    rw [inv.counter]
    unfold dirty_entries
    simp only [dirty_same]
  refine ⟨new,?_,rfl,rfl,rfl,rfl,rfl,rfl,by unfold dirty_entries; simp only [dirty_same]⟩
  intro block k inside
  cases found : find c block with
  | none =>
    have missing : find { c with entries := update c.entries i e } block = none := by
      cases here : find { c with entries := update c.entries i e } block with
      | none => rfl
      | some j =>
        obtain ⟨_,valid,at_block⟩ := find_some here
        obtain ⟨same,before⟩ := valid_of j valid
        dsimp only at at_block
        rw [same] at at_block
        exact absurd at_block (inv.absent found before)
    rw [view_absent found,view_absent missing]
  | some j =>
    obtain ⟨_,valid,at_block⟩ := find_some found
    obtain ⟨content,data⟩ := isSome_iff_exists.mp (inv.home j valid).2.2
    by_cases apart : j = i
    · subst apart
      have missing : find { c with entries := update c.entries j e } block = none := by
        cases here : find { c with entries := update c.entries j e } block with
        | none => rfl
        | some l =>
          obtain ⟨_,valid_l,at_l⟩ := find_some here
          obtain ⟨same,before⟩ := valid_of l valid_l
          dsimp only at at_l valid_l
          rw [same] at at_l
          have equal := inv.single l j before valid (at_l.trans at_block.symm)
          rw [equal,entry_update,if_pos rfl,invalid] at valid_l
          cases valid_l
      rw [view_absent missing,view_entry found data,inv.clean j content valid clean data k inside,at_block]
    have there : find { c with entries := update c.entries i e } block = some j := by
      refine new.find_of_valid ?_ ?_ <;> dsimp only <;> rw [entry_update,if_neg apart]
      · exact valid
      · exact at_block
    have same_data : ({ c with entries := update c.entries i e } : Cache).entries j = c.entries j := by
      dsimp only
      rw [entry_update,if_neg apart]
    rw [view_entry found data,view_entry there (same_data ▸ data)]

theorem Inv.move_clock (clock : Nat → Nat) : Filled g c { c with clock := clock } :=
  ⟨⟨inv.home,inv.single,inv.dirty_valid,inv.clean,inv.counter⟩,fun _ _ _ => rfl,rfl,rfl,rfl,rfl,rfl,rfl,rfl⟩

/-- The clock drops an entry only when it is clean. -/
theorem scan_clock_spec {set n : Nat} (result : scan_clock set n c = (chosen,d)) :
    Filled g c d ∧ (∀ j, (d.entries j).valid = true → d.entries j = c.entries j) ∧
      ∀ i, chosen = some i → set * EXT2_BLOCK_CACHE_WAYS ≤ i ∧
        i < set * EXT2_BLOCK_CACHE_WAYS + EXT2_BLOCK_CACHE_WAYS ∧ (d.entries i).valid = false := by
  induction n generalizing c with
  | zero =>
    cases result
    exact ⟨.refl inv,fun _ _ => rfl,nofun⟩
  | succ n ih =>
    have moved := inv.move_clock (update c.clock set (c.clock set + 1))
    rw [scan_clock] at result
    dsimp only at result
    split at result
    · obtain ⟨filled,fewer,place⟩ := ih moved.inv result
      exact ⟨moved.trans filled,fewer,place⟩
    rename_i clean
    cases result
    refine ⟨moved.trans (moved.inv.spare (Bool.eq_false_iff.mpr clean) rfl (Bool.eq_false_iff.mpr clean)),?_,?_⟩
    · intro j valid
      dsimp only at valid ⊢
      rw [entry_update] at valid ⊢
      split at valid
      · cases valid
      rename_i apart
      rw [if_neg apart]
    rintro i ⟨⟩
    have small := Nat.mod_lt (c.clock set) (show EXT2_BLOCK_CACHE_WAYS > 0 by decide)
    refine ⟨by omega,by omega,?_⟩
    dsimp only
    rw [update_self]

theorem pick_spec (missing : find c b = none) (result : pick c b = (chosen,d)) :
    Filled g c d ∧ (∀ j, (d.entries j).valid = true → (d.entries j).block ≠ b) ∧
      ∀ i, chosen = some i → Slot d b i ∧ (d.entries i).valid = false := by
  unfold pick at result
  split at result
  · rename_i j found
    cases result
    refine ⟨.refl inv,fun _ valid => inv.absent missing valid,?_⟩
    rintro i ⟨⟩
    have invalid : (c.entries j).valid = false := by simpa using find?_some found
    refine ⟨⟨mem_of_find?_eq_some found,fun valid => ?_,fun k valid same => absurd same (inv.absent missing valid)⟩,
      invalid⟩
    rw [invalid] at valid
    cases valid
  obtain ⟨filled,fewer,place⟩ := scan_clock_spec inv result
  have absent : ∀ j, (d.entries j).valid = true → (d.entries j).block ≠ b := by
    intro j valid
    have before := fewer j valid
    rw [before] at valid ⊢
    exact inv.absent missing valid
  refine ⟨filled,absent,?_⟩
  intro i chosen_i
  obtain ⟨low,high,invalid⟩ := place i chosen_i
  refine ⟨⟨mem_ways.mpr ⟨low,high⟩,fun valid => ?_,fun k valid same => absurd same (absent k valid)⟩,invalid⟩
  rw [invalid] at valid
  cases valid

theorem slot_for_spec (result : slot_for c b = (chosen,d)) :
    Filled g c d ∧ (chosen = none → ∀ j, (d.entries j).valid = true → (d.entries j).block ≠ b) ∧
      ∀ i, chosen = some i → Slot d b i := by
  unfold slot_for at result
  split at result
  · rename_i j found
    cases result
    refine ⟨.refl inv,nofun,?_⟩
    rintro i ⟨⟩
    obtain ⟨inside,valid,same⟩ := find_some found
    exact ⟨inside,fun _ => same,fun k other at_b => inv.single k j other valid (at_b.trans same.symm)⟩
  rename_i missing
  obtain ⟨filled,absent,slot⟩ := pick_spec inv missing result
  exact ⟨filled,fun _ => absent,fun i chosen_i => (slot i chosen_i).1⟩

theorem block_cache_data_spec {buffered : Bool} (slot : Slot c b i) (result : block_cache_data c i = (buffered,d)) :
    Filled g c d ∧ Slot d b i ∧ (d.entries i).dirty = (c.entries i).dirty ∧
      (buffered = false → (d.entries i).data = none) := by
  unfold block_cache_data at result
  split at result
  · cases result
    exact ⟨.refl inv,slot,rfl,nofun⟩
  rename_i missing
  split at result
  · cases result
    exact ⟨⟨⟨inv.home,inv.single,inv.dirty_valid,inv.clean,inv.counter⟩,fun _ _ _ => rfl,rfl,rfl,rfl,rfl,rfl,rfl,rfl⟩,
      ⟨slot.inside,slot.own,slot.only⟩,rfl,fun _ => missing⟩
  cases result
  -- an entry in use has a buffer, so this one is not in use
  have unused : (c.entries i).valid = false := by
    cases valid : (c.entries i).valid with
    | false => rfl
    | true =>
      have some_data := (inv.home i valid).2.2
      rw [missing] at some_data
      cases some_data
  have clean : (c.entries i).dirty = false := by
    cases dirty : (c.entries i).dirty with
    | false => rfl
    | true =>
      rw [inv.dirty_valid i dirty] at unused
      cases unused
  have filled := inv.spare (i := i) (e := { c.entries i with data := some zeroes }) clean unused clean
  refine ⟨⟨⟨filled.inv.home,filled.inv.single,filled.inv.dirty_valid,filled.inv.clean,filled.inv.counter⟩,
    filled.view,rfl,rfl,rfl,rfl,rfl,rfl,filled.dirty⟩,⟨slot.inside,?_,?_⟩,?_,nofun⟩
  · intro valid
    dsimp only at valid
    rw [update_self,unused] at valid
    cases valid
  · grind [Slot.only]
  dsimp only
  rw [update_self]

end

/-! ### Filling an entry -/

/-- The entry is filled, clean from the device or dirty. -/
theorem Inv.install (inv : Inv g c) (slot : Slot c b i) (usable : Usable g b) {dirty : Bool}
    (entries : d.entries = update c.entries i ⟨true,dirty,b,some content⟩)
    (others : ∀ block, block ≠ b → ∀ k < g.block_size, disk_block g d.disk block k = disk_block g c.disk block k)
    (copied : dirty = false → ∀ k < g.block_size, content k = disk_block g d.disk b k)
    (count : d.cache_dirty_blocks = (if dirty then insert i (dirty_entries c) else (dirty_entries c).erase i).card) :
    Inv g d ∧ (∀ block, ∀ k < g.block_size, view g d block k = if block = b then content k else view g c block k) ∧
      dirty_entries d = if dirty then insert i (dirty_entries c) else (dirty_entries c).erase i := by
  have entry : ∀ j, d.entries j = if j = i then ⟨true,dirty,b,some content⟩ else c.entries j := by
    intro j
    rw [entries,entry_update]
  have small := ways_lt slot.inside
  have dirty_now : dirty_entries d = if dirty then insert i (dirty_entries c) else (dirty_entries c).erase i := by
    ext j
    cases dirty with
    | true =>
      simp only [dirty_entries,Finset.mem_filter,Finset.mem_range,entry,if_true,Finset.mem_insert]
      by_cases same : j = i
      · simp [same,small]
      · simp [same]
    | false =>
      simp only [dirty_entries,Finset.mem_filter,Finset.mem_range,entry,Bool.false_eq_true,if_false,Finset.mem_erase]
      by_cases same : j = i
      · simp [same]
      · simp [same]
  have new : Inv g d := by
    constructor
    · intro j valid
      rw [entry] at valid ⊢
      split
      · rename_i same
        exact ⟨same ▸ slot.inside,usable,rfl⟩
      rename_i apart
      rw [if_neg apart] at valid
      exact inv.home j valid
    · intro j k valid other same
      rw [entry] at valid other same
      rw [entry] at same
      split at valid
      · grind [Coherence.Slot.only]
      rename_i here
      rw [if_neg here] at same
      by_cases there : k = i
      · rw [if_pos there] at same
        exact absurd (slot.only j valid same) here
      rw [if_neg there] at other same
      exact inv.single j k valid other same
    · grind [dirty_valid]
    · grind [clean,Coherence.Slot.only]
    · rw [dirty_now,count]
  refine ⟨new,fun block k inside => ?_,dirty_now⟩
  by_cases same : block = b
  · subst same
    have found := new.find_of_valid (i := i) (b := block) (by rw [entry,if_pos rfl]) (by rw [entry,if_pos rfl])
    rw [if_pos rfl,view_entry found (by rw [entry,if_pos rfl])]
  rw [if_neg same]
  cases found : find c block with
  | none =>
    have missing : find d block = none := by
      cases here : find d block with
      | none => rfl
      | some j =>
        obtain ⟨_,valid,at_block⟩ := find_some here
        rw [entry] at valid at_block
        split at valid
        · rename_i is_i
          rw [if_pos is_i] at at_block
          exact absurd at_block.symm same
        rename_i apart
        rw [if_neg apart] at at_block
        exact absurd at_block (inv.absent found valid)
    rw [view_absent found,view_absent missing,others block same k inside]
  | some j =>
    obtain ⟨_,valid,at_block⟩ := find_some found
    obtain ⟨data,held⟩ := isSome_iff_exists.mp (inv.home j valid).2.2
    have apart : j ≠ i := by
      rintro rfl
      exact same (at_block.symm.trans (slot.own valid))
    have there := new.find_of_valid (i := j) (b := block) (by rw [entry,if_neg apart]; exact valid)
      (by rw [entry,if_neg apart]; exact at_block)
    rw [view_entry found held,view_entry there (by rw [entry,if_neg apart]; exact held)]

/-! ### Reading -/

theorem keep_copy_spec (inv : Inv g c) (usable : Usable g b) (missing : find c b = none) :
    Filled g c (keep_copy b (disk_block g c.disk b) (pick c b)) := by
  rcases picked : pick c b with ⟨_ | i,c₁⟩
  · exact (pick_spec inv missing picked).1
  obtain ⟨filled,_,slots⟩ := pick_spec inv missing picked
  obtain ⟨slot,unused⟩ := slots i rfl
  rcases got : block_cache_data c₁ i with ⟨buffered,c₂⟩
  obtain ⟨buffer,slot,same,_⟩ := block_cache_data_spec filled.inv slot got
  have both := filled.trans buffer
  dsimp only [keep_copy]
  rw [got]
  dsimp only
  split
  · have clean : (c₂.entries i).dirty = false := by
      rw [same]
      cases dirty : (c₁.entries i).dirty with
      | false => rfl
      | true =>
        rw [filled.inv.dirty_valid i dirty] at unused
        cases unused
    have none_removed : (dirty_entries c₂).erase i = dirty_entries c₂ := by
      refine Finset.erase_eq_of_notMem (fun member => ?_)
      have dirty := (Finset.mem_filter.mp member).2
      rw [clean] at dirty
      cases dirty
    have copied : ∀ k < g.block_size, disk_block g c.disk b k = disk_block g c₂.disk b k := by
      intro k _
      rw [both.disk]
    obtain ⟨new,shown,dirty_now⟩ := both.inv.install (d := install c₂ i b (disk_block g c.disk b) false) slot usable
      rfl (fun _ _ _ _ => rfl) (fun _ => copied) (by rw [if_neg (by decide),none_removed]; exact both.inv.counter)
    refine ⟨new,?_,both.disk,both.stable,both.flag,both.sb,both.sb_dirty,both.pending,?_⟩
    · intro block k inside
      refine (shown block k inside).trans ?_
      split
      · rename_i here
        rw [here,view_absent missing]
      · exact both.view block k inside
    · rw [dirty_now,if_neg (by decide),none_removed,both.dirty]
  · exact both

theorem read_block_spec (inv : Inv g c) (usable : Usable g b)
    (result : read_block g c b = (content,d)) : content = view g c b ∧ Filled g c d := by
  unfold read_block at result
  split at result
  · rename_i i data found
    cases result
    unfold view
    rw [found]
    exact ⟨rfl,.refl inv⟩
  rename_i missing
  cases result
  have absent := inv.cached_none missing
  have picks : slot_for c b = pick c b := by
    unfold slot_for
    rw [absent]
  rw [picks]
  exact ⟨(view_absent absent).symm,keep_copy_spec inv usable absent⟩

variable {contents : List Buffer}

/-- Blocks read are merged with what the cache holds. -/
theorem merge_blocks_spec {blocks : List Nat} (inv : Inv g c)
    (usable : ∀ block ∈ blocks, Usable g block) (result : merge_blocks g blocks c = (contents,d)) :
    Filled g c d ∧ List.Forall₂ (fun block content => ∀ k < g.block_size, content k = view g c block k) blocks contents := by
  induction blocks generalizing c contents with
  | nil =>
    cases result
    exact ⟨.refl inv,.nil⟩
  | cons block rest ih =>
    have later : ∀ other ∈ rest, Usable g other := (forall_mem_cons.mp usable).2
    rw [merge_blocks] at result
    dsimp only at result
    split at result
    · rename_i i newer found
      rcases merged : merge_blocks g rest c with ⟨others,c₁⟩
      rw [merged] at result
      cases result
      obtain ⟨filled,agree⟩ := ih inv later merged
      refine ⟨filled,.cons ?_ agree⟩
      intro k inside
      obtain ⟨here,data⟩ := cached_some found
      obtain ⟨_,valid,at_block⟩ := find_some here
      rw [view_entry here data]
      split
      · rfl
      rename_i clean
      rw [inv.clean i newer valid (Bool.eq_false_iff.mpr clean) data k inside,at_block]
    rename_i missing
    have absent := inv.cached_none missing
    have added := keep_copy_spec inv (usable block mem_cons_self) absent
    rcases merged : merge_blocks g rest (keep_copy block (disk_block g c.disk block) (pick c block)) with ⟨others,c₁⟩
    rw [merged] at result
    cases result
    obtain ⟨filled,agree⟩ := ih added.inv later merged
    refine ⟨added.trans filled,.cons (fun k _ => by rw [view_absent absent]) ?_⟩
    refine agree.imp (fun other content same k inside => ?_)
    rw [same k inside,added.view other k inside]

theorem read_contiguous_spec {first count : Nat} (inv : Inv g c)
    (usable : ∀ block ∈ range' first count, Usable g block)
    (result : read_contiguous_blocks g c first count = (some contents,d)) :
    Filled g c d ∧ List.Forall₂ (fun block content => ∀ k < g.block_size, content k = view g c block k)
      (range' first count) contents := by
  unfold read_contiguous_blocks at result
  dsimp only at result
  split at result
  · cases result
  split at result
  · rename_i all_cached
    cases result
    refine ⟨.refl inv,?_⟩
    rw [List.all_eq_true] at all_cached
    generalize range' first count = blocks at all_cached
    induction blocks with
    | nil => exact .nil
    | cons block rest ih =>
      obtain ⟨⟨i,content⟩,found⟩ := isSome_iff_exists.mp (all_cached block mem_cons_self)
      simp_all [view]
  rcases merged : merge_blocks g (range' first count) c with ⟨others,c₁⟩
  rw [merged] at result
  cases result
  exact merge_blocks_spec inv usable merged

/-! ### Writing -/

/-- A block may be written behind the cache if no clean entry holds it. -/
theorem Inv.write_disk (inv : Inv g c) (entries : d.entries = c.entries)
    (count : d.cache_dirty_blocks = c.cache_dirty_blocks) (written : d.disk = write_disk g c.disk b content)
    (dirty : ∀ i, (c.entries i).valid = true → (c.entries i).block = b → (c.entries i).dirty = true) :
    Inv g d ∧ ∀ block, ∀ k < g.block_size,
      view g d block k = if block = b ∧ find c b = none then content k else view g c block k := by
  have find_same : ∀ block, find d block = find c block := by
    intro block
    unfold find
    rw [entries]
  refine ⟨⟨?_,?_,?_,?_,?_⟩,?_⟩
  · rw [entries]
    exact inv.home
  · rw [entries]
    exact inv.single
  · rw [entries]
    exact inv.dirty_valid
  · rw [entries,written]
    intro i data valid clean held k inside
    rw [disk_block_write _ _ _ _ inside,if_neg,inv.clean i data valid clean held k inside]
    intro same
    rw [dirty i valid same] at clean
    cases clean
  · rw [count,inv.counter]
    unfold dirty_entries
    rw [entries]
  intro block k inside
  cases found : find c block with
  | none =>
    rw [view_absent ((find_same block).trans found),view_absent found,written,disk_block_write _ _ _ _ inside]
    grind
  | some i =>
    obtain ⟨_,valid,at_block⟩ := find_some found
    obtain ⟨data,held⟩ := isSome_iff_exists.mp (inv.home i valid).2.2
    rw [view_entry ((find_same block).trans found) (entries ▸ held),view_entry found held,if_neg]
    rintro ⟨same,missing⟩
    rw [← same,found] at missing
    cases missing

/-- An entry becomes clean once the device holds its contents. -/
theorem Inv.clean_entry (inv : Inv g c) (small : i < EXT2_BLOCK_CACHE_SIZE)
    (dirty : (c.entries i).dirty = true) (data : (c.entries i).data = some content)
    (written : ∀ k < g.block_size, content k = disk_block g c.disk (c.entries i).block k)
    (entries : d.entries = update c.entries i { c.entries i with dirty := false })
    (count : d.cache_dirty_blocks = c.cache_dirty_blocks - 1) (disk : d.disk = c.disk) :
    Inv g d ∧ (∀ block, view g d block = view g c block) ∧ dirty_entries d = (dirty_entries c).erase i := by
  have valid_same : ∀ j, (d.entries j).valid = (c.entries j).valid := by
    rw [entries]
    exact entry_field (·.valid) rfl
  have block_same : ∀ j, (d.entries j).block = (c.entries j).block := by
    rw [entries]
    exact entry_field (·.block) rfl
  have data_same : ∀ j, (d.entries j).data = (c.entries j).data := by
    rw [entries]
    exact entry_field (·.data) rfl
  have dirty_now : ∀ j, (d.entries j).dirty = if j = i then false else (c.entries j).dirty := by
    intro j
    rw [entries,entry_update]
    split <;> rfl
  have erased : dirty_entries d = (dirty_entries c).erase i := by
    ext j
    simp only [dirty_entries,Finset.mem_filter,Finset.mem_range,Finset.mem_erase,dirty_now]
    by_cases same : j = i
    · simp [same]
    · simp [same]
  have found_same : ∀ block, find d block = find c block := by
    intro block
    unfold find
    simp only [valid_same,block_same]
  refine ⟨⟨?_,?_,?_,?_,?_⟩,?_,erased⟩
  · intro j valid
    rw [valid_same] at valid
    rw [block_same,data_same]
    exact inv.home j valid
  · intro j k valid other same
    rw [valid_same] at valid other
    rw [block_same,block_same] at same
    exact inv.single j k valid other same
  · grind [dirty_valid]
  · grind [clean]
  · have member : i ∈ dirty_entries c := Finset.mem_filter.mpr ⟨Finset.mem_range.mpr small,dirty⟩
    rw [erased,Finset.card_erase_of_mem member,count,inv.counter]
  intro block
  unfold view cached
  rw [found_same,disk]
  simp only [data_same]

/-- The device and the flag of a state are replaced. -/
def with_disk (c : Cache) (disk : Buffer) (flag : Bool) : Cache := { c with disk := disk, dirty := flag }

theorem scan_clock_disk (set n : Nat) (c : Cache) (disk : Buffer) (flag : Bool) :
    scan_clock set n (with_disk c disk flag) =
      ((scan_clock set n c).1,with_disk (scan_clock set n c).2 disk flag) := by
  induction n generalizing c with
  | zero => rfl
  | succ n ih =>
    by_cases dirty : (c.entries (set * EXT2_BLOCK_CACHE_WAYS + c.clock set % EXT2_BLOCK_CACHE_WAYS)).dirty = true
    · have left : scan_clock set (n + 1) (with_disk c disk flag) = scan_clock set n (with_disk
          { c with clock := update c.clock set (c.clock set + 1) } disk flag) := if_pos dirty
      have right : scan_clock set (n + 1) c = scan_clock set n
          { c with clock := update c.clock set (c.clock set + 1) } := if_pos dirty
      rw [left,right,ih]
    have right : scan_clock set (n + 1) c =
        (some (set * EXT2_BLOCK_CACHE_WAYS + c.clock set % EXT2_BLOCK_CACHE_WAYS),
          { c with
            clock := update c.clock set (c.clock set + 1)
            entries := update c.entries (set * EXT2_BLOCK_CACHE_WAYS + c.clock set % EXT2_BLOCK_CACHE_WAYS)
              { c.entries (set * EXT2_BLOCK_CACHE_WAYS + c.clock set % EXT2_BLOCK_CACHE_WAYS) with valid := false } }) :=
      if_neg dirty
    rw [right]
    exact if_neg dirty

/-- The choice of an entry does not look at the device. -/
theorem slot_for_disk (c : Cache) (b : Nat) (disk : Buffer) (flag : Bool) :
    slot_for (with_disk c disk flag) b = ((slot_for c b).1,with_disk (slot_for c b).2 disk flag) := by
  have found : find (with_disk c disk flag) b = find c b := rfl
  unfold slot_for
  rw [found]
  cases find c b with
  | some i => rfl
  | none =>
    have spare : (ways b).find? (fun i => !((with_disk c disk flag).entries i).valid) =
        (ways b).find? (fun i => !(c.entries i).valid) := rfl
    dsimp only
    unfold pick
    rw [spare]
    cases (ways b).find? (fun i => !(c.entries i).valid) with
    | some i => rfl
    | none => exact scan_clock_disk _ _ _ _ _

theorem block_cache_data_disk (c : Cache) (i : Nat) (disk : Buffer) (flag : Bool) :
    block_cache_data (with_disk c disk flag) i =
      ((block_cache_data c i).1,with_disk (block_cache_data c i).2 disk flag) := by
  have data : ((with_disk c disk flag).entries i).data = (c.entries i).data := rfl
  have pages : (with_disk c disk flag).pages = c.pages := rfl
  unfold block_cache_data
  rw [data,pages]
  cases (c.entries i).data with
  | some content => rfl
  | none =>
    cases c.pages with
    | nil => rfl
    | cons page rest => cases page <;> rfl

structure Wrote (g : Geometry) (c d : Cache) (b : Nat) (content : Buffer) : Prop where
  inv : Inv g d
  view : ∀ block, ∀ k < g.block_size, view g d block k = if block = b then content k else view g c block k
  stable : d.stable = c.stable
  flag : d.dirty = true
  sb : d.sb = c.sb
  sb_dirty : d.sb_dirty = c.sb_dirty
  pending : d.pending = c.pending
  superblock : SameSuperblock c d

theorem write_block_spec (inv : Inv g c) (usable : Usable g b) (content : Buffer) :
    Wrote g c (write_block g c b content) b content ∧
      dirty_entries (write_block g c b content) ⊆ dirty_entries c := by
  have superblock : ∀ {d : Cache}, d.disk = write_disk g c.disk b content → SameSuperblock c d := by
    intro d same k inside
    rw [same,write_disk_superblock usable inside]
  have choice := slot_for_disk c b (write_disk g c.disk b content) true
  rcases chosen : slot_for c b with ⟨slot,c₁⟩
  obtain ⟨filled,absent,slots⟩ := slot_for_spec inv chosen
  rw [chosen] at choice
  unfold with_disk at choice
  unfold write_block
  rw [choice]
  -- the block is in no entry: the device is written and that is all
  have uncached : ∀ {e : Cache}, Filled g c e → (∀ j, (e.entries j).valid = true → (e.entries j).block ≠ b) →
      Wrote g c { e with disk := write_disk g c.disk b content, dirty := true } b content ∧
        dirty_entries { e with disk := write_disk g c.disk b content, dirty := true } ⊆ dirty_entries c := by
    intro e kept absent
    obtain ⟨new,shown⟩ := kept.inv.write_disk
      (d := { e with disk := write_disk g c.disk b content, dirty := true }) rfl rfl
      (by rw [kept.disk]) (fun j valid same => absurd same (absent j valid))
    have missing : find e b = none := by
      cases found : find e b with
      | none => rfl
      | some j => exact absurd (find_some found).2.2 (absent j (find_some found).2.1)
    refine ⟨⟨new,?_,kept.stable,rfl,kept.sb,kept.sb_dirty,kept.pending,superblock rfl⟩,kept.dirty.le⟩
    intro block k inside
    refine (shown block k inside).trans ?_
    by_cases same : block = b
    · rw [if_pos ⟨same,missing⟩,if_pos same]
    rw [if_neg (fun both => same both.1),if_neg same]
    exact kept.view block k inside
  cases slot with
  | none => exact uncached filled (absent rfl)
  | some i =>
    have slot := slots i rfl
    have buffer := block_cache_data_disk c₁ i (write_disk g c.disk b content) true
    rcases got : block_cache_data c₁ i with ⟨buffered,c₂⟩
    obtain ⟨added,slot,_,unbuffered⟩ := block_cache_data_spec filled.inv slot got
    have both := filled.trans added
    rw [got] at buffer
    unfold with_disk at buffer
    dsimp only
    rw [buffer]
    dsimp only
    cases buffered with
    | false =>
      rw [if_neg (by decide)]
      refine uncached both (fun j valid same => ?_)
      -- the entry has no buffer, so it is not in use, and no other one is for this block
      have here := slot.only j valid same
      subst here
      have held := (both.inv.home j valid).2.2
      rw [unbuffered rfl] at held
      cases held
    | true =>
      rw [if_pos rfl]
      have count : (if (c₂.entries i).dirty then c₂.cache_dirty_blocks - 1 else c₂.cache_dirty_blocks) =
          ((dirty_entries c₂).erase i).card := by
        rw [both.inv.counter]
        by_cases dirty : (c₂.entries i).dirty = true
        · have member : i ∈ dirty_entries c₂ :=
            Finset.mem_filter.mpr ⟨Finset.mem_range.mpr (ways_lt slot.inside),dirty⟩
          rw [if_pos dirty,Finset.card_erase_of_mem member]
        · simp_all [dirty_entries]
      obtain ⟨new,shown,dirty_now⟩ := both.inv.install (d := BlockCache.install { c₂ with
          disk := write_disk g c.disk b content
          dirty := true
          cache_dirty_blocks := if (c₂.entries i).dirty then c₂.cache_dirty_blocks - 1 else c₂.cache_dirty_blocks }
        i b content false) slot usable rfl
        (fun block other k inside => by
          rw [both.disk]
          exact (disk_block_write _ _ _ _ inside).trans (if_neg other))
        (fun _ k inside => ((disk_block_write _ _ _ _ inside).trans (if_pos rfl)).symm)
        count
      refine ⟨⟨new,?_,both.stable,rfl,both.sb,both.sb_dirty,both.pending,superblock rfl⟩,?_⟩
      · grind [Filled.view]
      · grind [Filled.dirty]

theorem write_data_block_spec (inv : Inv g c) (usable : Usable g b) (content : Buffer) :
    Wrote g c (write_data_block g c b content) b content := by
  -- a write that finds no room goes to the device, from a state that only dropped a clean entry
  have through : ∀ {e : Cache}, Filled g c e → Wrote g c (write_block g e b content) b content := by
    intro e kept
    obtain ⟨wrote,_⟩ := write_block_spec kept.inv usable content
    refine ⟨wrote.inv,fun block k inside => ?_,wrote.stable.trans kept.stable,wrote.flag,wrote.sb.trans kept.sb,
      wrote.sb_dirty.trans kept.sb_dirty,wrote.pending.trans kept.pending,fun k inside => ?_⟩
    · rw [wrote.view block k inside,kept.view block k inside]
    · rw [wrote.superblock k inside,kept.disk]
  unfold write_data_block
  rcases chosen : slot_for c b with ⟨slot,c₁⟩
  obtain ⟨filled,absent,slots⟩ := slot_for_spec inv chosen
  cases slot with
  | none => exact through filled
  | some i =>
    rcases got : block_cache_data c₁ i with ⟨buffered,c₂⟩
    obtain ⟨added,slot,_,_⟩ := block_cache_data_spec filled.inv (slots i rfl) got
    have both := filled.trans added
    dsimp only
    rw [got]
    dsimp only
    cases buffered with
    | false =>
      rw [if_neg (by decide)]
      exact through both
    | true =>
      rw [if_pos rfl]
      have count : (if (c₂.entries i).dirty then c₂.cache_dirty_blocks else c₂.cache_dirty_blocks + 1) =
          (insert i (dirty_entries c₂)).card := by
        rw [both.inv.counter]
        by_cases dirty : (c₂.entries i).dirty = true
        · have member : i ∈ dirty_entries c₂ :=
            Finset.mem_filter.mpr ⟨Finset.mem_range.mpr (ways_lt slot.inside),dirty⟩
          rw [if_pos dirty,Finset.insert_eq_of_mem member]
        · simp_all [dirty_entries]
      obtain ⟨new,shown,_⟩ := both.inv.install (d := install { c₂ with
          cache_dirty_blocks := if (c₂.entries i).dirty then c₂.cache_dirty_blocks else c₂.cache_dirty_blocks + 1
          dirty := true } i b content true) slot usable rfl (fun _ _ _ _ => rfl) nofun count
      refine ⟨new,?_,both.stable,rfl,both.sb,both.sb_dirty,both.pending,?_⟩
      · grind [Filled.view]
      intro k _
      exact congrFun both.disk _

/-! ### Flushing -/

theorem lowest_spec (P : Nat → Bool) (key : Nat → Nat) (l : List Nat) (init : Nat) {r : Nat}
    (result : l.foldl (fun first i => if P i && key i < first then key i else first) init = r) :
    (r = init ∨ ∃ i ∈ l, P i = true ∧ key i = r) ∧ r ≤ init ∧ ∀ i ∈ l, P i = true → r ≤ key i := by
  induction l generalizing init with
  | nil =>
    cases result
    exact ⟨.inl rfl,le_rfl,nofun⟩
  | cons j rest ih =>
    rw [foldl_cons] at result
    by_cases lower : (P j && key j < init) = true
    · grind
    · grind

theorem first_dirty_spec (inv : Inv g c) :
    (first_dirty c = NO_BLOCK ↔ dirty_entries c = ∅) ∧
      (first_dirty c ≠ NO_BLOCK → ∃ i, (c.entries i).dirty = true ∧ (c.entries i).block = first_dirty c) := by
  have folded : (range EXT2_BLOCK_CACHE_SIZE).foldl (fun first i =>
      if (c.entries i).valid && (c.entries i).dirty && (c.entries i).block < first then (c.entries i).block else first)
      NO_BLOCK = first_dirty c := by rw [first_dirty]
  obtain ⟨origin,_,least⟩ := lowest_spec (fun i => (c.entries i).valid && (c.entries i).dirty)
    (fun i => (c.entries i).block) _ _ folded
  simp only [Bool.and_eq_true] at origin least
  refine ⟨⟨fun none_dirty => ?_,fun empty => ?_⟩,fun some_dirty => ?_⟩
  · refine Finset.eq_empty_of_forall_notMem (fun i member => ?_)
    obtain ⟨inside,dirty⟩ := Finset.mem_filter.mp member
    have valid := inv.dirty_valid i dirty
    have below := least i (mem_range.mpr (Finset.mem_range.mp inside)) ⟨valid,dirty⟩
    have usable := (inv.home i valid).2.1.2
    omega
  · rcases origin with same | ⟨i,member,⟨_,dirty⟩,_⟩
    · exact same
    · simp_all [dirty_entries]
  · grind

/-- The blocks of a batch are dirty, with these contents, each once. -/
structure Batch (c : Cache) (batch : List (Nat × Buffer)) : Prop where
  dirty : ∀ entry ∈ batch, ∃ i, find c entry.1 = some i ∧ (c.entries i).dirty = true ∧
    (c.entries i).data = some entry.2
  apart : (batch.map Prod.fst).Nodup

theorem gather_spec (c : Cache) (room block : Nat) :
    Batch c (gather c room block) ∧ ∀ entry ∈ gather c room block, block ≤ entry.1 := by
  induction room generalizing block with
  | zero => exact ⟨⟨nofun,.nil⟩,nofun⟩
  | succ room ih =>
    have nothing : Batch c [] ∧ ∀ entry ∈ ([] : List (Nat × Buffer)), block ≤ entry.1 :=
      ⟨⟨nofun,.nil⟩,nofun⟩
    rw [gather]
    cases found : cached c block with
    | none => exact nothing
    | some entry =>
      obtain ⟨i,content⟩ := entry
      dsimp only
      split
      · rename_i dirty
        obtain ⟨here,data⟩ := cached_some found
        obtain ⟨rest,above⟩ := ih (block + 1)
        refine ⟨⟨?_,?_⟩,?_⟩
        · exact forall_mem_cons.mpr ⟨⟨i,here,dirty,data⟩,rest.dirty⟩
        · rw [map_cons,nodup_cons]
          refine ⟨fun member => ?_,rest.apart⟩
          obtain ⟨other,later,same⟩ := mem_map.mp member
          have := above other later
          omega
        · grind
      · exact nothing

structure Kept (g : Geometry) (c d : Cache) : Prop where
  inv : Inv g d
  view : ∀ block, ∀ k < g.block_size, view g d block k = view g c block k
  stable : d.stable = c.stable
  flag : d.dirty = c.dirty
  sb : d.sb = c.sb
  sb_dirty : d.sb_dirty = c.sb_dirty
  pending : d.pending = c.pending
  superblock : SameSuperblock c d

theorem Kept.refl (inv : Inv g c) : Kept g c c := ⟨inv,fun _ _ _ => rfl,rfl,rfl,rfl,rfl,rfl,fun _ _ => rfl⟩

theorem Kept.trans {e : Cache} (first : Kept g c d) (second : Kept g d e) : Kept g c e :=
  ⟨second.inv,fun block k inside => (second.view block k inside).trans (first.view block k inside),
    second.stable.trans first.stable,second.flag.trans first.flag,second.sb.trans first.sb,
    second.sb_dirty.trans first.sb_dirty,second.pending.trans first.pending,
    fun k inside => (second.superblock k inside).trans (first.superblock k inside)⟩

section
variable (inv : Inv g c)
include inv

variable {batch : List (Nat × Buffer)}

/-- The device gets a batch; the entries are still dirty. -/
theorem write_batch (valid : Batch c batch) :
    let d : Cache := { c with disk := batch.foldl (fun disk entry => write_disk g disk entry.1 entry.2) c.disk }
    Kept g c d ∧ (∀ entry ∈ batch, ∀ k < g.block_size, disk_block g d.disk entry.1 k = entry.2 k) ∧
      ∀ block, block ∉ batch.map Prod.fst → ∀ k < g.block_size,
        disk_block g d.disk block k = disk_block g c.disk block k := by
  induction batch generalizing c with
  | nil => exact ⟨.refl inv,nofun,fun _ _ _ _ => rfl⟩
  | cons first rest ih =>
    obtain ⟨i,found,dirty,data⟩ := valid.dirty first mem_cons_self
    obtain ⟨_,in_use,at_block⟩ := find_some found
    obtain ⟨fresh,apart⟩ := nodup_cons.mp (map_cons ▸ valid.apart)
    have usable : Usable g first.1 := at_block ▸ (inv.home i in_use).2.1
    obtain ⟨new,shown⟩ := inv.write_disk (b := first.1) (d := { c with disk := write_disk g c.disk first.1 first.2 })
      rfl rfl rfl (fun j other same => by rw [inv.single j i other in_use (same.trans at_block.symm)]; exact dirty)
    have head : Kept g c { c with disk := write_disk g c.disk first.1 first.2 } := by
      refine ⟨new,fun block k inside => ?_,rfl,rfl,rfl,rfl,rfl,fun k inside => write_disk_superblock usable inside⟩
      rw [shown block k inside,if_neg (fun both => by rw [found] at both; cases both.2)]
    have later : Batch { c with disk := write_disk g c.disk first.1 first.2 } rest :=
      ⟨(forall_mem_cons.mp valid.dirty).2,apart⟩
    obtain ⟨kept,written,others⟩ := ih new later
    refine ⟨head.trans kept,fun entry member k inside => ?_,fun block outside k inside => ?_⟩
    · rcases mem_cons.mp member with rfl | member
      · rw [foldl_cons]
        refine (others entry.1 fresh k inside).trans ?_
        rw [disk_block_write _ _ _ _ inside,if_pos rfl]
      · exact written entry member k inside
    rw [map_cons,mem_cons,not_or] at outside
    rw [foldl_cons]
    refine (others block outside.2 k inside).trans ?_
    rw [disk_block_write _ _ _ _ inside,if_neg outside.1]

theorem clean_batch (valid : Batch c batch)
    (written : ∀ entry ∈ batch, ∀ k < g.block_size, disk_block g c.disk entry.1 k = entry.2 k) :
    Kept g c (batch.foldl (fun c entry => mark_clean c entry.1) c) ∧
      (dirty_entries (batch.foldl (fun c entry => mark_clean c entry.1) c)).card + batch.length =
        (dirty_entries c).card := by
  induction batch generalizing c with
  | nil => exact ⟨.refl inv,by rw [foldl_nil,length_nil,add_zero]⟩
  | cons first rest ih =>
    obtain ⟨i,found,dirty,data⟩ := valid.dirty first mem_cons_self
    obtain ⟨inside_set,in_use,at_block⟩ := find_some found
    obtain ⟨fresh,apart⟩ := nodup_cons.mp (map_cons ▸ valid.apart)
    have small := ways_lt inside_set
    have step : mark_clean c first.1 = { c with
        entries := update c.entries i { c.entries i with dirty := false }
        cache_dirty_blocks := c.cache_dirty_blocks - 1 } := by
      unfold mark_clean
      rw [found]
      exact if_pos dirty
    obtain ⟨new,shown,erased⟩ := inv.clean_entry (d := mark_clean c first.1) small dirty data
      (fun k inside => by rw [at_block,written first mem_cons_self k inside]) (by rw [step]) (by rw [step])
      (by rw [step])
    have head : Kept g c (mark_clean c first.1) := by
      refine ⟨new,fun block k _ => by rw [shown],?_,?_,?_,?_,?_,?_⟩ <;> rw [step]
      exact fun _ _ => rfl
    have later : Batch (mark_clean c first.1) rest := by
      refine ⟨fun entry member => ?_,apart⟩
      obtain ⟨j,found_j,dirty_j,data_j⟩ := valid.dirty entry (mem_cons_of_mem _ member)
      obtain ⟨_,in_use_j,at_j⟩ := find_some found_j
      have other : j ≠ i := by
        rintro rfl
        exact fresh (mem_map.mpr ⟨entry,member,at_j.symm.trans at_block⟩)
      have same : (mark_clean c first.1).entries j = c.entries j := by
        rw [step]
        exact update_of_ne other _ _
      exact ⟨j,new.find_of_valid (by rw [same]; exact in_use_j) (by rw [same]; exact at_j),by rw [same]; exact dirty_j,
        by rw [same]; exact data_j⟩
    have member : i ∈ dirty_entries c := Finset.mem_filter.mpr ⟨Finset.mem_range.mpr small,dirty⟩
    obtain ⟨kept,count⟩ := ih new later (fun entry listed k inside => by
      rw [step]
      exact written entry (mem_cons_of_mem _ listed) k inside)
    rw [erased,Finset.card_erase_of_mem member] at count
    have positive := Finset.card_pos.mpr ⟨i,member⟩
    rw [foldl_cons,length_cons]
    exact ⟨head.trans kept,by omega⟩

theorem flush_batch_spec {capacity : Nat} (room : 0 < capacity) (some_dirty : first_dirty c ≠ NO_BLOCK) :
    Kept g c (flush_batch g capacity c) ∧
      (dirty_entries (flush_batch g capacity c)).card < (dirty_entries c).card := by
  obtain ⟨valid,_⟩ := gather_spec c capacity (first_dirty c)
  obtain ⟨wrote,written,_⟩ := write_batch inv valid
  obtain ⟨cleaned,count⟩ := clean_batch wrote.inv ⟨valid.dirty,valid.apart⟩ written
  -- the lowest dirty block is in the batch, so every round makes progress
  have progress : 0 < (gather c capacity (first_dirty c)).length := by
    obtain ⟨i,dirty,at_first⟩ := (first_dirty_spec inv).2 some_dirty
    have in_use := inv.dirty_valid i dirty
    obtain ⟨content,data⟩ := isSome_iff_exists.mp (inv.home i in_use).2.2
    have found := cached_of_find (inv.find_of_valid in_use at_first) data
    obtain ⟨rest,rfl⟩ := Nat.exists_eq_add_of_le' room
    rw [gather,found]
    dsimp only
    rw [if_pos dirty]
    exact Nat.succ_pos _
  refine ⟨wrote.trans cleaned,?_⟩
  have same : (dirty_entries { c with
      disk := (gather c capacity (first_dirty c)).foldl (fun disk entry => write_disk g disk entry.1 entry.2) c.disk }) =
      dirty_entries c := rfl
  rw [same] at count
  unfold flush_batch
  dsimp only
  omega

theorem flush_rounds_spec {capacity fuel : Nat} (room : 0 < capacity) (enough : (dirty_entries c).card < fuel) :
    ∃ d, flush_rounds g capacity fuel c = some d ∧ Kept g c d ∧ dirty_entries d = ∅ := by
  induction fuel generalizing c with
  | zero => omega
  | succ fuel ih =>
    rw [flush_rounds]
    by_cases done : first_dirty c = NO_BLOCK
    · rw [if_pos done]
      exact ⟨c,rfl,.refl inv,(first_dirty_spec inv).1.mp done⟩
    rw [if_neg done]
    obtain ⟨kept,fewer⟩ := flush_batch_spec inv room done
    obtain ⟨d,result,rest,empty⟩ := ih kept.inv (by omega)
    exact ⟨d,result,kept.trans rest,empty⟩

/-- The flush ends, and fails only for want of memory. -/
theorem flush_dirty_blocks_spec (capacity : Nat) :
    (flush_dirty_blocks g c capacity = none ∧ c.cache_dirty_blocks ≠ 0 ∧ capacity = 0) ∨
      ∃ d, flush_dirty_blocks g c capacity = some d ∧ Kept g c d ∧ dirty_entries d = ∅ ∧
        (c.cache_dirty_blocks = 0 → d = c) ∧ (c.cache_dirty_blocks = 0 ∨ capacity ≠ 0) := by
  unfold flush_dirty_blocks
  by_cases none_dirty : c.cache_dirty_blocks = 0
  · rw [if_pos none_dirty]
    refine .inr ⟨c,rfl,.refl inv,?_,fun _ => rfl,.inl none_dirty⟩
    rw [inv.counter] at none_dirty
    exact Finset.card_eq_zero.mp none_dirty
  rw [if_neg none_dirty]
  by_cases no_room : capacity = 0
  · rw [if_pos no_room]
    exact .inl ⟨rfl,none_dirty,no_room⟩
  rw [if_neg no_room]
  have most : (dirty_entries c).card ≤ EXT2_BLOCK_CACHE_SIZE :=
    (Finset.card_filter_le _ _).trans (Finset.card_range _).le
  obtain ⟨d,result,kept,empty⟩ := flush_rounds_spec inv (Nat.pos_of_ne_zero no_room) (Nat.lt_succ_of_le most)
  exact .inr ⟨d,result,kept,empty,fun zero => absurd zero none_dirty,.inr no_room⟩

end

end ArmOS.Coherence

