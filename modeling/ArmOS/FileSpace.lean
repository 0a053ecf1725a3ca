import ArmOS.BlockMap
import ArmOS.Space

/-!
The blocks of several files on one volume: no block is pointed to twice, every one
pointed to is in use, and `i_blocks` counts the blocks of a file. Filling a hole
keeps this, also where it fails, and changes no byte.
-/
namespace ArmOS.FileSpace
open Bytes Disk Volumes Allocator FileMap BlockMap Space List
open Function (update update_self update_of_ne update_eq_self update_idem)

def keys (fs : Fs) (F : List Nat) : List (Nat × Place) := F ×ˢ places fs
def pointers (read : Nat → Buffer) (inode : Nat → Inode) (k : Nat × Place) : Nat :=
  at_place read (inode k.1).i_block k.2

/-- The blocks of the files `F`; `other` are used otherwise. -/
structure Files (fs : Fs) (other : Nat → Prop) (F : List Nat) (v : Volume) (inode : Nat → Inode) : Prop where
  consistent : Consistent fs v
  nodup : F.Nodup
  once : (nonzero (pointers v.store.read inode) (keys fs F)).Nodup
  apart : ∀ n ∈ nonzero (pointers v.store.read inode) (keys fs F),
    OnVolume fs n ∧ ¬ Reserved fs v n ∧ ¬ other n
  marked : ∀ n, OnVolume fs n → (block_used fs v n = true ↔
    Reserved fs v n ∨ other n ∨ n ∈ nonzero (pointers v.store.read inode) (keys fs F))
  charged : ∀ x ∈ F, (inode x).i_blocks = fs.sectors_per_block * (blocks_of fs v.store.read (inode x)).length
  triple : ∀ x ∈ F, (inode x).i_block 14 = 0
  /-- With blocks of 256 KiB the numbers of blocks of a file are no 32-bit words any more. -/
  narrow : fs.block_size ≤ 2 ^ 17

def block_data (fs : Fs) (read : Nat → Buffer) (di : Inode) (idx : Nat) : Buffer :=
  if block_at fs read di idx = 0 then zeroes else read (block_at fs read di idx)

variable {fs : Fs} {other : Nat → Prop} {F : List Nat} {v w u : Volume} {inode inode' : Nat → Inode} {ino b : Nat}
variable {p : Place}

variable {k : Nat × Place} {n m i : Nat}

theorem mem_keys : k ∈ keys fs F ↔ k.1 ∈ F ∧ k.2.Valid fs := by
  obtain ⟨x,q⟩ := k
  rw [keys,mem_product,mem_places]

theorem empty_files (consistent : Consistent fs v) (nodup : F.Nodup) (empty : ∀ x ∈ F, ∀ i, (inode x).i_block i = 0)
    (uncharged : ∀ x ∈ F, (inode x).i_blocks = 0) (narrow : fs.block_size ≤ 2 ^ 17) :
    Files fs (fun n => block_used fs v n = true) F v inode := by
  have nowhere : ∀ x ∈ F, ∀ p, at_place v.store.read (inode x).i_block p = 0 := by
    intro x listed p
    cases p <;> simp [at_place,behind,empty x listed]
  have none_there : nonzero (pointers v.store.read inode) (keys fs F) = [] := by
    refine eq_nil_iff_forall_not_mem.mpr fun n there => ?_
    obtain ⟨there,k,listed,rfl⟩ := mem_nonzero.mp there
    exact there (nowhere k.1 (mem_keys.mp listed).1 k.2)
  refine ⟨consistent,nodup,?_,?_,fun n _ => ⟨fun used => .inr (.inl used),?_⟩,fun x listed => ?_,
      fun x listed => empty x listed 14,narrow⟩
  · rw [none_there]
    exact nodup_nil
  · rw [none_there]
    exact fun n there => absurd there not_mem_nil
  · rw [none_there]
    rintro (reserved | used | there)
    · exact (consistent.reserved n reserved).2
    · exact used
    · exact absurd there not_mem_nil
  · simp_all [blocks_of]

section
variable (files : Files fs other F v inode)
include files

theorem Files.nodup_keys : (keys fs F).Nodup := files.nodup.product nodup_places

theorem Files.owned (member : k ∈ keys fs F) (present : pointers v.store.read inode k ≠ 0) :
    OnVolume fs (pointers v.store.read inode k) ∧ ¬ Reserved fs v (pointers v.store.read inode k) ∧
      block_used fs v (pointers v.store.read inode k) = true := by
  have here := mem_nonzero.mpr ⟨present,k,member,rfl⟩
  obtain ⟨on,allowed,_⟩ := files.apart _ here
  exact ⟨on,allowed,(files.marked _ on).mpr (.inr (.inr here))⟩

theorem Files.injective {j : Nat × Place} (first : j ∈ keys fs F)
    (second : k ∈ keys fs F) (present : pointers v.store.read inode j ≠ 0)
    (same : pointers v.store.read inode j = pointers v.store.read inode k) : j = k :=
  nonzero_injective files.once first second present same

theorem Files.keep (keeps : Keeps fs v w) (used : ∀ n, OnVolume fs n → block_used fs w n = block_used fs v n)
    (same : ∀ k ∈ keys fs F, pointers w.store.read inode' k = pointers v.store.read inode k)
    (charged : ∀ x ∈ F, (inode' x).i_blocks = (inode x).i_blocks)
    (triple : ∀ x ∈ F, (inode' x).i_block 14 = (inode x).i_block 14) : Files fs other F w inode' := by
  have blocks := nonzero_congr same
  refine ⟨keeps.consistent,files.nodup,?_,?_,?_,?_,?_,files.narrow⟩
  · rw [blocks]
    exact files.once
  · simpa only [blocks,keeps.reserved] using files.apart
  · intro n on
    rw [used n on,blocks,keeps.reserved]
    exact files.marked n on
  · intro x member
    have own : blocks_of fs w.store.read (inode' x) = blocks_of fs v.store.read (inode x) :=
      nonzero_congr fun q valid => same (x,q) (mem_keys.mpr ⟨member,mem_places.mp valid⟩)
    rw [charged x member,own]
    exact files.charged x member
  intro x member
  rw [triple x member]
  exact files.triple x member

end

variable {read read' : Nat → Buffer}

/-- Pointers stay while no table is written. -/
theorem pointers_congr (same : ∀ k ∈ keys fs F, k.2.IsTable → pointers read inode k ≠ 0 →
      read' (pointers read inode k) = read (pointers read inode k)) (member : k ∈ keys fs F) :
    pointers read' inode k = pointers read inode k := by
  obtain ⟨x,q⟩ := k
  obtain ⟨known,valid⟩ := mem_keys.mp member
  refine at_place_congr (fun q inside table present => ?_) valid
  exact same (x,q) (mem_keys.mpr ⟨known,inside⟩) table present

/-! ### A new block at one place -/

/-- Filling holes keeps blocks and contents, and takes at most `n` blocks. -/
structure Grows (fs : Fs) (other : Nat → Prop) (F : List Nat) (n : Nat) (v : Volume) (inode : Nat → Inode)
    (w : Volume) (inode' : Nat → Inode) : Prop where
  files : Files fs other F w inode'
  keeps : Keeps fs v w
  data : ∀ x ∈ F, ∀ idx, block_data fs w.store.read (inode' x) idx = block_data fs v.store.read (inode x) idx
  free : v.sb.s_free_blocks_count ≤ w.sb.s_free_blocks_count + n

theorem Grows.refl (files : Files fs other F v inode) : Grows fs other F 0 v inode v inode :=
  ⟨files,Keeps.refl files.consistent,fun _ _ _ => rfl,le_rfl⟩

theorem Grows.trans {inode'' : Nat → Inode} (first : Grows fs other F n v inode w inode')
    (second : Grows fs other F m w inode' u inode'') : Grows fs other F (n + m) v inode u inode'' := by
  refine ⟨second.files,first.keeps.trans second.keeps,fun x member idx => ?_,?_⟩
  · rw [second.data x member idx,first.data x member idx]
  have taken := first.free
  have taken' := second.free
  omega

theorem Grows.mono (grows : Grows fs other F n v inode w inode') (le : n ≤ m) :
    Grows fs other F m v inode w inode' := by
  refine ⟨grows.files,grows.keeps,grows.data,?_⟩
  have taken := grows.free
  omega

/-- The block taken is none of the files'. -/
theorem Files.took_other (files : Files fs other F v inode) (took : Took fs v w b) (member : k ∈ keys fs F)
    (present : pointers v.store.read inode k ≠ 0) :
    pointers v.store.read inode k ≠ b ∧
      w.store.read (pointers v.store.read inode k) = v.store.read (pointers v.store.read inode k) := by
  obtain ⟨_,allowed,marked⟩ := files.owned member present
  have apart : pointers v.store.read inode k ≠ b := by
    intro same
    rw [same,took.free.2] at marked
    cases marked
  exact ⟨apart,by rw [took.read _ allowed,if_neg apart]⟩

variable {di : Inode}

/-- The pointer to a new block is put at its place. -/
theorem Files.link (files : Files fs other F v inode) (took : Took fs v w b) (keeps : Keeps fs v u)
    (used : ∀ n, OnVolume fs n → block_used fs u n = block_used fs w n) (member : ino ∈ F) (valid : p.Valid fs)
    (blocks : di.i_blocks = (inode ino).i_blocks + fs.sectors_per_block)
    (triple : di.i_block 14 = (inode ino).i_block 14) (hole : pointers v.store.read inode (ino,p) = 0)
    (linked : ∀ k ∈ keys fs F, pointers u.store.read (update inode ino di) k =
      update (pointers v.store.read inode) (ino,p) b k) :
    Files fs other F u (update inode ino di) := by
  have key : (ino,p) ∈ keys fs F := mem_keys.mpr ⟨member,valid⟩
  have more := (List.Perm.of_eq (nonzero_congr linked)).trans
    (nonzero_update files.nodup_keys key hole took.nonzero)
  have fresh : b ∉ nonzero (pointers v.store.read inode) (keys fs F) := by
    intro listed
    have marked := (files.marked b took.free.1).mpr (.inr (.inr listed))
    rw [took.free.2] at marked
    cases marked
  refine ⟨keeps.consistent,files.nodup,?_,?_,?_,?_,?_,files.narrow⟩
  · exact more.nodup_iff.mpr (nodup_cons.mpr ⟨fresh,files.once⟩)
  · intro n listed
    rw [keeps.reserved]
    rcases mem_cons.mp (more.mem_iff.mp listed) with rfl | before
    · refine ⟨took.free.1,took.allowed files.consistent,fun elsewhere => ?_⟩
      have marked := (files.marked n took.free.1).mpr (.inr (.inl elsewhere))
      rw [took.free.2] at marked
      cases marked
    · exact files.apart n before
  · intro n on
    rw [used n on,took.used n on,keeps.reserved,Bool.or_eq_true,files.marked n on,more.mem_iff,mem_cons,
      decide_eq_true_eq]
    tauto
  · intro x known
    by_cases same : x = ino
    · subst same
      have own : (blocks_of fs u.store.read di).Perm (b :: blocks_of fs v.store.read (inode x)) := by
        refine (List.Perm.of_eq (nonzero_congr fun q inside => ?_)).trans
          (nonzero_update nodup_places (mem_places.mpr valid) hole took.nonzero)
        have here := linked (x,q) (mem_keys.mpr ⟨known,mem_places.mp inside⟩)
        simp only [pointers,update_self] at here
        rw [here]
        by_cases place : q = p
        · subst place
          simp
        · simp [place,pointers]
      rw [update_self,blocks,own.length_eq,files.charged x known,length_cons]
      ring
    have own : blocks_of fs u.store.read (inode x) = blocks_of fs v.store.read (inode x) := by
      refine nonzero_congr fun q inside => ?_
      have here := linked (x,q) (mem_keys.mpr ⟨known,mem_places.mp inside⟩)
      simpa [pointers,same] using here
    rw [update_of_ne same,own]
    exact files.charged x known
  · grind [triple]

variable {idx : Nat}

/-- The contents of a file, given by its pointers to data blocks. -/
theorem block_data_congr {di di' : Inode}
    (same : idx < max_blocks fs → at_place read' di'.i_block (data_place fs idx) =
      at_place read di.i_block (data_place fs idx) ∧
      (at_place read di.i_block (data_place fs idx) ≠ 0 → read' (at_place read di.i_block (data_place fs idx)) =
        read (at_place read di.i_block (data_place fs idx)))) :
    block_data fs read' di' idx = block_data fs read di idx := by
  by_cases below : idx < max_blocks fs
  · grind [block_at,block_data]
  · simp [block_data,block_at,below]

/-- The free blocks `new` are taken and charged to a file; its data blocks but the one at `p` stay. -/
structure Adds (fs : Fs) (v : Volume) (di : Inode) (w : Volume) (di' : Inode) (new : List Nat) (p : Place) : Prop where
  charged : di'.i_blocks = di.i_blocks + fs.sectors_per_block * new.length
  nodup : new.Nodup
  free : ∀ n ∈ new, FreeBlock fs v n
  used : ∀ n, OnVolume fs n → (block_used fs w n = true ↔ block_used fs v n = true ∨ n ∈ new)
  others : ∀ q : Place, q.Valid fs → ¬ q.IsTable → q ≠ p →
    at_place w.store.read di'.i_block q = at_place v.store.read di.i_block q

theorem Adds.same (read : w.store.read = v.store.read)
    (used : ∀ n, OnVolume fs n → block_used fs w n = block_used fs v n) : Adds fs v di w di [] p :=
  ⟨rfl,nodup_nil,nofun,fun n on => by simp [used n on],fun _ _ _ _ => by rw [read]⟩

theorem Adds.trans {di' di'' : Inode} {new more : List Nat} {q : Place} (first : Adds fs v di w di' new p)
    (table : p.IsTable) (second : Adds fs w di' u di'' more q) : Adds fs v di u di'' (new ++ more) q := by
  have unused : ∀ n ∈ more, ¬ (block_used fs v n = true ∨ n ∈ new) := by
    intro n listed taken
    have free := (second.free n listed).2
    rw [(first.used n (second.free n listed).1).mpr taken] at free
    cases free
  refine ⟨?_,nodup_append'.mpr ⟨first.nodup,second.nodup,fun n old listed => unused n listed (.inr old)⟩,
    forall_mem_append.mpr ⟨first.free,fun n listed => ?_⟩,fun n on => ?_,fun r valid data apart => ?_⟩
  · rw [second.charged,first.charged,length_append,mul_add,add_assoc]
  · exact ⟨(second.free n listed).1,by simpa using fun used => unused n listed (.inl used)⟩
  · rw [second.used n on,first.used n on,mem_append,or_assoc]
  · rw [second.others r valid data apart,first.others r valid data fun same => data (same ▸ table)]

/-- A new block `b` at place `p` of a file, and nothing else. -/
structure Linked (fs : Fs) (other : Nat → Prop) (F : List Nat) (ino : Nat) (v : Volume) (inode : Nat → Inode)
    (w : Volume) (di : Inode) (p : Place) (b : Nat) : Prop where
  grows : Grows fs other F 1 v inode w (update inode ino di)
  here : at_place w.store.read di.i_block p = b
  cleared : w.store.read b = zeroes
  adds : Adds fs v (inode ino) w di [b] p

theorem Files.grow (files : Files fs other F v inode) (took : Took fs v w b) (keeps : Keeps fs v u)
    (used : ∀ n, OnVolume fs n → block_used fs u n = block_used fs w n)
    (free : u.sb.s_free_blocks_count = w.sb.s_free_blocks_count) (member : ino ∈ F) (valid : p.Valid fs)
    (blocks : di.i_blocks = (inode ino).i_blocks + fs.sectors_per_block)
    (triple : di.i_block 14 = (inode ino).i_block 14) (hole : pointers v.store.read inode (ino,p) = 0)
    (linked : ∀ k ∈ keys fs F, pointers u.store.read (update inode ino di) k =
      update (pointers v.store.read inode) (ino,p) b k)
    (content : ∀ k ∈ keys fs F, ¬ k.2.IsTable → pointers v.store.read inode k ≠ 0 →
      u.store.read (pointers v.store.read inode k) = v.store.read (pointers v.store.read inode k))
    (cleared : u.store.read b = zeroes) : Linked fs other F ino v inode u di p b := by
  have place : at_place u.store.read di.i_block p = b := by
    have now := linked (ino,p) (mem_keys.mpr ⟨member,valid⟩)
    simpa [pointers] using now
  refine ⟨⟨files.link took keeps used member valid blocks triple hole linked,keeps,fun x known idx => ?_,?_⟩,place,
    cleared,by simp [blocks],nodup_singleton b,forall_mem_singleton.mpr took.free,fun n on => ?_,fun q inside _ apart => ?_⟩
  · by_cases here : idx < max_blocks fs ∧ (x,data_place fs idx) = (ino,p)
    · grind [block_at,pointers,block_data]
    refine block_data_congr fun below => ?_
    have key : (x,data_place fs idx) ∈ keys fs F := mem_keys.mpr ⟨known,data_place_valid below⟩
    have now := linked _ key
    rw [update_of_ne (fun place => here ⟨below,place⟩)] at now
    exact ⟨now,content _ key (data_place_not_table idx)⟩
  · have fewer := took.fewer
    omega
  · simp [used n on,took.used n on]
  · have now := linked (ino,q) (mem_keys.mpr ⟨member,inside⟩)
    simpa [pointers,apart] using now

variable (p) in
theorem Files.grow_inode (files : Files fs other F v inode) (took : Took fs v w b) (member : ino ∈ F)
    (valid : p.Valid fs) (low : i ≠ 14) (hole : pointers v.store.read inode (ino,p) = 0)
    (edit : ∀ read : Nat → Buffer, read b = zeroes → ∀ q : Place, q.Valid fs →
      at_place read (update (inode ino).i_block i b) q =
        update (at_place read (inode ino).i_block) p b q) :
    Linked fs other F ino v inode w (point fs (inode ino) i b) p b := by
  have cleared : w.store.read b = zeroes := by rw [took.read b (took.allowed files.consistent),if_pos rfl]
  have kept : ∀ k ∈ keys fs F, pointers w.store.read inode k = pointers v.store.read inode k :=
    fun k known => pointers_congr (fun j inside _ present => (files.took_other took inside present).2) known
  refine files.grow took took.keeps (fun _ _ => rfl) rfl member valid rfl ?_ hole ?_
    (fun k known _ present => (files.took_other took known present).2) cleared
  · exact update_of_ne (Ne.symm low) _ _
  rintro ⟨x,q⟩ known
  by_cases same : x = ino
  · subst same
    have here := edit w.store.read cleared q (mem_keys.mp known).2
    simp only [pointers,update_self,point,charge]
    rw [here]
    by_cases place : q = p
    · subst place
      simp
    have before := kept (x,q) known
    simp only [pointers] at before
    simp [place,pointers,before]
  · grind [pointers]

theorem child_valid (table : p.IsTable) (valid : p.Valid fs) (inside : i < ptrs_per_block fs) :
    (p.child i).Valid fs := by
  cases p with
  | single | double => exact inside
  | table k => exact ⟨valid,inside⟩
  | _ => cases table

theorem Files.grow_slot (files : Files fs other F v inode) (took : Took fs v w b) (member : ino ∈ F)
    (valid : p.Valid fs) (table : p.IsTable) (inside : i < ptrs_per_block fs)
    (present : pointers v.store.read inode (ino,p) ≠ 0) (hole : pointers v.store.read inode (ino,p.child i) = 0) :
    let u := write_table w (pointers v.store.read inode (ino,p))
      (set_pointer (v.store.read (pointers v.store.read inode (ino,p))) i b)
    Linked fs other F ino v inode u (charge fs (inode ino)) (p.child i) b := by
  intro u
  have key : (ino,p) ∈ keys fs F := mem_keys.mpr ⟨member,valid⟩
  obtain ⟨_,allowed,_⟩ := files.owned key present
  have wrote : Wrote fs w u _ _ := wrote_table took.keeps.consistent
    (fun here => allowed (took.keeps.reserved.mp here)) _
  have other_place : ∀ k ∈ keys fs F, k ≠ (ino,p) → pointers v.store.read inode k ≠ 0 →
      u.store.read (pointers v.store.read inode k) = v.store.read (pointers v.store.read inode k) := by
    intro k known apart there
    rw [wrote.read,update_of_ne (fun same => apart (files.injective known key there same))]
    exact (files.took_other took known there).2
  have cleared : u.store.read b = zeroes := by
    rw [wrote.read,update_of_ne (Ne.symm (files.took_other took key present).1),
      took.read b (took.allowed files.consistent),if_pos rfl]
  refine files.grow took (took.keeps.trans wrote.keeps) wrote.used wrote.free member
    (child_valid table valid inside) rfl rfl hole ?_ ?_ cleared
  · rintro ⟨x,q⟩ known
    obtain ⟨listed,within⟩ := mem_keys.mp known
    by_cases same : x = ino
    · subst same
      have here := at_place_slot valid table present hole took.small
        (by rw [wrote.read]; exact update_self _ _ _)
        (fun q inside _ apart there => other_place (x,q) (mem_keys.mpr ⟨listed,inside⟩)
          (fun equal => apart (congrArg Prod.snd equal)) there)
        (fun _ => cleared) within
      simp only [pointers,update_self,charge]
      dsimp only at here
      rw [here]
      by_cases place : q = p.child i
      · subst place
        simp
      · simp [place,pointers]
    have apart : (x,q) ≠ (ino,p.child i) := fun equal => same (congrArg Prod.fst equal)
    rw [update_of_ne apart]
    simp only [pointers,update_of_ne same]
    refine at_place_congr (fun q inside _ there => ?_) within
    exact other_place (x,q) (mem_keys.mpr ⟨listed,inside⟩) (fun equal => same (congrArg Prod.fst equal)) there
  intro k known data there
  refine other_place k known ?_ there
  rintro rfl
  exact data table

theorem Files.still (files : Files fs other F v inode) :
    Grows fs other F 0 v inode v inode ∧ ∀ q, Adds fs v (inode ino) v (inode ino) [] q :=
  ⟨Grows.refl files,fun _ => .same rfl fun _ _ => rfl⟩

theorem read_rewrite (v : Volume) (block : Nat) :
    (write_table v block (v.store.read block)).store.read = v.store.read :=
  (read_write_allocation_block _ _ _).trans (update_eq_self _ _)

theorem Files.rewrite (files : Files fs other F v inode) (member : ino ∈ F) (valid : p.Valid fs)
    (present : pointers v.store.read inode (ino,p) ≠ 0) :
    let w := write_table v (pointers v.store.read inode (ino,p)) (v.store.read (pointers v.store.read inode (ino,p)))
    Grows fs other F 0 v inode w inode ∧ ∀ q, Adds fs v (inode ino) w (inode ino) [] q := by
  obtain ⟨_,allowed,_⟩ := files.owned (mem_keys.mpr ⟨member,valid⟩) present
  have wrote : Wrote fs v _ _ _ := wrote_table files.consistent allowed (v.store.read (pointers v.store.read inode (ino,p)))
  have read := read_rewrite v (pointers v.store.read inode (ino,p))
  refine ⟨⟨files.keep wrote.keeps wrote.used (fun k _ => ?_) (fun _ _ => rfl) (fun _ _ => rfl),wrote.keeps,?_,?_⟩,
    fun q => .same read wrote.used⟩
  · rw [read]
  · intro x _ idx
    rw [read]
  · exact wrote.free.ge

/-! ### Filling a hole -/

/-- The block at `p` is looked for, with at most `n` blocks taken. -/
structure Got (fs : Fs) (other : Nat → Prop) (F : List Nat) (ino n : Nat) (v : Volume) (inode : Nat → Inode)
    (p : Place) (got : Allocated) : Prop where
  grows : Grows fs other F n v inode got.v (update inode ino got.di)
  mode : got.di.i_mode = (inode ino).i_mode
  size : got.di.i_size = (inode ino).i_size
  block : got.block ≠ 0 → at_place got.v.store.read got.di.i_block p = got.block
  fresh : got.block ≠ 0 → got.allocated = true → got.v.store.read got.block = zeroes
  found : n ≤ v.sb.s_free_blocks_count → got.block ≠ 0
  adds : ∃ new, Adds fs v (inode ino) got.v got.di new p

theorem Got.after {got : Allocated} (grows : Grows fs other F n v inode w (update inode ino di))
    (mode : di.i_mode = (inode ino).i_mode) (size : di.i_size = (inode ino).i_size) {new : List Nat} {q : Place}
    (adds : Adds fs v (inode ino) w di new q) (table : q.IsTable)
    (got_it : Got fs other F ino m w (update inode ino di) p got) : Got fs other F ino (n + m) v inode p got := by
  obtain ⟨later,later_mode,later_size,block,fresh,found,more,later_adds⟩ := got_it
  rw [update_idem] at later
  rw [update_self] at later_mode later_size later_adds
  refine ⟨grows.trans later,later_mode.trans mode,later_size.trans size,block,fresh,fun enough => found ?_,_,
    adds.trans table later_adds⟩
  have taken := grows.free
  omega

theorem Got.later {got : Allocated} (got_it : Got fs other F ino n w inode p got)
    (grows : Grows fs other F 0 v inode w inode) {q : Place} (table : q.IsTable)
    (adds : Adds fs v (inode ino) w (inode ino) [] q) : Got fs other F ino n v inode p got := by
  obtain ⟨later,mode,size,block,fresh,found,new,later_adds⟩ := got_it
  refine ⟨(grows.trans later).mono (by omega),mode,size,block,fresh,fun enough => found ?_,_,adds.trans table later_adds⟩
  have taken := grows.free
  omega

theorem Got.mono {got : Allocated} (got_it : Got fs other F ino n v inode p got) (le : n ≤ m) :
    Got fs other F ino m v inode p got := by
  obtain ⟨grows,mode,size,block,fresh,found,adds⟩ := got_it
  exact ⟨grows.mono le,mode,size,block,fresh,fun enough => found (le.trans enough),adds⟩
theorem Linked.got (linked : Linked fs other F ino v inode w di p b) (nonzero : b ≠ 0)
    (mode : di.i_mode = (inode ino).i_mode) (size : di.i_size = (inode ino).i_size) (allocated : Bool) :
    Got fs other F ino 1 v inode p ⟨b,allocated,di,w⟩ :=
  ⟨linked.grows,mode,size,fun _ => linked.here,fun _ _ => linked.cleared,fun _ => nonzero,[b],linked.adds⟩

theorem Got.failed {allocated : Bool} (none_left : v.sb.s_free_blocks_count = 0)
    (still : Grows fs other F 0 v inode w inode ∧ ∀ q, Adds fs v (inode ino) w (inode ino) [] q) :
    Got fs other F ino (n + 1) v inode p ⟨0,allocated,inode ino,w⟩ := by
  refine ⟨?_,rfl,rfl,fun some_block => absurd rfl some_block,fun some_block => absurd rfl some_block,
    fun enough => by omega,[],still.2 p⟩
  rw [update_eq_self]
  exact still.1.mono (Nat.zero_le _)

section
variable (files : Files fs other F v inode) (member : ino ∈ F)
include files member

theorem fill_slot_spec (valid : p.Valid fs) (table : p.IsTable) (inside : i < ptrs_per_block fs)
    (present : pointers v.store.read inode (ino,p) ≠ 0) (fresh : Bool)
    (cleared : fresh = true → v.store.read (pointers v.store.read inode (ino,p)) = zeroes) :
    Got fs other F ino 1 v inode (p.child i)
      (FileMap.fill_slot fs v (inode ino) (pointers v.store.read inode (ino,p)) i fresh) := by
  have content : (if fresh = true then zeroes else v.store.read (pointers v.store.read inode (ino,p))) =
      v.store.read (pointers v.store.read inode (ino,p)) := by
    split
    · rename_i new
      exact (cleared new).symm
    · rfl
  have child : pointers v.store.read inode (ino,p.child i) =
      pointer (v.store.read (pointers v.store.read inode (ino,p))) i := by
    have here : at_place v.store.read (inode ino).i_block (p.child i) = _ := at_place_child table i
    simp only [pointers] at present ⊢
    rw [here,behind,if_neg present]
  simp only [FileMap.fill_slot,content]
  by_cases hole : pointer (v.store.read (pointers v.store.read inode (ino,p))) i = 0
  · rw [hole] at child
    simp only [hole,ne_eq,not_true_eq_false,if_false]
    rcases alloc_block_cases files.consistent with ⟨block,w,taken,took⟩ | ⟨missing,none_left⟩
    · have slot : pointer (set_pointer (v.store.read (pointers v.store.read inode (ino,p))) i block) i = _ :=
        pointer_set took.small i
      rw [if_pos rfl] at slot
      rw [taken]
      dsimp only
      rw [slot]
      exact (files.grow_slot took member valid table inside present child).got took.nonzero rfl rfl true
    rw [missing]
    refine Got.failed none_left ?_
    cases fresh with
    | false => exact files.still
    | true => exact files.rewrite member valid present
  -- a table that was just taken has no pointer yet, so `fresh` is not set here
  have old : fresh = false := by
    cases fresh with
    | false => rfl
    | true =>
      rw [cleared rfl,pointer_zeroes] at hole
      exact absurd rfl hole
  subst old
  simp only [hole,ne_eq,not_false_eq_true,if_true]
  have same : update inode ino (inode ino) = inode := update_eq_self _ _
  refine ⟨?_,rfl,rfl,fun _ => child,by simp,fun _ => hole,[],.same rfl fun _ _ => rfl⟩
  simp only [same]
  exact (Grows.refl files).mono (Nat.zero_le _)

omit files in
theorem Linked.fill (linked : Linked fs other F ino v inode u di p b) (nonzero : b ≠ 0)
    (valid : p.Valid fs) (table : p.IsTable) (inside : i < ptrs_per_block fs)
    (mode : di.i_mode = (inode ino).i_mode) (size : di.i_size = (inode ino).i_size) :
    Got fs other F ino 2 v inode (p.child i) (fill_slot fs u di b i true) := by
  have place : pointers u.store.read (update inode ino di) (ino,p) = b := by
    simpa [pointers] using linked.here
  have rest := fill_slot_spec linked.grows.files member valid table inside
    (fun zero => nonzero (place.symm.trans zero)) true (fun _ => place.symm ▸ linked.cleared)
  rw [place,update_self] at rest
  exact Got.after linked.grows mode size linked.adds table rest

theorem fill_direct_spec (low : i < 12) (hole : (inode ino).i_block i = 0) :
    Got fs other F ino 1 v inode (.direct i) (fill_direct fs v (inode ino) i) := by
  rw [fill_direct]
  rcases alloc_block_cases files.consistent with ⟨block,w,taken,took⟩ | ⟨missing,none_left⟩
  · rw [taken]
    have linked : Linked fs other F ino v inode w (point fs (inode ino) i block) (.direct i) block :=
      files.grow_inode (.direct i) took member low (by omega) hole (fun _ _ _ valid => at_place_direct low valid)
    exact linked.got took.nonzero rfl rfl true
  rw [missing]
  exact Got.failed none_left files.still

theorem fill_single_spec (inside : i < ptrs_per_block fs) :
    Got fs other F ino 2 v inode (.single_data i) (fill_single fs v (inode ino) i) := by
  rw [fill_single]
  by_cases hole : (inode ino).i_block 12 = 0
  · rw [if_neg (not_not.mpr hole)]
    rcases alloc_block_cases files.consistent with ⟨block,w,taken,took⟩ | ⟨missing,none_left⟩
    · rw [taken]
      have linked : Linked fs other F ino v inode w (point fs (inode ino) 12 block) .single block :=
        files.grow_inode .single took member trivial (by decide) hole
          (fun _ cleared _ valid => at_place_single hole cleared valid)
      exact linked.fill member took.nonzero trivial trivial inside rfl rfl
    rw [missing]
    exact Got.failed none_left files.still
  rw [if_pos hole]
  have rest := fill_slot_spec files member (p := .single) trivial trivial inside hole false nofun
  exact rest.mono (by omega)

theorem fill_table_spec {i j : Nat} (inside : i < ptrs_per_block fs) (below : j < ptrs_per_block fs)
    (present : (inode ino).i_block 13 ≠ 0) (fresh : Bool)
    (cleared : fresh = true → v.store.read ((inode ino).i_block 13) = zeroes) :
    Got fs other F ino 2 v inode (.double_data i j)
      (fill_table fs v (inode ino) ((inode ino).i_block 13) i j fresh) := by
  have content : (if fresh = true then zeroes else v.store.read ((inode ino).i_block 13)) =
      v.store.read ((inode ino).i_block 13) := by
    split
    · rename_i new
      exact (cleared new).symm
    · rfl
  have child : pointers v.store.read inode (ino,.table i) = pointer (v.store.read ((inode ino).i_block 13)) i := by
    simp [pointers,at_place,behind,present]
  simp only [fill_table,content]
  by_cases hole : pointer (v.store.read ((inode ino).i_block 13)) i = 0
  · rw [hole] at child
    simp only [hole,ne_eq,not_true_eq_false,if_false]
    rcases alloc_block_cases files.consistent with ⟨block,w,taken,took⟩ | ⟨missing,none_left⟩
    · have slot : pointer (set_pointer (v.store.read ((inode ino).i_block 13)) i block) i = _ :=
        pointer_set took.small i
      rw [if_pos rfl] at slot
      rw [taken]
      dsimp only
      rw [slot]
      have linked : Linked fs other F ino v inode _ (charge fs (inode ino)) (.table i) block :=
        files.grow_slot took member (p := .double) trivial trivial inside present child
      exact linked.fill member took.nonzero inside trivial below rfl rfl
    rw [missing]
    refine Got.failed none_left ?_
    cases fresh with
    | false => exact files.still
    | true => exact files.rewrite member (p := .double) trivial present
  simp only [hole,ne_eq,not_false_eq_true,if_true]
  have still := files.rewrite member (p := .double) trivial present
  have same : Grows fs other F 0 v inode
      (write_table v ((inode ino).i_block 13) (v.store.read ((inode ino).i_block 13))) inode := still.1
  have place : pointers (write_table v ((inode ino).i_block 13) (v.store.read ((inode ino).i_block 13))).store.read
      inode (ino,.table i) = pointer (v.store.read ((inode ino).i_block 13)) i := by
    rw [read_rewrite,child]
  have rest := fill_slot_spec same.files member (p := .table i) inside trivial below
    (fun zero => hole (place.symm.trans zero)) false (by simp)
  rw [place] at rest
  exact (rest.later (q := .double) same trivial (still.2 _)).mono (by omega)

theorem fill_double_spec {i j : Nat} (inside : i < ptrs_per_block fs) (below : j < ptrs_per_block fs) :
    Got fs other F ino 3 v inode (.double_data i j) (fill_double fs v (inode ino) i j) := by
  rw [fill_double]
  by_cases hole : (inode ino).i_block 13 = 0
  · rw [if_neg (not_not.mpr hole)]
    rcases alloc_block_cases files.consistent with ⟨block,w,taken,took⟩ | ⟨missing,none_left⟩
    · rw [taken]
      have linked : Linked fs other F ino v inode w (point fs (inode ino) 13 block) .double block :=
        files.grow_inode .double took member trivial (by decide) hole
          (fun _ cleared _ valid => at_place_double hole cleared valid)
      have place : (update inode ino (point fs (inode ino) 13 block) ino).i_block 13 = block := by
        simpa [at_place] using linked.here
      have rest := fill_table_spec linked.grows.files member inside below
        (fun zero => took.nonzero (place.symm.trans zero)) true (fun _ => place.symm ▸ linked.cleared)
      rw [place,update_self] at rest
      exact Got.after linked.grows rfl rfl linked.adds trivial rest
    rw [missing]
    exact Got.failed none_left files.still
  rw [if_pos hole]
  exact (fill_table_spec files member inside below hole false (by simp)).mono (by omega)

theorem get_or_alloc_block_at_spec (within : idx < max_blocks fs) :
    Got fs other F ino 3 v inode (data_place fs idx) (get_or_alloc_block_at fs v (inode ino) idx) := by
  simp only [get_or_alloc_block_at,map_block_eq]
  by_cases hole : block_at fs v.store.read (inode ino) idx = 0
  · rw [if_neg (not_not.mpr hole)]
    rw [block_at,if_pos within] at hole
    simp only [max_blocks] at within
    by_cases direct : idx < 12
    · simp only [data_place,if_pos direct,at_place] at hole ⊢
      exact (fill_direct_spec files member direct hole).mono (by omega)
    by_cases single : idx - 12 < ptrs_per_block fs
    · simp only [data_place,if_neg direct,if_pos single]
      exact (fill_single_spec files member single).mono (by omega)
    have fits : ¬ Words.wrap32 (ptrs_per_block fs * ptrs_per_block fs) ≤ idx - 12 - ptrs_per_block fs := by omega
    have valid : (data_place fs idx).Valid fs := data_place_valid within
    simp only [data_place,if_neg direct,if_neg single] at valid ⊢
    rw [if_neg fits]
    exact fill_double_spec files member valid.1 valid.2
  rw [if_pos hole]
  refine ⟨?_,rfl,rfl,fun _ => ?_,by simp,fun _ => hole,[],.same rfl fun _ _ => rfl⟩
  · rw [update_eq_self]
    exact (Grows.refl files).mono (Nat.zero_le _)
  · simp only [block_at,if_pos within]

end

end ArmOS.FileSpace

