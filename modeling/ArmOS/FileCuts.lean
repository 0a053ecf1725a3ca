import ArmOS.Truncation

/-!
Truncating a file among others: the blocks that are cut off are freed, the rest of
the file keeps its blocks and its bytes, and no other file is touched.
-/
namespace ArmOS.FileCuts
open Bytes Disk Volumes Allocator BlockMap Space FileSpace Truncation List
open Function (update update_self update_of_ne)
open FileMap (ptrs_per_block)
open FileOps (max_supported_file_blocks)
open Words (wrap32)

/-! ### Removing pointers -/

section
variable {Key : Type}

theorem nonzero_sublist {f g : Key → Nat} {keys : List Key} (less : ∀ k ∈ keys, g k = 0 ∨ g k = f k) :
    (nonzero g keys).Sublist (nonzero f keys) := by
  induction keys with
  | nil => exact .slnil
  | cons k rest ih =>
    have later := ih (forall_mem_cons.mp less).2
    rw [nonzero_cons,nonzero_cons]
    rcases less k mem_cons_self with zero | same
    · rw [if_pos zero,nil_append]
      exact later.trans (sublist_append_right _ _)
    rw [same]
    exact later.append_left _

theorem nonzero_length_split (f : Key → Nat) (P : Key → Bool) (keys : List Key) :
    (nonzero f keys).length = (nonzero (fun k => if P k then f k else 0) keys).length +
      (nonzero (fun k => if P k then 0 else f k) keys).length := by
  induction keys with
  | nil => rfl
  | cons k rest ih =>
    simp only [nonzero_cons,length_append,ih]
    grind

end

variable {fs : Fs} {other : Nat → Prop} {F : List Nat} {v w u : Volume} {inode inode' : Nat → Inode} {ino : Nat}

/-- Files lose pointers; their blocks belong to no file now. -/
theorem fewer_blocks (files : Files fs other F v inode) (keeps : Keeps fs v w)
    (used : ∀ n, OnVolume fs n → block_used fs w n = block_used fs v n)
    (less : ∀ k ∈ keys fs F, pointers w.store.read inode' k = 0 ∨
      pointers w.store.read inode' k = pointers v.store.read inode k)
    (charged : ∀ x ∈ F, (inode' x).i_blocks = fs.sectors_per_block * (blocks_of fs w.store.read (inode' x)).length)
    (triple : ∀ x ∈ F, (inode' x).i_block 14 = 0) :
    Files fs (fun n => other n ∨ n ∈ nonzero (pointers v.store.read inode) (keys fs F) ∧
      n ∉ nonzero (pointers w.store.read inode') (keys fs F)) F w inode' := by
  have part := nonzero_sublist less
  refine ⟨keeps.consistent,files.nodup,part.nodup files.once,fun n there => ?_,fun n on => ?_,charged,triple,files.narrow⟩
  · obtain ⟨on,allowed,apart⟩ := files.apart n (part.subset there)
    refine ⟨on,fun reserved => allowed (keeps.reserved.mp reserved),?_⟩
    rintro (taken | lost)
    · exact apart taken
    · exact lost.2 there
  rw [used n on,files.marked n on,keeps.reserved]
  grind

/-- Up to 128 KiB the numbers of blocks are not cut to words. -/
theorem max_supported_eq (narrow : fs.block_size ≤ 2 ^ 17) : max_supported_file_blocks fs = max_blocks fs ∧
    max_blocks fs = 12 + ptrs_per_block fs + ptrs_per_block fs * ptrs_per_block fs ∧
        max_blocks fs + 2 + ptrs_per_block fs < 2 ^ 32 := by
  have few : ptrs_per_block fs ≤ 2 ^ 15 := by
    unfold ptrs_per_block
    omega
  have square : ptrs_per_block fs * ptrs_per_block fs ≤ 2 ^ 15 * 2 ^ 15 := Nat.mul_le_mul few few
  have word : wrap32 (ptrs_per_block fs * ptrs_per_block fs) = ptrs_per_block fs * ptrs_per_block fs :=
      Nat.mod_eq_of_lt (by omega)
  rw [max_supported_file_blocks,max_blocks,word]
  exact ⟨Nat.mod_eq_of_lt (by omega),rfl,by omega⟩

/-- The blocks at the places of a file that `P` selects. -/
def removed (fs : Fs) (P : Place → Bool) (read : Nat → Buffer) (di : Inode) : List Nat :=
  nonzero (fun p => if P p then at_place read di.i_block p else 0) (places fs)
variable {di : Inode}

theorem mem_removed {P : Place → Bool} {read : Nat → Buffer} {n : Nat} :
    n ∈ removed fs P read di ↔ n ≠ 0 ∧ ∃ p : Place, p.Valid fs ∧ P p = true ∧ at_place read di.i_block p = n := by
  simp only [removed,mem_nonzero,mem_places]
  grind

/-- Pointers of a file are removed; their blocks belong to no file now. -/
theorem cut_file (files : Files fs other F v inode) (member : ino ∈ F) (P : Place → Bool)
    (edits : Edits fs v w (fun n => ∃ p : Place, p.Valid fs ∧ p.IsTable ∧ n = at_place v.store.read (inode ino).i_block p))
    (left : ∀ p : Place, p.Valid fs → at_place w.store.read di.i_block p =
      if P p then 0 else at_place v.store.read (inode ino).i_block p)
    (blocks : di.i_blocks = (inode ino).i_blocks - (removed fs P v.store.read (inode ino)).length * fs.sectors_per_block)
    (triple : di.i_block 14 = (inode ino).i_block 14) :
    Files fs (fun n => other n ∨ n ∈ removed fs P v.store.read (inode ino)) F w (update inode ino di) := by
  have kept : ∀ k ∈ keys fs F, pointers w.store.read (update inode ino di) k =
      if k.1 = ino ∧ P k.2 then 0 else pointers v.store.read inode k := by
    rintro ⟨x,q⟩ known
    obtain ⟨listed,valid⟩ := mem_keys.mp known
    by_cases same : x = ino
    · subst same
      simpa [pointers] using left q valid
    simp only [pointers,same,false_and,if_false,update_of_ne same]
    refine at_place_congr (fun p inside table present => edits.read _ ?_) valid
    rintro ⟨p',valid',_,equal⟩
    have twice := @Files.injective _ _ _ _ _ (ino,p') files (x,p) (mem_keys.mpr ⟨listed,inside⟩)
      (mem_keys.mpr ⟨member,valid'⟩) present equal
    exact same (congrArg Prod.fst twice)
  have less : ∀ k ∈ keys fs F, pointers w.store.read (update inode ino di) k = 0 ∨
      pointers w.store.read (update inode ino di) k = pointers v.store.read inode k := by
    intro k known
    rw [kept k known]
    split
    · exact .inl rfl
    · exact .inr rfl
  have charged : ∀ x ∈ F, (update inode ino di x).i_blocks =
      fs.sectors_per_block * (blocks_of fs w.store.read (update inode ino di x)).length := by
    intro x listed
    by_cases same : x = ino
    · subst same
      have whole := nonzero_length_split (at_place v.store.read (inode x).i_block) P (places fs)
      have rest : blocks_of fs w.store.read (update inode x di x) =
          nonzero (fun p => if P p then 0 else at_place v.store.read (inode x).i_block p) (places fs) := by
        rw [update_self]
        exact nonzero_congr fun p inside => left p (mem_places.mp inside)
      have old := files.charged x listed
      rw [blocks_of_eq,whole,mul_add] at old
      rw [rest,update_self,blocks,old,removed,mul_comm fs.sectors_per_block,Nat.add_sub_cancel_left]
    have own : blocks_of fs w.store.read (inode x) = blocks_of fs v.store.read (inode x) := by
      refine nonzero_congr fun p inside => ?_
      have key := kept (x,p) (mem_keys.mpr ⟨listed,mem_places.mp inside⟩)
      simpa [pointers,same] using key
    rw [update_of_ne same,own]
    exact files.charged x listed
  have unused : ∀ x ∈ F, (update inode ino di x).i_block 14 = 0 := by
    intro x listed
    by_cases same : x = ino
    · subst same
      rw [update_self,triple]
      exact files.triple x listed
    rw [update_of_ne same]
    exact files.triple x listed
  have lost : (fun n => other n ∨ n ∈ removed fs P v.store.read (inode ino)) = fun n => other n ∨
      n ∈ nonzero (pointers v.store.read inode) (keys fs F) ∧
        n ∉ nonzero (pointers w.store.read (update inode ino di)) (keys fs F) := by
    funext n
    refine propext (or_congr_right ⟨fun gone => ?_,fun lost => ?_⟩)
    · obtain ⟨nonzero,p,valid,chosen,here⟩ := mem_removed.mp gone
      have key : (ino,p) ∈ keys fs F := mem_keys.mpr ⟨member,valid⟩
      refine ⟨mem_nonzero.mpr ⟨nonzero,(ino,p),key,here⟩,fun there => ?_⟩
      obtain ⟨_,k,known,same⟩ := mem_nonzero.mp there
      rw [kept k known] at same
      split at same
      · exact nonzero same.symm
      rename_i stays
      have twice : k = (ino,p) := files.injective known key (by rw [same]; exact nonzero) (same.trans here.symm)
      subst twice
      exact stays ⟨rfl,chosen⟩
    obtain ⟨nonzero,k,known,here⟩ := mem_nonzero.mp lost.1
    obtain ⟨x,p⟩ := k
    by_cases chosen : x = ino ∧ P p = true
    · obtain ⟨rfl,chosen⟩ := chosen
      exact mem_removed.mpr ⟨nonzero,p,(mem_keys.mp known).2,chosen,here⟩
    refine absurd (mem_nonzero.mpr ⟨nonzero,(x,p),known,?_⟩) lost.2
    rw [kept _ known,if_neg chosen,here]
  rw [lost]
  exact fewer_blocks files edits.keeps edits.used less charged unused

end ArmOS.FileCuts

