import ArmOS.Directories

/-!
An open file is an array of bytes with an offset. Writes at or before the end
replace bytes, reads return a part, and a shorter length cuts it off. Writes behind
the end and longer truncations are refused.
-/
namespace ArmOS.FileArrays
open Bytes Disk Volumes Allocator FileMap BlockMap Space FileSpace FileOps FileData Truncation FileCuts Directories List
open Function (update update_self update_of_ne update_eq_self)
open Words Runs

variable {fs : Fs} {other : Nat → Prop} {F : List Nat} {v w : Volume} {inode : Nat → Inode} {ino : Nat} {di : Inode}

/-! ### Freeing blocks -/

variable {blocks : List Nat} {x : Nat} {di' : Inode}

theorem free_files (files : Files fs (fun n => other n ∨ n ∈ blocks) F v inode)
    (lost : ∀ n ∈ blocks, OnVolume fs n ∧ ¬ Reserved fs v n ∧ ¬ other n) :
    ∃ w, free_block_list fs v blocks = some w ∧ Files fs other F w inode ∧ Keeps fs v w ∧
      ∀ n, ¬ Reserved fs v n → w.store.read n = v.store.read n := by
  obtain ⟨w,result,freed⟩ := free_block_list_spec files.consistent fun n there => ⟨(lost n there).1,(lost n there).2.1⟩
  have same : ∀ k ∈ keys fs F, pointers w.store.read inode k = pointers v.store.read inode k :=
    fun k known => pointers_congr (fun j inside _ present => freed.read _ (files.owned inside present).2.1) known
  have blocks_same := nonzero_congr same
  refine ⟨w,result,⟨freed.keeps.consistent,files.nodup,?_,?_,?_,?_,files.triple,files.narrow⟩,freed.keeps,freed.read⟩
  · rw [blocks_same]
    exact files.once
  · intro n there
    rw [blocks_same] at there
    obtain ⟨on,allowed,apart⟩ := files.apart n there
    exact ⟨on,fun reserved => allowed (freed.keeps.reserved.mp reserved),fun taken => apart (.inl taken)⟩
  · intro n on
    rw [freed.used n on,blocks_same,Bool.and_eq_true,files.marked n on,freed.keeps.reserved]
    constructor
    · grind
    rintro (reserved | taken | there)
    · exact ⟨.inl reserved,by simpa using fun here => (lost n here).2.1 reserved⟩
    · exact ⟨.inr (.inl (.inl taken)),by simpa using fun here => (lost n here).2.2 taken⟩
    · exact ⟨.inr (.inr there),by simpa using fun here => (files.apart n there).2.2 (.inr here)⟩
  intro x listed
  have own : blocks_of fs w.store.read (inode x) = blocks_of fs v.store.read (inode x) :=
    nonzero_congr fun p inside => same (x,p) (mem_keys.mpr ⟨listed,mem_places.mp inside⟩)
  rw [own]
  exact files.charged x listed

theorem removed_allowed (files : Files fs other F v inode) (member : ino ∈ F) (P : Place → Bool) :
    ∀ n ∈ removed fs P v.store.read (inode ino), OnVolume fs n ∧ ¬ Reserved fs v n ∧ ¬ other n := by
  intro n there
  obtain ⟨nonzero,p,valid,_,here⟩ := mem_removed.mp there
  exact files.apart n (mem_nonzero.mpr ⟨nonzero,(ino,p),mem_keys.mpr ⟨member,valid⟩,here⟩)

/-! ### The room for the queue of blocks -/

theorem length_places (narrow : fs.block_size ≤ 2 ^ 17) : (places fs).length = max_blocks fs + 2 + ptrs_per_block fs := by
  rw [(max_supported_eq narrow).2.1]
  simp only [places,length_append,length_map,length_range,length_flatMap,length_cons,
    length_nil,map_const',sum_replicate,smul_eq_mul]
  rw [mul_add]
  omega

theorem nonzero_length_le {Key : Type} (f : Key → Nat) (keys : List Key) : (nonzero f keys).length ≤ keys.length := by
  rw [nonzero]
  exact (length_filter_le _ _).trans (length_map f).le

/-- The queue of blocks has room for all the blocks of a file. -/
theorem capacity_enough (files : Files fs other F v inode) (member : ino ∈ F) (sectors : fs.sectors_per_block ≠ 0) :
    (blocks_of fs v.store.read (inode ino)).length ≤ truncate_block_capacity fs (inode ino) := by
  have count := files.charged ino member
  have bound : (blocks_of fs v.store.read (inode ino)).length ≤ max_blocks fs + 2 + ptrs_per_block fs := by
    rw [blocks_of_eq,← length_places files.narrow]
    exact nonzero_length_le _ _
  have whole : (inode ino).i_blocks / fs.sectors_per_block = (blocks_of fs v.store.read (inode ino)).length := by
    rw [count,Nat.mul_div_cancel_left _ (sectors.pos)]
  have rest : (inode ino).i_blocks % fs.sectors_per_block = 0 := by rw [count,Nat.mul_mod_right]
  obtain ⟨most,_,word⟩ := max_supported_eq files.narrow
  have maximum : wrap32 (max_supported_file_blocks fs + 2 + ptrs_per_block fs) = max_blocks fs + 2 + ptrs_per_block fs := by
    rw [most]
    exact Nat.mod_eq_of_lt word
  simp only [truncate_block_capacity,if_neg sectors,whole,rest,if_true,add_zero,maximum,min_eq_left bound]
  split <;> omega

/-! ### Cutting a file off -/

theorem gone_data {keep idx : Nat} (read : Nat → Buffer) (i_block : Nat → Nat) :
    gone fs keep read i_block (data_place fs idx) = decide (keep ≤ idx) := by
  unfold data_place
  split
  · rfl
  split
  · simp only [gone,decide_eq_decide]
    omega
  rename_i high above
  have whole : table_base fs ((idx - 12 - ptrs_per_block fs) / ptrs_per_block fs) +
      (idx - 12 - ptrs_per_block fs) % ptrs_per_block fs = idx := by
    rw [table_base,add_assoc,Nat.div_add_mod']
    omega
  simp only [gone,whole]

section
variable (files : Files fs other F v inode) (member : ino ∈ F) {p q : Place} (valid : p.Valid fs)
include files member valid

theorem place_allowed (present : at_place v.store.read (inode ino).i_block p ≠ 0) :
    ¬ Reserved fs v (at_place v.store.read (inode ino).i_block p) :=
  (files.owned (k := (ino,p)) (mem_keys.mpr ⟨member,valid⟩) present).2.1
theorem places_distinct (valid' : q.Valid fs) (present : at_place v.store.read (inode ino).i_block p ≠ 0)
    (same : at_place v.store.read (inode ino).i_block p = at_place v.store.read (inode ino).i_block q) : p = q :=
  congrArg Prod.snd (files.injective (j := (ino,p)) (k := (ino,q)) (mem_keys.mpr ⟨member,valid⟩)
    (mem_keys.mpr ⟨member,valid'⟩) present same)

end

section
variable (files : Files fs other F v inode)
include files

section
variable (member : ino ∈ F)
include member

theorem same_data (same : ∀ n, ¬ Reserved fs v n → w.store.read n = v.store.read n) (idx : Nat) :
    block_data fs w.store.read (inode ino) idx = block_data fs v.store.read (inode ino) idx := by
  refine block_data_congr fun below => ?_
  have key : (ino,data_place fs idx) ∈ keys fs F := mem_keys.mpr ⟨member,data_place_valid below⟩
  exact ⟨pointers_congr (fun j inside _ present => same _ (files.owned inside present).2.1) key,
    fun present => same _ (files.owned key present).2.1⟩

theorem cut_data {keep idx : Nat} (low : idx < keep)
    (edits : Edits fs v w (fun n => ∃ p : Place, p.Valid fs ∧ p.IsTable ∧ n = at_place v.store.read (inode ino).i_block p))
    (left : ∀ p : Place, p.Valid fs → at_place w.store.read di.i_block p =
      if gone fs keep v.store.read (inode ino).i_block p then 0 else at_place v.store.read (inode ino).i_block p) :
    block_data fs w.store.read di idx = block_data fs v.store.read (inode ino) idx := by
  refine block_data_congr fun below => ?_
  have valid := data_place_valid below
  have stays := left _ valid
  rw [gone_data,decide_eq_false (not_le.mpr low),if_neg Bool.false_ne_true] at stays
  refine ⟨stays,fun present => edits.read _ ?_⟩
  rintro ⟨p,inside,table,equal⟩
  rw [← places_distinct files member valid inside present equal] at table
  exact data_place_not_table idx table

theorem cut_others (listed : x ∈ F) (apart : x ≠ ino)
    (edits : Edits fs v w (fun n => ∃ p : Place, p.Valid fs ∧ p.IsTable ∧ n = at_place v.store.read (inode ino).i_block p))
    (idx : Nat) : block_data fs w.store.read (inode x) idx = block_data fs v.store.read (inode x) idx := by
  have same : ∀ p : Place, p.Valid fs → at_place v.store.read (inode x).i_block p ≠ 0 →
      w.store.read (at_place v.store.read (inode x).i_block p) =
        v.store.read (at_place v.store.read (inode x).i_block p) := by
    intro p valid present
    refine edits.read _ ?_
    rintro ⟨q,inside,_,equal⟩
    have twice := files.injective (j := (x,p)) (k := (ino,q)) (mem_keys.mpr ⟨listed,valid⟩) (mem_keys.mpr ⟨member,inside⟩)
      present equal
    exact apart (congrArg Prod.fst twice)
  exact block_data_congr fun below => ⟨at_place_congr (fun q valid _ => same q valid) (data_place_valid below),
    same _ (data_place_valid below)⟩

/-- Clearing the rest of the last block keeps the bytes before. -/
theorem clear_tail_spec {new_size : Nat}
    (blocks : di.i_block = (inode ino).i_block) (cleared : clear_tail fs v di new_size = w) :
    Files fs other F w inode ∧ Keeps fs v w ∧
      (∀ off < new_size, byte_at fs w.store.read (inode ino) off = byte_at fs v.store.read (inode ino) off) ∧
      ∀ x ∈ F, x ≠ ino → ∀ idx, block_data fs w.store.read (inode x) idx = block_data fs v.store.read (inode x) idx := by
  simp only [clear_tail,map_block_eq] at cleared
  have here : block_at fs v.store.read di (new_size / fs.block_size) =
      block_at fs v.store.read (inode ino) (new_size / fs.block_size) := by rw [block_at,block_at,blocks]
  rw [here] at cleared
  by_cases nothing : new_size % fs.block_size = 0 ∨ block_at fs v.store.read (inode ino) (new_size / fs.block_size) = 0
  · rw [if_pos nothing] at cleared
    subst cleared
    exact ⟨files,Keeps.refl files.consistent,fun _ _ => rfl,fun _ _ _ _ => rfl⟩
  rw [if_neg nothing] at cleared
  obtain ⟨tail,present⟩ := not_or.mp nothing
  have within : new_size / fs.block_size < max_blocks fs := by
    by_contra past
    exact present (if_neg past)
  rw [block_at,if_pos within] at present cleared
  have allowed := place_allowed files member (data_place_valid within) present
  have wrote := wrote_block files.consistent allowed
    (clear (v.store.read (at_place v.store.read (inode ino).i_block (data_place fs (new_size / fs.block_size))))
      (new_size % fs.block_size) (fs.block_size - new_size % fs.block_size))
  subst cleared
  obtain ⟨after,content,others⟩ := write_data_spec files member within present wrote
  refine ⟨after,wrote.keeps,fun off below => ?_,fun x listed apart idx =>
    others x listed idx fun same => apart (congrArg Prod.fst same)⟩
  by_cases last : off / fs.block_size = new_size / fs.block_size
  · have before : off % fs.block_size < new_size % fs.block_size := by
      have split := Nat.div_add_mod off fs.block_size
      have split' := Nat.div_add_mod new_size fs.block_size
      rw [last] at split
      omega
    have data : block_data fs v.store.read (inode ino) (new_size / fs.block_size) =
        v.store.read (at_place v.store.read (inode ino).i_block (data_place fs (new_size / fs.block_size))) := by
      rw [block_data,block_at,if_pos within,if_neg present]
    rw [byte_at,byte_at,last,content,data]
    exact if_neg (by omega)
  · rw [byte_at,byte_at,others ino member _ fun same => last (congrArg Prod.snd same)]

end

end

theorem free_queued (files : Files fs (fun n => other n ∨ n ∈ blocks) F v inode)
    (lost : ∀ n ∈ blocks, OnVolume fs n ∧ ¬ Reserved fs v n ∧ ¬ other n) :
    ∃ w, (if blocks = [] then some v else free_block_list fs v blocks) = some w ∧ Files fs other F w inode ∧
      Keeps fs v w ∧ ∀ n, ¬ Reserved fs v n → w.store.read n = v.store.read n := by
  by_cases empty : blocks = []
  · subst empty
    have same : (fun n => other n ∨ n ∈ ([] : List Nat)) = other := by simp
    rw [same] at files
    exact ⟨v,if_pos rfl,files,Keeps.refl files.consistent,fun _ _ => rfl⟩
  rw [if_neg empty]
  exact free_files files lost

/-- A copy of an inode with the stored size and blocks. -/
structure Current (di stored : Inode) : Prop where
  i_size : di.i_size = stored.i_size
  i_blocks : di.i_blocks = stored.i_blocks
  i_block : ∀ i < 15, di.i_block i = stored.i_block i
  kind : file_type di.i_mode = file_type stored.i_mode

theorem Current.refl (di : Inode) : Current di di := ⟨rfl,rfl,fun _ _ => rfl,rfl⟩

variable {read : Nat → Buffer}

theorem at_place_agree {f g : Nat → Nat} (same : ∀ i < 15, f i = g i) {p : Place} (valid : p.Valid fs) :
    at_place read f p = at_place read g p := by
  refine at_place_root (same _ ?_)
  cases p with
  | direct i =>
    have low : i < 12 := valid
    exact low.trans_le (by decide)
  | single | single_data => exact (by decide : 12 < 15)
  | double | table | double_data => exact (by decide : 13 < 15)

theorem Current.data {stored : Inode} (current : Current di stored) (read : Nat → Buffer) (idx : Nat) :
    block_data fs read di idx = block_data fs read stored idx :=
  block_data_congr fun below => ⟨at_place_agree current.i_block (data_place_valid below),fun _ => rfl⟩

theorem files_current {inode inode' : Nat → Inode} (files : Files fs other F v inode)
    (current : ∀ x ∈ F, Current (inode x) (inode' x)) : Files fs other F v inode' := by
  refine files.keep (Keeps.refl files.consistent) (fun _ _ => rfl) (fun k known => ?_) (fun x listed => ?_) fun x listed => ?_
  · obtain ⟨listed,valid⟩ := mem_keys.mp known
    exact (at_place_agree (current k.1 listed).i_block valid).symm
  · exact (current x listed).i_blocks.symm
  · exact ((current x listed).i_block 14 (by decide)).symm

/-- The file has the blocks of the new copy; other files stay. -/
structure Effect (fs : Fs) (other : Nat → Prop) (F : List Nat) (inode : Nat → Inode) (v : Volume) (file : File)
    (w : Volume) (file' : File) : Prop where
  files : Files fs other F w (update inode file.ino file'.di)
  ino : file'.ino = file.ino
  rdonly : file'.rdonly = file.rdonly
  kind : file_type file'.di.i_mode = file_type file.di.i_mode
  stored : Current file'.di (read_disk_inode w file.ino)
  stored_others : ∀ x ≠ file.ino, read_disk_inode w x = read_disk_inode v x
  others : ∀ x ∈ F, x ≠ file.ino → ∀ off, byte_at fs w.store.read (inode x) off = byte_at fs v.store.read (inode x) off

structure Truncated (fs : Fs) (other : Nat → Prop) (F : List Nat) (inode : Nat → Inode) (v : Volume) (file : File)
    (new_size : Nat) (w : Volume) (file' : File) : Prop extends Effect fs other F inode v file w file' where
  size : file'.di.i_size = new_size
  offset : file'.offset = min file.offset new_size
  bytes : ∀ off < new_size, byte_at fs w.store.read file'.di off = byte_at fs v.store.read file.di off

section
variable {file : File} (pos : 0 < fs.block_size) (sectors : fs.sectors_per_block ≠ 0)
variable (files : Files fs other F v inode) (member : file.ino ∈ F) (own : inode file.ino = file.di)
include pos sectors files member own

/-- `ext2_file_truncate_unlocked` to a size that is not 0. -/
theorem cut_spec (new_size : Nat) : ∃ c w file', cut_blocks fs (truncate_block_capacity fs file.di)
      (wrap32 (new_size + fs.block_size - 1) / fs.block_size) ⟨v,file.di,[]⟩ = .ok c ∧
    finish_truncate fs file new_size c = (0,w,file') ∧ file'.di.i_size = new_size ∧
    (new_size + fs.block_size - 1 < 2 ^ 32 → Truncated fs other F inode v file new_size w file') := by
  generalize keeping : wrap32 (new_size + fs.block_size - 1) / fs.block_size = keep
  have within : new_size + fs.block_size - 1 < 2 ^ 32 → ∀ off < new_size, off / fs.block_size < keep := by
    intro room off below
    rw [← keeping,wrap32_of_lt room,Nat.div_lt_iff_lt_mul pos]
    have least := Nat.lt_mul_div_succ (new_size + fs.block_size - 1) pos
    rw [mul_add,mul_one,mul_comm] at least
    omega
  have queue : (cut_off fs keep v.store.read file.di.i_block).length ≤ truncate_block_capacity fs file.di := by
    have most := capacity_enough files member sectors
    rw [own] at most
    refine le_trans (List.Sublist.length_le ?_) most
    refine nonzero_sublist fun p _ => ?_
    split
    · exact .inr rfl
    · exact .inl rfl
  rw [← own] at queue ⊢
  obtain ⟨c,i_block,cut,edits,triple,left⟩ := cut_blocks_spec files.consistent
    (fun p valid _ => place_allowed files member valid) (fun p q valid => places_distinct files member valid) queue
  let P := gone fs keep v.store.read (inode file.ino).i_block
  let di := { inode file.ino with
    i_block := i_block, i_size := new_size,
    i_blocks := (inode file.ino).i_blocks - (removed fs P v.store.read (inode file.ino)).length * fs.sectors_per_block }
  have cut_files : Files fs (fun n => other n ∨ n ∈ removed fs P v.store.read (inode file.ino)) F c
    (update inode file.ino di) := cut_file files member P edits left rfl triple
  have own_di : update inode file.ino di file.ino = di := update_self _ _ _
  obtain ⟨cleared,keeps,tail,beside⟩ := @clear_tail_spec fs _ F c _ _ file.ino { inode file.ino with i_block := i_block }
    cut_files member new_size (by rw [own_di]) rfl
  obtain ⟨w,freed,after,keeps',reads⟩ := free_queued cleared fun n there => by
    obtain ⟨on,allowed,apart⟩ := removed_allowed files member P n there
    exact ⟨on,fun reserved => allowed (edits.keeps.reserved.mp (keeps.reserved.mp reserved)),apart⟩
  refine ⟨_,write_disk_inode w file.ino di,{ file with di := di, offset := min file.offset new_size },cut,?_,rfl,
    fun room => ⟨⟨files_write_inode after file.ino di,rfl,rfl,?_,?_,fun x apart => ?_,fun x listed apart off => ?_⟩,rfl,rfl,
    fun off below => ?_⟩⟩
  · unfold finish_truncate
    dsimp only
    rw [show cut_off fs keep v.store.read (inode file.ino).i_block = removed fs P v.store.read (inode file.ino) from rfl,
      freed]
  · change file_type (inode file.ino).i_mode = file_type file.di.i_mode
    rw [own]
  · rw [stored_write,if_pos rfl]
    exact Current.refl di
  · rw [stored_write,if_neg apart,keeps'.stored,keeps.stored,edits.keeps.stored]
  · have first := cut_others files member listed apart edits (off / fs.block_size)
    have second := beside x listed apart (off / fs.block_size)
    have third := same_data cleared listed reads (off / fs.block_size)
    rw [update_of_ne apart] at second third
    exact congrFun (third.trans (second.trans first)) _
  have data := same_data cleared member reads (off / fs.block_size)
  have kept := tail off below
  rw [own_di] at data kept
  have before := @cut_data fs other F v c inode file.ino di files member keep _ (within room off below) edits left
  rw [← own]
  calc byte_at fs w.store.read di off
      = byte_at fs (clear_tail fs c { inode file.ino with i_block := i_block } new_size).store.read di off := by
        rw [byte_at,byte_at,data]
    _ = byte_at fs c.store.read di off := kept
    _ = byte_at fs v.store.read (inode file.ino) off := by rw [byte_at,byte_at,before]

end

/-! ### Emptying a file -/

variable {capacity : Nat}

theorem push_all {more : List Nat} (room : (blocks ++ more).length ≤ capacity) :
    more.foldl (push_below capacity) blocks = blocks ++ more := by
  induction more generalizing blocks with
  | nil => simp
  | cons block more ih => grind [push_below]

theorem push_tables (inside : Nat → List Nat) {tables : List Nat}
    (room : (blocks ++ tables.flatMap fun t => inside t ++ [t]).length ≤ capacity) :
    tables.foldl (fun blocks t => push_below capacity ((inside t).foldl (push_below capacity) blocks) t) blocks =
      blocks ++ tables.flatMap fun t => inside t ++ [t] := by
  induction tables generalizing blocks with
  | nil => simp
  | cons t tables ih =>
    rw [flatMap_cons] at room
    have space : (blocks ++ inside t).length < capacity := by
      simp only [length_append,length_cons,length_nil] at room ⊢
      omega
    rw [foldl_cons,push_all (by omega),push_below,if_pos space,ih (by simpa using room),flatMap_cons]
    simp

theorem flatMap_nonzero (f : Nat → Nat) (inside : Nat → List Nat) (slots : List Nat) :
    (nonzero f slots).flatMap inside = slots.flatMap fun i => if f i = 0 then [] else inside (f i) := by
  induction slots with
  | nil => rfl
  | cons i slots ih =>
    rw [nonzero_cons,flatMap_append,ih,flatMap_cons]
    split
    · rfl
    · simp

theorem whole_table (read : Nat → Buffer) (t : Nat) :
    nonzero (fun i => behind read t i) (range (ptrs_per_block fs)) ++ nonzero (fun t => t) [t] =
      if t = 0 then [] else table_pointers fs (read t) ++ [t] := by
  by_cases zero : t = 0
  · rw [if_pos zero]
    simp [nonzero,behind,zero]
  rw [if_neg zero]
  simp [nonzero,behind,zero,table_pointers]

theorem collect_blocks_eq {d : Store} (room : (blocks_of fs d.read di).length ≤ truncate_block_capacity fs di) :
    collect_blocks fs d di = blocks_of fs d.read di := by
  have single : nonzero (fun i => at_place d.read di.i_block (.single_data i)) (range (ptrs_per_block fs)) ++
      nonzero (at_place d.read di.i_block) [.single] =
        if di.i_block 12 = 0 then [] else table_pointers fs (d.read (di.i_block 12)) ++ [di.i_block 12] :=
    whole_table d.read (di.i_block 12)
  have table : ∀ i, nonzero (fun j => at_place d.read di.i_block (.double_data i j)) (range (ptrs_per_block fs)) ++
      nonzero (at_place d.read di.i_block) [.table i] = if behind d.read (di.i_block 13) i = 0 then [] else
        table_pointers fs (d.read (behind d.read (di.i_block 13) i)) ++ [behind d.read (di.i_block 13) i] :=
    fun i => whole_table d.read (behind d.read (di.i_block 13) i)
  rw [blocks_of_eq,nonzero_places] at room ⊢
  simp only [single,table] at room ⊢
  simp only [collect_blocks]
  by_cases zero : di.i_block 13 = 0
  · rw [if_pos zero]
    simp [nonzero,at_place,behind,zero]
  have last : nonzero (at_place d.read di.i_block) [.double] = [di.i_block 13] := by simp [nonzero,at_place,zero]
  have tables : (range (ptrs_per_block fs)).flatMap (fun i => if behind d.read (di.i_block 13) i = 0 then [] else
      table_pointers fs (d.read (behind d.read (di.i_block 13) i)) ++ [behind d.read (di.i_block 13) i]) =
      (table_pointers fs (d.read (di.i_block 13))).flatMap fun t => table_pointers fs (d.read t) ++ [t] := by
    simp only [behind,if_neg zero]
    exact (flatMap_nonzero (pointer (d.read (di.i_block 13))) (fun t => table_pointers fs (d.read t) ++ [t]) _).symm
  rw [tables,last] at room ⊢
  rw [if_neg zero]
  generalize first : nonzero (fun i => at_place d.read di.i_block (.direct i)) (range 12) ++
    (if di.i_block 12 = 0 then [] else table_pointers fs (d.read (di.i_block 12)) ++ [di.i_block 12]) = blocks at room ⊢
  have space : (blocks ++ (table_pointers fs (d.read (di.i_block 13))).flatMap fun t =>
      table_pointers fs (d.read t) ++ [t]).length < truncate_block_capacity fs di := by
    simp only [length_append,length_cons,length_nil] at room ⊢
    omega
  have direct : ((range 12).map di.i_block).filter (· ≠ 0) ++
    (if di.i_block 12 = 0 then [] else table_pointers fs (d.read (di.i_block 12)) ++ [di.i_block 12]) = blocks := first
  rw [direct,push_tables _ (by omega),push_below,if_pos space,append_assoc]

section
variable {file : File} (sectors : fs.sectors_per_block ≠ 0)
variable (files : Files fs other F v inode) (member : file.ino ∈ F) (own : inode file.ino = file.di)
include sectors files member own

/-- `ext2_file_truncate_unlocked` to 0, on the stored inode. -/
theorem empty_spec (stored : Current file.di (read_disk_inode v file.ino)) (not_dir : S_ISDIR file.di.i_mode = false)
    (not_link : S_ISLNK file.di.i_mode = false) :
    ∃ w, truncate_inode_data fs v file.ino false = (0,w) ∧
      Truncated fs other F inode v file 0 w { file with di := read_disk_inode w file.ino, offset := 0 } := by
  let old := read_disk_inode v file.ino
  let di := { old with i_size := 0, i_blocks := 0, i_block := fun _ => 0 }
  have triple : old.i_block 14 = 0 := by
    have none_there := files.triple file.ino member
    rw [own] at none_there
    exact (stored.i_block 14 (by decide)).symm.trans none_there
  have blocks : blocks_of fs v.store.read old = blocks_of fs v.store.read file.di :=
    nonzero_congr fun p inside => (at_place_agree stored.i_block (mem_places.mp inside)).symm
  have room : (blocks_of fs v.store.read old).length ≤ truncate_block_capacity fs old := by
    have most := capacity_enough files member sectors
    rw [own] at most
    rw [blocks,truncate_block_capacity,← stored.i_blocks]
    exact most
  have all : removed fs (fun _ => true) v.store.read (inode file.ino) = blocks_of fs v.store.read old := by
    rw [removed,own,blocks]
    rfl
  have cut_files : Files fs (fun n => other n ∨ n ∈ removed fs (fun _ => true) v.store.read (inode file.ino)) F v
      (update inode file.ino di) := by
    refine cut_file files member (fun _ => true) (Edits.refl files.consistent) (fun p _ => ?_) ?_ ?_
    · cases p <;> rfl
    · have charged := files.charged file.ino member
      rw [own] at charged
      rw [all,own,blocks,charged,mul_comm,Nat.sub_self]
    · exact (files.triple file.ino member).symm
  obtain ⟨w,freed,after,keeps,reads⟩ := free_files cut_files (removed_allowed files member fun _ => true)
  rw [all] at freed
  have dir : S_ISDIR old.i_mode = false := by rw [S_ISDIR,← stored.kind]; exact not_dir
  have link : S_ISLNK old.i_mode = false := by rw [S_ISLNK,← stored.kind]; exact not_link
  have result : truncate_inode_data fs v file.ino false = (0,write_disk_inode w file.ino di) := by
    change (if !false && S_ISDIR old.i_mode then _ else if S_ISLNK old.i_mode && old.i_blocks = 0 then _ else
      if old.i_block 14 ≠ 0 then _ else _) = _
    rw [dir,link,if_neg (by simp),if_neg (by simp),if_neg (by simp [triple]),collect_blocks_eq room,freed]
  have now : read_disk_inode (write_disk_inode w file.ino di) file.ino = di := by rw [stored_write,if_pos rfl]
  refine ⟨_,result,⟨?_,rfl,rfl,?_,Current.refl _,fun x apart => ?_,fun x listed apart off => ?_⟩,?_,?_,
    fun off below => absurd below (Nat.not_lt_zero _)⟩
  · rw [now]
    exact files_write_inode after file.ino di
  · rw [now]
    exact stored.kind.symm
  · rw [stored_write,if_neg apart,keeps.stored]
  · have same := same_data cut_files listed reads (off / fs.block_size)
    rw [update_of_ne apart] at same
    exact congrFun same _
  · rw [now]
  · simp

end

/-! ### Writing -/

section
variable {content : Inode} {pending pending' : List (Option (Nat × Inode))}

theorem find_map (there : (pending.findSome? (slot_inode ino)).isSome) :
    (pending.map fun slot => slot.map fun entry => if entry.1 = ino then (ino,content) else entry).findSome?
      (slot_inode ino) = some content := by
  induction pending with
  | nil => cases there
  | cons slot pending ih =>
    rw [map_cons,findSome?_cons]
    rcases slot with _ | ⟨x,old⟩
    · exact ih there
    · grind [slot_inode]

theorem find_map_other (apart : x ≠ ino) (pending : List (Option (Nat × Inode))) :
    (pending.map fun slot => slot.map fun entry => if entry.1 = ino then (ino,content) else entry).findSome?
      (slot_inode x) = pending.findSome? (slot_inode x) := by
  induction pending with
  | nil => rfl
  | cons slot pending ih =>
    rw [map_cons,findSome?_cons,findSome?_cons,ih]
    rcases slot with _ | ⟨y,old⟩
    · rfl
    by_cases same : y = ino
    · simp [slot_inode,same,Ne.symm apart]
    · simp [same]

variable (filled : Volumes.fill_slot (ino,content) pending = some pending')
include filled

theorem find_fill (none_there : pending.findSome? (slot_inode ino) = none) :
    pending'.findSome? (slot_inode ino) = some content := by
  induction pending generalizing pending' with
  | nil => cases filled
  | cons slot pending ih =>
    rcases slot with _ | entry
    · cases filled
      simp [slot_inode]
    rw [findSome?_cons] at none_there
    obtain ⟨rest,later,rfl⟩ := Option.map_eq_some_iff.mp filled
    grind

theorem find_fill_other (apart : x ≠ ino) : pending'.findSome? (slot_inode x) = pending.findSome? (slot_inode x) := by
  induction pending generalizing pending' with
  | nil => cases filled
  | cons slot pending ih =>
    rcases slot with _ | entry
    · cases filled
      simp [findSome?_cons,slot_inode,Ne.symm apart]
    obtain ⟨rest,later,rfl⟩ := Option.map_eq_some_iff.mp filled
    rw [findSome?_cons,findSome?_cons,ih later]

end

theorem stored_queue_other {content : Inode} (queued : queue_pending_inode v ino content = some w)
    (apart : x ≠ ino) : read_disk_inode w x = read_disk_inode v x := by
  unfold queue_pending_inode at queued
  by_cases there : (find_pending_inode v ino).isSome
  · rw [if_pos there] at queued
    cases queued
    rw [read_disk_inode,find_pending_eq,find_map_other apart]
    rfl
  rw [if_neg there] at queued
  obtain ⟨pending,filled,rfl⟩ := Option.map_eq_some_iff.mp queued
  rw [read_disk_inode,find_pending_eq,find_fill_other filled apart]
  rfl

theorem stored_queue {content : Inode} (queued : queue_pending_inode v ino content = some w) :
    read_disk_inode w ino = content ∧ w.store = v.store ∧ w.sb = v.sb ∧ w.groups = v.groups := by
  unfold queue_pending_inode at queued
  by_cases there : (find_pending_inode v ino).isSome
  · rw [if_pos there] at queued
    cases queued
    refine ⟨?_,rfl,rfl,rfl⟩
    rw [read_disk_inode,find_pending_eq,find_map there]
    rfl
  rw [if_neg there] at queued
  obtain ⟨pending,filled,rfl⟩ := Option.map_eq_some_iff.mp queued
  refine ⟨?_,rfl,rfl,rfl⟩
  rw [read_disk_inode,find_pending_eq,find_fill filled (by simpa [find_pending_eq] using there)]
  rfl

/-- The table of pending inodes has a slot for the file. -/
def slot_for (v : Volume) (ino : Nat) : Bool := (find_pending_inode v ino).isSome || v.pending.any Option.isNone

theorem queue_slot {content : Inode} (slot : slot_for v ino = true) :
    ∃ w, queue_pending_inode v ino content = some w := by
  unfold queue_pending_inode
  by_cases there : (find_pending_inode v ino).isSome
  · rw [if_pos there]
    exact ⟨_,rfl⟩
  rw [if_neg there]
  have free : v.pending.any Option.isNone = true := by simpa [slot_for,there] using slot
  obtain ⟨pending,filled⟩ : ∃ pending, Volumes.fill_slot (ino,content) v.pending = some pending := by
    generalize v.pending = slots at free
    induction slots with
    | nil => cases free
    | cons slot slots ih =>
      rcases slot with _ | entry
      · exact ⟨_,rfl⟩
      obtain ⟨rest,filled⟩ := ih (by simpa using free)
      exact ⟨_,by rw [Volumes.fill_slot,filled]; rfl⟩
  exact ⟨_,by rw [filled]; rfl⟩

theorem files_set_defer (files : Files fs other F v inode) (defer : Bool) : Files fs other F
    (set_defer v defer) inode := by
  exact { files with consistent := { files.consistent with } }

theorem files_queue (files : Files fs other F v inode) {content : Inode}
    (queued : queue_pending_inode v ino content = some w) : Files fs other F w inode := by
  obtain ⟨store,sb,groups,pending,hints⟩ := w
  obtain ⟨_,rfl,rfl,rfl⟩ := stored_queue queued
  exact { files with consistent := { files.consistent with } }

theorem files_resize (files : Files fs other F v (update inode ino di)) (blocks : di'.i_block = di.i_block)
    (count : di'.i_blocks = di.i_blocks) : Files fs other F v (update inode ino di') := by
  refine files.keep (Keeps.refl files.consistent) (fun _ _ => rfl) (fun k _ => ?_) (fun x _ => ?_) fun x _ => ?_
  · by_cases same : k.1 = ino
    · simp [pointers,same,blocks]
    · simp [pointers,same]
  · by_cases same : x = ino
    · simp [same,count]
    · simp [same]
  by_cases same : x = ino
  · simp [same,blocks]
  · simp [same]

structure WroteFile (fs : Fs) (other : Nat → Prop) (F : List Nat) (inode : Nat → Inode) (v : Volume) (file : File)
    (src : List UInt8) (w : Volume) (file' : File) : Prop extends Effect fs other F inode v file w file' where
  size : file'.di.i_size = max file.di.i_size (file.offset + src.length)
  offset : file'.offset = file.offset + src.length
  bytes : ∀ off, byte_at fs w.store.read file'.di off =
    if file.offset ≤ off ∧ off < file.offset + src.length then src.getD (off - file.offset) 0
    else byte_at fs v.store.read file.di off

variable {src : List UInt8}

theorem write_spec {file : File} (pos : 0 < fs.block_size) (files : Files fs other F v inode)
    (member : file.ino ∈ F) (own : inode file.ino = file.di) (some_bytes : src ≠ [])
    (within : file.offset + src.length ≤ max_blocks fs * fs.block_size) (small : file.offset + src.length < 2 ^ 32)
    (enough : 3 * touched fs file.offset src.length ≤ v.sb.s_free_blocks_count) (slot : slot_for v file.ino = true) :
    ∃ w file', commit_write file file.di.i_size (write_loop fs src.length ⟨set_defer v true,file.di,file.offset,0⟩ src) =
        ((src.length : Int),w,file') ∧ WroteFile fs other F inode v file src w file' := by
  have first : Files fs other F (set_defer v true) (update inode file.ino file.di) := by
    rw [← own,update_eq_self]
    exact files_set_defer files true
  have written := @write_loop_spec fs other F inode file.ino
      ⟨set_defer v true,file.di,file.offset,0⟩ pos member src.length src
    le_rfl first within small enough
  generalize write_loop fs src.length ⟨set_defer v true,file.di,file.offset,0⟩ src = r at written
  have offset : r.offset = file.offset + src.length := written.offset
  have total : r.total = src.length := written.total.trans (zero_add _)
  have nonzero : src.length ≠ 0 := fun zero => some_bytes (length_eq_zero_iff.mp zero)
  have pending : slot_for (set_defer r.v false) file.ino = true := by
    have same : (set_defer r.v false).pending = v.pending := written.keeps.pending
    rw [slot_for,find_pending_inode,same]
    exact slot
  simp only [commit_write,total,if_neg nonzero,offset]
  generalize di_is : (if file.di.i_size < file.offset + src.length then
    { r.di with i_size := file.offset + src.length } else r.di) = di
  have size : di.i_size = max file.di.i_size (file.offset + src.length) := by
    have old : r.di.i_size = file.di.i_size := written.size
    rw [← di_is]
    split
    · rename_i more
      exact (max_eq_right more.le).symm
    rename_i inside
    rw [old,max_eq_left (not_lt.mp inside)]
  have blocks : di.i_block = r.di.i_block ∧ di.i_blocks = r.di.i_blocks ∧ di.i_mode = r.di.i_mode := by
    rw [← di_is]
    split
    · exact ⟨rfl,rfl,rfl⟩
    · exact ⟨rfl,rfl,rfl⟩
  obtain ⟨w,queued⟩ := @queue_slot (set_defer r.v false) file.ino di pending
  obtain ⟨stored,store,_,_⟩ := stored_queue queued
  refine ⟨w,{ file with di := di, offset := file.offset + src.length },by rw [queued],
    ⟨files_queue (files_resize (files_set_defer written.files false) blocks.1 blocks.2.1) queued,rfl,rfl,?_,?_,
      fun x apart => ?_,fun x listed apart off => ?_⟩,size,rfl,fun off => ?_⟩
  · exact congrArg file_type (blocks.2.2.trans written.mode)
  · rw [stored]
    exact Current.refl di
  · rw [stored_queue_other queued apart]
    exact written.keeps.stored x
  · rw [store]
    exact written.others x listed apart off
  have byte := written.bytes off
  have reads : w.store.read = r.v.store.read := by
    rw [store]
    rfl
  have data : ∀ idx, block_data fs r.v.store.read di idx = block_data fs r.v.store.read r.di idx :=
    block_data_same blocks.1 _
  rw [reads,byte_at,data]
  exact byte

/-! ### Arrays of bytes -/

structure Content where
  bytes : List UInt8
  pos : Nat

inductive Op
  | write (src : List UInt8)
  | read (count : Nat)
  | lseek (offset : Int) (whence : Whence)
  | truncate (length : Int)

def replace (bytes src : List UInt8) (pos : Nat) : List UInt8 := bytes.take pos ++ (src ++ bytes.drop (pos + src.length))

/-- The operations on an array: code, what is read, and the array after. -/
def array_op (rdonly : Bool) (c : Content) : Op → (Int × List UInt8) × Content
  | .write src =>
    if rdonly then ((-EBADF,[]),c)
    else if src = [] then ((0,[]),c)
    else if c.bytes.length < c.pos then ((-ENOSPC,[]),c)
    else ((src.length,[]),⟨replace c.bytes src c.pos,c.pos + src.length⟩)
  | .read count =>
    let data := (c.bytes.drop c.pos).take count
    ((data.length,data),⟨c.bytes,c.pos + data.length⟩)
  | .lseek offset whence =>
    let new_pos : Int :=
      match whence with
      | .SEEK_SET => offset
      | .SEEK_CUR => c.pos + offset
      | .SEEK_END => c.bytes.length + offset
    if new_pos < 0 then ((-EINVAL,[]),c) else ((new_pos,[]),⟨c.bytes,new_pos.toNat⟩)
  | .truncate length =>
    if length < 0 then ((-EINVAL,[]),c)
    else if length = c.bytes.length then ((0,[]),c)
    else if c.bytes.length < length then ((-ENOSYS,[]),c)
    else ((0,[]),⟨c.bytes.take length.toNat,min c.pos length.toNat⟩)

structure System where
  v : Volume
  file : File

def file_op (fs : Fs) (s : System) : Op → (Int × List UInt8) × System
  | .write src =>
    let result := file_write fs s.v s.file src
    ((result.1,[]),⟨result.2.1,result.2.2⟩)
  | .read count =>
    let result := file_read fs s.v s.file count
    ((result.1.length,result.1),⟨s.v,result.2⟩)
  | .lseek offset whence =>
    let result := file_lseek s.file offset whence
    ((result.1,[]),⟨s.v,result.2⟩)
  | .truncate length =>
    let result := file_truncate fs s.v s.file length
    ((result.1,[]),⟨result.2.1,result.2.2⟩)

def content (fs : Fs) (s : System) : Content := ⟨contents fs s.v.store.read s.file.di,s.file.offset⟩

/-- A regular file that is open with a current copy of its inode. -/
structure Opened (fs : Fs) (other : Nat → Prop) (F : List Nat) (inode : Nat → Inode) (s : System) : Prop where
  files : Files fs other F s.v inode
  own : inode s.file.ino = s.file.di
  member : s.file.ino ∈ F
  stored : Current s.file.di (read_disk_inode s.v s.file.ino)
  not_dir : S_ISDIR s.file.di.i_mode = false
  not_link : S_ISLNK s.file.di.i_mode = false

theorem contents_length : (contents fs read di).length = di.i_size := slice_length 0 _
theorem contents_get {k : Nat} (below : k < (contents fs read di).length) :
    (contents fs read di)[k] = byte_at fs read di k := by
  simp [contents,slice]

theorem contents_replace {read read' : Nat → Buffer} {pos : Nat} (inside : pos ≤ di.i_size)
    (size : di'.i_size = max di.i_size (pos + src.length))
    (bytes : ∀ off, byte_at fs read' di' off =
      if pos ≤ off ∧ off < pos + src.length then src.getD (off - pos) 0 else byte_at fs read di off) :
    contents fs read' di' = replace (contents fs read di) src pos := by
  have length := @contents_length fs di read
  have before : ((contents fs read di).take pos).length = pos := by
    rw [length_take,length,min_eq_left inside]
  refine ext_getElem ?_ fun k first second => ?_
  · rw [contents_length,size,replace,length_append,length_append,before,length_drop,length]
    omega
  rw [contents_get,bytes]
  simp only [replace]
  by_cases low : k < pos
  · rw [if_neg (by omega),getElem_append_left (by rw [before]; exact low),getElem_take,contents_get]
  rw [getElem_append_right (by omega)]
  simp only [before]
  by_cases here : k < pos + src.length
  · grind
  rw [if_neg (by omega),getElem_append_right (by omega),getElem_drop,contents_get]
  congr 1
  omega

theorem contents_cut {read read' : Nat → Buffer} {size : Nat} (less : size ≤ di.i_size)
    (new_size : di'.i_size = size) (bytes : ∀ off < size, byte_at fs read' di' off = byte_at fs read di off) :
    contents fs read' di' = (contents fs read di).take size := by
  have part := @contents_part fs read di 0 size
  rw [drop_zero,Nat.sub_zero,min_eq_left less] at part
  rw [part,contents,new_size]
  exact slice_congr fun k _ below => bytes k (by omega)

/-- There is space, the offset fits, and the new size is at least a block below 4 GiB. -/
def ready (fs : Fs) (s : System) : Op → Bool
  | .write src =>
    s.file.offset + src.length < 2 ^ 32 ∧ s.file.offset + src.length ≤ max_supported_file_blocks fs * fs.block_size ∧
      3 * touched fs s.file.offset src.length ≤ s.v.sb.s_free_blocks_count ∧ slot_for s.v s.file.ino
  | .read count => s.file.offset + count < 2 ^ 32
  | .lseek offset whence => (file_lseek s.file offset whence).1 < 2 ^ 32
  | .truncate length => length.toNat + fs.block_size - 1 < 2 ^ 32

theorem Effect.refl {s : System} (opened : Opened fs other F inode s) (offset : Nat) :
    Effect fs other F inode s.v s.file s.v { s.file with offset := offset } := by
  refine ⟨?_,rfl,rfl,rfl,opened.stored,fun _ _ => rfl,fun _ _ _ _ => rfl⟩
  grind [update_eq_self,Opened.files,Opened.own]
def Matches (fs : Fs) (other : Nat → Prop) (F : List Nat) (inode : Nat → Inode) (s : System) (op : Op) : Prop :=
  array_op s.file.rdonly (content fs s) op = ((file_op fs s op).1,content fs (file_op fs s op).2) ∧
    Effect fs other F inode s.v s.file (file_op fs s op).2.v (file_op fs s op).2.file

/-- The position that `ext2_file_lseek` is asked for. -/
def new_pos (file : File) (offset : Int) : Whence → Int
  | .SEEK_SET => offset
  | .SEEK_CUR => file.offset + offset
  | .SEEK_END => file.di.i_size + offset
theorem file_lseek_eq (file : File) (offset : Int) (whence : Whence) : file_lseek file offset whence =
    if new_pos file offset whence < 0 then (-EINVAL,file)
    else (new_pos file offset whence,{ file with offset := wrap32 (new_pos file offset whence).toNat }) := by
  cases whence <;> rfl

section
variable {s : System} (opened : Opened fs other F inode s) (pos : 0 < fs.block_size)
include opened pos

theorem write_matches (fits : ready fs s (.write src) = true) : Matches fs other F inode s (.write src) := by
  obtain ⟨small,within,enough,slot⟩ := of_decide_eq_true fits
  rw [(max_supported_eq opened.files.narrow).1] at within
  have unchanged : Effect fs other F inode s.v s.file s.v s.file := Effect.refl opened s.file.offset
  simp only [Matches,array_op,file_op,file_write,content,contents_length]
  by_cases rdonly : s.file.rdonly = true
  · rw [if_pos rdonly,if_pos rdonly]
    exact ⟨rfl,unchanged⟩
  rw [if_neg rdonly,if_neg rdonly]
  by_cases empty : src = []
  · rw [if_pos empty,if_pos empty]
    exact ⟨rfl,unchanged⟩
  rw [if_neg empty,if_neg empty]
  by_cases gap : s.file.di.i_size < s.file.offset
  · rw [if_pos gap,if_pos gap]
    exact ⟨rfl,unchanged⟩
  rw [if_neg gap,if_neg gap]
  obtain ⟨w,file',result,wrote⟩ := write_spec pos opened.files opened.member opened.own empty within small enough slot
  rw [result]
  refine ⟨?_,wrote.toEffect⟩
  rw [contents_replace (not_lt.mp gap) wrote.size wrote.bytes,wrote.offset]

/-- The ways out of `ext2_file_truncate_unlocked` for an open file. -/
theorem file_truncate_cases (sectors : fs.sectors_per_block ≠ 0) (length : Int) :
    length < 0 ∧ file_truncate fs s.v s.file length = (-EINVAL,s.v,s.file) ∨
    0 ≤ length ∧ (wrap32 length.toNat = s.file.di.i_size ∧ file_truncate fs s.v s.file length = (0,s.v,s.file) ∨
      s.file.di.i_size < wrap32 length.toNat ∧ file_truncate fs s.v s.file length = (-ENOSYS,s.v,s.file) ∨
      wrap32 length.toNat < s.file.di.i_size ∧ ∃ w file', file_truncate fs s.v s.file length = (0,w,file') ∧
        file'.di.i_size = wrap32 length.toNat ∧ (wrap32 length.toNat + fs.block_size - 1 < 2 ^ 32 →
          Truncated fs other F inode s.v s.file (wrap32 length.toNat) w file')) := by
  have dir : ¬ S_ISDIR s.file.di.i_mode = true := by simp [opened.not_dir]
  unfold file_truncate
  by_cases negative : length < 0
  · exact .inl ⟨negative,if_pos negative⟩
  rw [if_neg negative,if_neg dir]
  refine .inr ⟨not_lt.mp negative,?_⟩
  rcases lt_trichotomy (wrap32 length.toNat) s.file.di.i_size with shrinking | same | growing
  · refine .inr (.inr ⟨shrinking,?_⟩)
    rw [if_neg shrinking.ne,if_neg shrinking.not_gt]
    by_cases zero : wrap32 length.toNat = 0
    · obtain ⟨w,result,cut⟩ := empty_spec sectors opened.files opened.member opened.own opened.stored opened.not_dir
        opened.not_link
      simp only [if_pos zero,result]
      exact ⟨w,_,rfl,cut.size.trans zero.symm,fun _ => zero ▸ cut⟩
    have triple := opened.files.triple _ opened.member
    rw [opened.own] at triple
    obtain ⟨c,w,file',cutting,result,size,cut⟩ := cut_spec pos sectors opened.files opened.member opened.own
      (wrap32 length.toNat)
    simp only [if_neg zero,if_neg (not_not.mpr triple),cutting]
    exact ⟨w,file',result,size,cut⟩
  · exact .inl ⟨same,if_pos same⟩
  · exact .inr (.inl ⟨growing,by rw [if_neg growing.ne',if_pos growing]⟩)

theorem truncate_matches (sectors : fs.sectors_per_block ≠ 0) {length : Int}
    (fits : ready fs s (.truncate length) = true) : Matches fs other F inode s (.truncate length) := by
  have room := of_decide_eq_true fits
  have unchanged : Effect fs other F inode s.v s.file s.v s.file := Effect.refl opened s.file.offset
  have ways := file_truncate_cases opened pos sectors length
  rw [wrap32_of_lt (by omega)] at ways
  simp only [Matches,array_op,file_op,content,contents_length]
  rcases ways with ⟨negative,result⟩ | ⟨positive,⟨same,result⟩ | ⟨growing,result⟩ | ⟨shrinking,w,file',result,_,cut⟩⟩
  · rw [if_pos negative,result]
    exact ⟨rfl,unchanged⟩
  · rw [if_neg (by omega),if_pos (by omega),result]
    exact ⟨rfl,unchanged⟩
  · rw [if_neg (by omega),if_neg (by omega),if_pos (by omega),result]
    exact ⟨rfl,unchanged⟩
  · rw [if_neg (by omega),if_neg (by omega),if_neg (by omega),result]
    exact ⟨by rw [contents_cut shrinking.le (cut room).size (cut room).bytes,(cut room).offset],(cut room).toEffect⟩

theorem read_matches {count : Nat} (fits : ready fs s (.read count) = true) : Matches fs other F inode s
    (.read count) := by
  have read := file_read_spec pos s.v s.file (of_decide_eq_true fits)
  simp only [Matches,array_op,file_op,read,content]
  refine ⟨?_,Effect.refl opened _⟩
  simp [contents_length]

omit pos in
theorem lseek_matches {offset : Int} {whence : Whence} (fits : ready fs s (.lseek offset whence) = true) :
    Matches fs other F inode s (.lseek offset whence) := by
  have small := of_decide_eq_true fits
  have array_pos : array_op s.file.rdonly (content fs s) (.lseek offset whence) =
      if new_pos s.file offset whence < 0 then ((-EINVAL,[]),content fs s)
      else ((new_pos s.file offset whence,[]),⟨(content fs s).bytes,(new_pos s.file offset whence).toNat⟩) := by
    cases whence with
    | SEEK_SET | SEEK_CUR => rfl
    | SEEK_END =>
      simp only [array_op,content,contents_length]
      rfl
  simp only [Matches,file_op,file_lseek_eq,array_pos] at small ⊢
  by_cases negative : new_pos s.file offset whence < 0
  · rw [if_pos negative,if_pos negative]
    exact ⟨rfl,Effect.refl opened s.file.offset⟩
  rw [if_neg negative] at small ⊢
  rw [if_neg negative,wrap32_of_lt (by omega)]
  exact ⟨rfl,Effect.refl opened _⟩

theorem op_matches (sectors : fs.sectors_per_block ≠ 0) {op : Op} (fits : ready fs s op = true) :
    Matches fs other F inode s op := by
  cases op with
  | write src => exact write_matches opened pos fits
  | read count => exact read_matches opened pos fits
  | lseek offset whence => exact lseek_matches opened fits
  | truncate length => exact truncate_matches opened pos sectors fits

end

theorem Opened.after {s t : System} (opened : Opened fs other F inode s)
    (effect : Effect fs other F inode s.v s.file t.v t.file) :
    Opened fs other F (update inode s.file.ino t.file.di) t := by
  refine ⟨effect.files,?_,?_,?_,?_,?_⟩
  · rw [effect.ino,update_self]
  · rw [effect.ino]
    exact opened.member
  · rw [effect.ino]
    exact effect.stored
  · rw [S_ISDIR,effect.kind]
    exact opened.not_dir
  rw [S_ISLNK,effect.kind]
  exact opened.not_link

structure Label where
  op : Op
  result : Int × List UInt8
def Careful (fs : Fs) (s : System) (l : Label) (t : System) : Prop :=
  ready fs s l.op = true ∧ file_op fs s l.op = (l.result,t)
def ArrayStep (rdonly : Bool) (c : Content) (l : Label) (d : Content) : Prop := array_op rdonly c l.op = (l.result,d)

/-- Every run of the file is a run of the array of its bytes. -/
theorem files_are_arrays {first s : System} {labels : List Label} (pos : 0 < fs.block_size)
    (sectors : fs.sectors_per_block ≠ 0) (opened : Opened fs other F inode first) (run : Run (Careful fs) first labels s) :
    Run (ArrayStep first.file.rdonly) (content fs first) labels (content fs s) := by
  let R (s : System) (c : Content) : Prop :=
    s.file.rdonly = first.file.rdonly ∧ (∃ inode, Opened fs other F inode s) ∧ content fs s = c
  have kept : ∀ s l t c, R s c → Careful fs s l t → ∃ d, ArrayStep first.file.rdonly c l d ∧ R t d := by
    rintro s l t _ ⟨rdonly,⟨inode,opened⟩,rfl⟩ ⟨fits,call⟩
    obtain ⟨same,effect⟩ := op_matches opened pos sectors fits
    rw [call] at same effect
    rw [rdonly] at same
    exact ⟨content fs t,same,effect.rdonly.trans rdonly,⟨_,opened.after effect⟩,rfl⟩
  obtain ⟨d,same,_,_,rfl⟩ := run.simulate kept ⟨rfl,⟨inode,opened⟩,rfl⟩
  exact same

def sample_file : System :=
  let di := { Inode.zero with i_mode := 0x81a4 }
  ⟨{ sample_volume with
      store := { sample_volume.store with device := ⟨sample_blocks,fun ino => if ino = 2 then di else Inode.zero⟩ }
      pending := [none] },⟨2,di,0,false⟩⟩

theorem sample_file_opened : Opened sample_fs (fun n => block_used sample_fs sample_file.v n = true) [2]
    (fun _ => sample_file.file.di) sample_file := by
  have consistent : Consistent sample_fs sample_file.v := { sample_consistent with }
  exact ⟨empty_files consistent (nodup_singleton 2) (fun _ _ _ => rfl) (fun _ _ => rfl) (by decide),rfl,mem_singleton_self 2,
    Current.refl _,by decide,by decide⟩

def sample_labels : List Label :=
  [⟨.write [1,2,3],3,[]⟩,⟨.lseek (-2) .SEEK_END,1,[]⟩,⟨.read 5,2,[2,3]⟩,⟨.truncate 2,0,[]⟩,⟨.lseek 1 .SEEK_SET,1,[]⟩,
    ⟨.write [7,8,9],3,[]⟩,⟨.lseek 0 .SEEK_SET,0,[]⟩,⟨.read 9,4,[1,7,8,9]⟩,⟨.truncate 0,0,[]⟩]

theorem files_are_arrays_sample : ∃ s, Run (Careful sample_fs) sample_file sample_labels s ∧
    Run (ArrayStep false) ⟨[],0⟩ sample_labels (content sample_fs s) := by
  have found : (sample_labels.foldlM (fun (s : System) l =>
      if ready sample_fs s l.op ∧ (file_op sample_fs s l.op).1 = l.result then some (file_op sample_fs s l.op).2 else none)
      sample_file).any (fun _ => true) = true := by
    decide +kernel
  obtain ⟨s,run,_⟩ := Run.ends found
  have careful : Run (Careful sample_fs) sample_file sample_labels s := run.widen fun s l t taken => by
    obtain ⟨⟨fits,result⟩,same⟩ := Option.ite_none_right_eq_some.mp taken
    cases same
    exact ⟨fits,Prod.ext result rfl⟩
  exact ⟨s,careful,files_are_arrays (by decide) (by decide) sample_file_opened careful⟩

/-- A write behind the end is refused, and so is a larger size. -/
theorem no_sparse_files :
    ready sample_fs sample_file (.truncate 5) = true ∧ (file_op sample_fs sample_file (.truncate 5)).1 = (-ENOSYS,[]) ∧
    ready sample_fs (file_op sample_fs sample_file (.lseek 4 .SEEK_SET)).2 (.write [7]) = true ∧
    (file_op sample_fs (file_op sample_fs sample_file (.lseek 4 .SEEK_SET)).2 (.write [7])).1 = (-ENOSPC,[]) := by
  decide +kernel

/-! ### Mapping and allocating -/

/-- The blocks that a loop finds with one cursor. -/
def map_blocks (fs : Fs) (d : Store) (di : Inode) : Cursor → List Nat → List Nat
  | _, [] => []
  | cur, idx :: rest =>
    let found := map_block_cursor fs d di idx cur
    found.1 :: map_blocks fs d di found.2 rest

theorem map_blocks_eq {d : Store} {cur : Cursor} (current : BlockMap.Current d cur) (indices : List Nat) :
    map_blocks fs d di cur indices = indices.map (map_block fs d di) := by
  induction indices generalizing cur with
  | nil => rfl
  | cons idx rest ih =>
    obtain ⟨block,later⟩ := @map_block_cursor_spec fs _ _ current di idx
    rw [map_blocks,map_cons,map_block_eq,← block,ih later]

/-- A block that is found or allocated is mapped, no other block moves, and the file is
    charged for the blocks taken; a cursor finds what a fresh walk finds. -/
theorem get_or_alloc_block_exact :
    (∀ {fs other F v inode ino}, Files fs other F v inode → ino ∈ F → ∀ idx < max_blocks fs,
      let got := get_or_alloc_block_at fs v (inode ino) idx
      got.block ≠ 0 → map_block fs got.v.store got.di idx = got.block ∧
        (∀ j ≠ idx, map_block fs got.v.store got.di j = map_block fs v.store (inode ino) j) ∧
        ∃ new : List Nat, new.Nodup ∧ (∀ n ∈ new, FreeBlock fs v n) ∧
          (∀ n, OnVolume fs n → (block_used fs got.v n = true ↔ block_used fs v n = true ∨ n ∈ new)) ∧
          got.di.i_blocks = (inode ino).i_blocks + fs.sectors_per_block * new.length) ∧
    ∀ fs d di indices, map_blocks fs d di map_cursor_init indices = indices.map (map_block fs d di) := by
  refine ⟨?_,fun _ d _ => map_blocks_eq (current_init d)⟩
  intro fs other F v inode ino files member idx within got found
  obtain ⟨_,_,_,block,_,_,new,adds⟩ := get_or_alloc_block_at_spec files member within
  refine ⟨?_,fun j apart => ?_,new,adds.nodup,adds.free,adds.used,adds.charged⟩
  · rw [map_block_eq,block_at,if_pos within]
    exact block found
  rw [map_block_eq,map_block_eq,block_at,block_at]
  by_cases below : j < max_blocks fs
  · rw [if_pos below,if_pos below]
    exact adds.others _ (data_place_valid below) (data_place_not_table j) fun same => apart (data_place_injective same)
  · rw [if_neg below,if_neg below]

theorem get_or_alloc_block_exact_single : let got := get_or_alloc_block_at sample_fs sample_file.v sample_file.file.di 12
    got.block ≠ 0 ∧ map_block sample_fs got.v.store got.di 12 = got.block :=
  have found : (get_or_alloc_block_at sample_fs sample_file.v sample_file.file.di 12).block ≠ 0 := by decide +kernel
  ⟨found,(get_or_alloc_block_exact.1 sample_file_opened.files (mem_singleton_self 2) 12 (by decide) found).1⟩

/-- With one table as single- and double-indirect one, a block of the second moves one of the first. -/
theorem shared_table_moves_block : let di := { Inode.zero with i_block := fun i => if i = 12 ∨ i = 13 then 5 else 0 }
    let idx := 12 + ptrs_per_block sample_fs
    let got := get_or_alloc_block_at sample_fs sample_file.v di idx
    got.block ≠ 0 ∧ map_block sample_fs sample_file.v.store di 12 = 0 ∧ map_block sample_fs got.v.store got.di 12 ≠ 0 := by
  decide +kernel

/-! ### The array of blocks -/

end ArmOS.FileArrays

