import ArmOS.FileOps
import ArmOS.FileSpace

/-!
Reading and writing a file as an array of bytes. The loop of `read` returns the
bytes of the array from the offset on, by single blocks or by runs of blocks that
follow each other on the device; the loop of `write` replaces them.
-/
namespace ArmOS.FileData
open Bytes Disk Volumes Allocator FileMap BlockMap Space FileSpace FileOps Function List Nat Prod
open Words (wrap32)

section
variable (fs : Fs)

/-- The byte of a file at an offset. -/
def byte_at (read : Nat → Buffer) (di : Inode) (off : Nat) : UInt8 :=
  block_data fs read di (off / fs.block_size) (off % fs.block_size)
def slice (read : Nat → Buffer) (di : Inode) (off n : Nat) : List UInt8 :=
  (List.range n).map fun k => byte_at fs read di (off + k)
def contents (read : Nat → Buffer) (di : Inode) : List UInt8 := slice fs read di 0 di.i_size

end

variable {fs : Fs} {read : Nat → Buffer} {di : Inode}

@[simp] theorem slice_length (off n : Nat) : (slice fs read di off n).length = n := by simp [slice]
@[simp] theorem slice_zero (off : Nat) : slice fs read di off 0 = [] := rfl

theorem slice_append (off n m : Nat) :
    slice fs read di off (n + m) = slice fs read di off n ++ slice fs read di (off + n) m := by
  simp only [slice,range_add,map_append,List.map_map]
  refine congrArg _ (map_congr_left fun k _ => ?_)
  rw [Function.comp_apply,add_assoc]

variable {off n : Nat}

theorem slice_congr {read' : Nat → Buffer} {di' : Inode}
    (same : ∀ k, off ≤ k → k < off + n → byte_at fs read' di' k = byte_at fs read di k) :
    slice fs read' di' off n = slice fs read di off n := by
  refine map_congr_left fun k member => ?_
  have below := mem_range.mp member
  exact same (off + k) (by omega) (by omega)

theorem contents_part (off n : Nat) : ((contents fs read di).drop off).take n =
    slice fs read di off (min n (di.i_size - off)) := by
  refine ext_getElem (by simp [contents]) fun k first second => ?_
  simp [contents,slice]

theorem same_block (pos : 0 < fs.block_size) {off k : Nat} (within : off % fs.block_size + k < fs.block_size) :
    (off + k) / fs.block_size = off / fs.block_size ∧ (off + k) % fs.block_size = off % fs.block_size + k := by
  refine (Nat.div_mod_unique pos).mpr ⟨?_,within⟩
  have split := Nat.mod_add_div off fs.block_size
  omega

theorem slice_block (pos : 0 < fs.block_size) (within : off % fs.block_size + n ≤ fs.block_size) :
    slice fs read di off n =
      bytes (block_data fs read di (off / fs.block_size)) (off % fs.block_size) n := by
  refine map_congr_left fun k member => ?_
  have below := mem_range.mp member
  obtain ⟨block,place⟩ := same_block pos (show off % fs.block_size + k < fs.block_size by omega)
  rw [byte_at,block,place]

/-! ### Reading -/

section
variable {d : Store} {cur : Cursor}

/-- The blocks of a run follow each other on the device. -/
theorem extend_run_spec {blk blk_idx : Nat} (turns : Nat) {run : Nat} (current : Current d cur)
    (joined : ∀ k < run, block_at fs d.read di (blk_idx + k) = blk + k) :
    run ≤ (extend_run fs d di blk blk_idx turns run cur).1 ∧
      (extend_run fs d di blk blk_idx turns run cur).1 ≤ run + turns ∧
      (∀ k < (extend_run fs d di blk blk_idx turns run cur).1, block_at fs d.read di (blk_idx + k) = blk + k) ∧
      Current d (extend_run fs d di blk blk_idx turns run cur).2 := by
  induction turns generalizing run cur with
  | zero => exact ⟨le_rfl,le_rfl,joined,current⟩
  | succ turns ih =>
    obtain ⟨next,later⟩ := @map_block_cursor_spec fs _ _ current di (blk_idx + run)
    rcases mapped : map_block_cursor fs d di (blk_idx + run) cur with ⟨block,cur'⟩
    rw [mapped] at next later
    dsimp only at next later
    simp only [extend_run,mapped]
    grind

theorem slice_run (pos : 0 < fs.block_size) {blk off run : Nat} (nonzero : blk ≠ 0) (aligned : off % fs.block_size = 0)
    (joined : ∀ k < run, block_at fs d.read di (off / fs.block_size + k) = blk + k) :
    read_contiguous_blocks fs d blk run = slice fs d.read di off (run * fs.block_size) := by
  induction run with
  | zero => simp [read_contiguous_blocks]
  | succ run ih =>
    have before := ih fun k below => joined k (by omega)
    have last := joined run (by omega)
    have block : block_data fs d.read di (off / fs.block_size + run) = d.read (blk + run) := by
      rw [block_data,last,if_neg (by omega)]
    have place : (off + run * fs.block_size) / fs.block_size = off / fs.block_size + run :=
      add_mul_div_right _ _ pos
    have start : (off + run * fs.block_size) % fs.block_size = 0 := by
      rw [add_mul_mod_self_right,aligned]
    have one : slice fs d.read di (off + run * fs.block_size) fs.block_size = bytes (d.read (blk + run)) 0 fs.block_size := by
      rw [slice_block pos (by omega),place,start,block]
    rw [succ_mul,slice_append,← before,one]
    simp [read_contiguous_blocks,range_succ]

theorem wrap32_small (small : n < 2 ^ 32) : wrap32 n = n := mod_eq_of_lt small

theorem copied_chunk (pos : 0 < fs.block_size) (within : off % fs.block_size + n ≤ fs.block_size) :
    (if block_at fs d.read di (off / fs.block_size) = 0 then replicate n 0
      else bytes (d.read (block_at fs d.read di (off / fs.block_size))) (off % fs.block_size) n) =
      slice fs d.read di off n := by
  rw [slice_block pos within,block_data]
  split
  · simp [bytes,zeroes]
  · rfl

theorem read_loop_spec (pos : 0 < fs.block_size) (turns : Nat) {offset count : Nat}
    (current : Current d cur) (enough : count ≤ turns) (small : offset + count < 2 ^ 32) :
    read_loop fs d di turns offset count cur = (slice fs d.read di offset count,offset + count) := by
  induction turns generalizing offset count cur with
  | zero =>
    have zero : count = 0 := by omega
    subst zero
    rfl
  | succ turns ih =>
    simp only [read_loop]
    by_cases done : count = 0
    · subst done
      simp
    rw [if_neg done]
    obtain ⟨block,later⟩ := @map_block_cursor_spec fs _ _ current di (offset / fs.block_size)
    rcases mapped : map_block_cursor fs d di (offset / fs.block_size) cur with ⟨blk,cur'⟩
    rw [mapped] at block later
    have inside := Nat.mod_lt offset pos
    dsimp only at block later ⊢
    generalize chosen : (if blk ≠ 0 ∧ offset % fs.block_size = 0 ∧
        min (fs.block_size - offset % fs.block_size) count = fs.block_size then
          extend_run fs d di blk (offset / fs.block_size) (min (count / fs.block_size) EXT2_IO_MAX_BLOCKS - 1) 1 cur'
        else (1,cur')) = found
    obtain ⟨run,cur''⟩ := found
    dsimp only
    by_cases long : 1 < run
    · -- a run of whole blocks, read at once
      rw [if_pos long]
      split at chosen
      · rename_i whole
        obtain ⟨nonzero,aligned,_⟩ := whole
        have first : ∀ k < 1, block_at fs d.read di (offset / fs.block_size + k) = blk + k := by
          intro k below
          have zero : k = 0 := by omega
          subst zero
          exact block.symm
        obtain ⟨_,most,joined,fine⟩ := extend_run_spec (min (count / fs.block_size) EXT2_IO_MAX_BLOCKS - 1) later first
        rw [chosen] at most joined fine
        have fits : run * fs.block_size ≤ count := by
          have blocks : run ≤ count / fs.block_size := by dsimp only at most; omega
          exact (Nat.mul_le_mul_right _ blocks).trans (Nat.div_mul_le_self _ _)
        have taken : 0 < run * fs.block_size := Nat.mul_pos (by omega) pos
        rw [wrap32_small (by omega),ih fine (by omega) (by omega),slice_run pos nonzero aligned joined]
        refine Prod.ext ?_ ?_
        · rw [← slice_append,Nat.add_sub_cancel' fits]
        dsimp only
        omega
      cases chosen
      omega
    rw [if_neg long]
    have fine : Current d cur'' := by
      split at chosen
      · have first : ∀ k < 1, block_at fs d.read di (offset / fs.block_size + k) = blk + k := by
          intro k below
          have zero : k = 0 := by omega
          subst zero
          exact block.symm
        have run_spec := extend_run_spec (min (count / fs.block_size) EXT2_IO_MAX_BLOCKS - 1) later first
        rw [chosen] at run_spec
        exact run_spec.2.2.2
      cases chosen
      exact later
    rw [wrap32_small (by omega),ih fine (by omega) (by omega),block,copied_chunk pos (by omega)]
    refine Prod.ext ?_ ?_
    · rw [← slice_append,Nat.add_sub_cancel' (by omega)]
    dsimp only
    omega

end

/-- `read` returns the bytes from the offset on. -/
theorem file_read_spec (pos : 0 < fs.block_size) (v : Volume) (file : File) {count : Nat}
    (small : file.offset + count < 2 ^ 32) :
    file_read fs v file count =
      (((contents fs v.store.read file.di).drop file.offset).take count,
        { file with offset := file.offset + min count (file.di.i_size - file.offset) }) := by
  simp only [file_read]
  by_cases past : file.di.i_size ≤ file.offset
  · rw [if_pos past,contents_part,Nat.sub_eq_zero_of_le past]
    simp
  have count_is : (if file.di.i_size < wrap32 (file.offset + count) then file.di.i_size - file.offset else count) =
      min count (file.di.i_size - file.offset) := by
    rw [wrap32_small small]
    split <;> omega
  rw [if_neg past,count_is,read_loop_spec pos _ (current_init _) le_rfl (by omega),contents_part]

/-! ### Writing -/

section
variable {other : Nat → Prop} {F : List Nat} {v w : Volume} {inode : Nat → Inode} {ino : Nat}

/-- Writing a data block changes one file's contents only. -/
theorem write_data_spec (files : Files fs other F v inode) (member : ino ∈ F) {idx : Nat} (within : idx < max_blocks fs)
    (present : pointers v.store.read inode (ino,data_place fs idx) ≠ 0) {content : Buffer}
    (wrote : Wrote fs v w (pointers v.store.read inode (ino,data_place fs idx)) content) :
    Files fs other F w inode ∧
      block_data fs w.store.read (inode ino) idx = content ∧
      ∀ x ∈ F, ∀ j, (x,j) ≠ (ino,idx) → block_data fs w.store.read (inode x) j = block_data fs v.store.read (inode x) j := by
  have key : (ino,data_place fs idx) ∈ keys fs F := mem_keys.mpr ⟨member,data_place_valid within⟩
  have elsewhere : ∀ k ∈ keys fs F, k ≠ (ino,data_place fs idx) → pointers v.store.read inode k ≠ 0 →
      w.store.read (pointers v.store.read inode k) = v.store.read (pointers v.store.read inode k) := by
    intro k known apart there
    rw [wrote.read,update_of_ne fun same => apart (files.injective known key there same)]
  have kept : ∀ k ∈ keys fs F, pointers w.store.read inode k = pointers v.store.read inode k := by
    refine fun k known => pointers_congr (fun j inside table there => elsewhere j inside ?_ there) known
    rintro rfl
    exact data_place_not_table idx table
  refine ⟨files.keep wrote.keeps wrote.used kept (fun _ _ => rfl) (fun _ _ => rfl),?_,?_⟩
  · have now : at_place w.store.read (inode ino).i_block (data_place fs idx) = _ := kept _ key
    simp only [block_data,block_at,if_pos within,now]
    rw [if_neg present,wrote.read,update_self]
  intro x known j apart
  refine block_data_congr fun below => ?_
  have there : (x,data_place fs j) ∈ keys fs F := mem_keys.mpr ⟨known,data_place_valid below⟩
  refine ⟨kept _ there,elsewhere _ there fun same => apart ?_⟩
  obtain ⟨first,second⟩ := mk.inj same
  rw [first,data_place_injective second]

end

/-- The bytes that a turn of the loop of `ext2_file_write` takes. -/
def chunk_of (fs : Fs) (w : Writing) (src : List UInt8) : Nat :=
  min (fs.block_size - w.offset % fs.block_size) src.length
theorem length_chunk (fs : Fs) (w : Writing) (src : List UInt8) :
    (src.take (chunk_of fs w src)).length = chunk_of fs w src := by
  rw [length_take]
  exact min_eq_left (min_le_right _ _)

/-- A turn of the loop of `ext2_file_write` that got a block. -/
def write_chunk (fs : Fs) (w : Writing) (src : List UInt8) : Writing :=
  let got := get_or_alloc_block_at fs w.v w.di (w.offset / fs.block_size)
  let blkbuf := if chunk_of fs w src = fs.block_size ∨ got.allocated then zeroes else got.v.store.read got.block
  { v := { got.v with
      store := got.v.store.write_data_block got.block
        (put_bytes blkbuf (w.offset % fs.block_size) (src.take (chunk_of fs w src))) }
    di := got.di
    offset := wrap32 (w.offset + chunk_of fs w src)
    total := w.total + chunk_of fs w src }

/-- The block that a turn writes; old bytes are read where some remain. -/
theorem put_chunk {w : Writing} {src : List UInt8} {allocated : Bool} {old : Buffer}
    (fresh : allocated = true → old = zeroes) {i : Nat} (below : i < fs.block_size) :
    put_bytes (if chunk_of fs w src = fs.block_size ∨ allocated then zeroes else old) (w.offset % fs.block_size)
        (src.take (chunk_of fs w src)) i =
      if w.offset % fs.block_size ≤ i ∧ i < w.offset % fs.block_size + chunk_of fs w src then
        (src.take (chunk_of fs w src)).getD (i - w.offset % fs.block_size) 0
      else old i := by
  have taken := length_chunk fs w src
  have chunk_le : chunk_of fs w src ≤ fs.block_size - w.offset % fs.block_size := min_le_left _ _
  rw [put_bytes,taken]
  split
  · rfl
  rename_i outside
  split
  · rename_i clean
    have new : allocated = true := clean.resolve_left (by omega)
    rw [fresh new]
  · rfl

/-- `r` is `w` with `src` written; other files stay. -/
structure Written (fs : Fs) (other : Nat → Prop) (F : List Nat) (ino : Nat) (inode : Nat → Inode) (w : Writing)
    (src : List UInt8) (r : Writing) : Prop where
  files : Files fs other F r.v (update inode ino r.di)
  keeps : Keeps fs w.v r.v
  mode : r.di.i_mode = w.di.i_mode
  size : r.di.i_size = w.di.i_size
  offset : r.offset = w.offset + src.length
  total : r.total = w.total + src.length
  bytes : ∀ off, byte_at fs r.v.store.read r.di off =
    if w.offset ≤ off ∧ off < w.offset + src.length then src.getD (off - w.offset) 0
    else byte_at fs w.v.store.read w.di off
  others : ∀ x ∈ F, x ≠ ino → ∀ off, byte_at fs r.v.store.read (inode x) off = byte_at fs w.v.store.read (inode x) off

section
variable {other : Nat → Prop} {F : List Nat} {inode : Nat → Inode} {ino : Nat} {w r : Writing}

theorem Written.nil (files : Files fs other F w.v (update inode ino w.di)) : Written fs other F ino inode w [] w := by
  refine ⟨files,Keeps.refl files.consistent,rfl,rfl,rfl,rfl,fun off => ?_,fun _ _ _ _ => rfl⟩
  rw [if_neg]
  simp

theorem Written.append {u : Writing} {first second : List UInt8} (before : Written fs other F ino inode w first u)
    (after : Written fs other F ino inode u second r) : Written fs other F ino inode w (first ++ second) r := by
  refine ⟨after.files,before.keeps.trans after.keeps,after.mode.trans before.mode,after.size.trans before.size,
    ?_,?_,fun off => ?_,fun x known apart off => ?_⟩
  · rw [after.offset,before.offset,length_append,add_assoc]
  · rw [after.total,before.total,length_append,add_assoc]
  · rw [after.bytes,before.bytes,before.offset,length_append]
    by_cases low : off < w.offset
    · rw [if_neg (by omega),if_neg (by omega),if_neg (by omega)]
    by_cases early : off < w.offset + first.length
    · rw [if_neg (by omega),if_pos (by omega),if_pos (by omega),getD_append _ _ _ _ (by omega)]
    · grind
  · rw [after.others x known apart off,before.others x known apart off]

theorem write_chunk_spec (pos : 0 < fs.block_size) (member : ino ∈ F) {src : List UInt8} (more : src ≠ [])
    (files : Files fs other F w.v (update inode ino w.di))
    (within : w.offset + src.length ≤ max_blocks fs * fs.block_size) (small : w.offset + src.length < 2 ^ 32)
    (enough : 3 ≤ w.v.sb.s_free_blocks_count) :
    (get_or_alloc_block_at fs w.v w.di (w.offset / fs.block_size)).block ≠ 0 ∧
      Written fs other F ino inode w (src.take (chunk_of fs w src)) (write_chunk fs w src) ∧
      w.v.sb.s_free_blocks_count ≤ (write_chunk fs w src).v.sb.s_free_blocks_count + 3 := by
  have length : 0 < src.length := length_pos_iff.mpr more
  have inside := mod_lt w.offset pos
  have chunk_le : chunk_of fs w src ≤ src.length := min_le_right _ _
  have chunk_in : w.offset % fs.block_size + chunk_of fs w src ≤ fs.block_size := by
    rw [chunk_of]
    omega
  have taken := length_chunk fs w src
  have below : w.offset / fs.block_size < max_blocks fs := by
    rw [div_lt_iff_lt_mul pos]
    omega
  have spec := get_or_alloc_block_at_spec files member below
  rw [update_self] at spec
  rcases called : get_or_alloc_block_at fs w.v w.di (w.offset / fs.block_size) with ⟨block,allocated,di,v⟩
  rw [called] at spec
  obtain ⟨grows,mode,size,here,fresh,found⟩ := spec
  rw [update_idem] at grows
  rw [update_self] at mode size
  dsimp only at grows mode size here fresh found
  have nonzero := found enough
  have place : pointers v.store.read (update inode ino di) (ino,data_place fs (w.offset / fs.block_size)) =
      block := by
    simpa [pointers] using here nonzero
  have allowed : ¬ Reserved fs v block := by
    have owned := grows.files.owned (mem_keys.mpr ⟨member,data_place_valid below⟩) (place ▸ nonzero)
    rw [place] at owned
    exact owned.2.1
  have overlay := fun i => @put_chunk fs w src allocated (v.store.read block) (fresh nonzero) i
  have state : write_chunk fs w src =
      { v := { v with
          store := v.store.write_data_block block
            (put_bytes (if chunk_of fs w src = fs.block_size ∨ allocated then zeroes else v.store.read block)
              (w.offset % fs.block_size) (src.take (chunk_of fs w src))) }
        di := di
        offset := w.offset + chunk_of fs w src
        total := w.total + chunk_of fs w src } := by
    simp only [write_chunk,called]
    rw [wrap32_small (by omega)]
  rw [state]
  generalize put_bytes (if chunk_of fs w src = fs.block_size ∨ allocated then zeroes else v.store.read block)
    (w.offset % fs.block_size) (src.take (chunk_of fs w src)) = written at overlay
  have wrote := wrote_data_block grows.files.consistent allowed written
  rw [place.symm] at wrote
  obtain ⟨files',content,elsewhere⟩ := write_data_spec grows.files member below (place ▸ nonzero) wrote
  rw [place] at files' content elsewhere wrote
  rw [update_self] at content
  have block_before : v.store.read block = block_data fs w.v.store.read w.di (w.offset / fs.block_size) := by
    have same := grows.data ino member (w.offset / fs.block_size)
    rw [update_self,update_self] at same
    rw [← same,block_data,block_at,if_pos below,here nonzero,if_neg nonzero]
  refine ⟨nonzero,⟨files',grows.keeps.trans wrote.keeps,mode,size,?_,?_,fun off => ?_,fun x known apart off => ?_⟩,?_⟩
  · rw [taken]
  · rw [taken]
  · rw [taken]
    dsimp only
    by_cases same : off / fs.block_size = w.offset / fs.block_size
    · have low := mod_lt off pos
      have split := div_add_mod off fs.block_size
      have split' := div_add_mod w.offset fs.block_size
      rw [byte_at,same,content,overlay _ low,block_before,byte_at,same]
      rw [same] at split
      by_cases in_range : w.offset ≤ off ∧ off < w.offset + chunk_of fs w src
      · rw [if_pos in_range,if_pos (by omega)]
        congr 1
        omega
      · rw [if_neg in_range,if_neg (by omega)]
    have outside : ¬ (w.offset ≤ off ∧ off < w.offset + chunk_of fs w src) := by
      rintro ⟨low,high⟩
      have near := same_block pos (show w.offset % fs.block_size + (off - w.offset) < fs.block_size by omega)
      rw [Nat.add_sub_cancel' low] at near
      exact same near.1
    have kept := elsewhere ino member (off / fs.block_size) (fun equal => same (congrArg snd equal))
    have before := grows.data ino member (off / fs.block_size)
    rw [update_self] at kept before
    rw [update_self] at before
    rw [if_neg outside,byte_at,kept,before,byte_at]
  · have kept := elsewhere x known (off / fs.block_size) (fun equal => apart (congrArg fst equal))
    have before := grows.data x known (off / fs.block_size)
    rw [update_of_ne apart] at kept before
    rw [update_of_ne apart] at before
    dsimp only
    rw [byte_at,kept,before,byte_at]
  have left := grows.free
  have free := wrote.free
  dsimp only at left free ⊢
  omega

/-- The number of blocks that `n` bytes from an offset on lie in. -/
def touched (fs : Fs) (off n : Nat) : Nat :=
  if n = 0 then 0 else (off % fs.block_size + n + fs.block_size - 1) / fs.block_size

theorem touched_chunk (pos : 0 < fs.block_size) (more : n ≠ 0) :
    touched fs (off + min (fs.block_size - off % fs.block_size) n) (n - min (fs.block_size - off % fs.block_size) n) + 1 ≤
      touched fs off n := by
  have inside := mod_lt off pos
  have one : 1 ≤ (off % fs.block_size + n + fs.block_size - 1) / fs.block_size :=
    (one_le_div_iff pos).mpr (by omega)
  simp only [touched,if_neg more]
  by_cases last : n ≤ fs.block_size - off % fs.block_size
  · simp [min_eq_right last,one]
  have left : ¬ n - (fs.block_size - off % fs.block_size) = 0 := by omega
  have next : off + (fs.block_size - off % fs.block_size) = fs.block_size * (off / fs.block_size + 1) := by
    have split := div_add_mod off fs.block_size
    rw [mul_add,mul_one]
    omega
  have rest : off % fs.block_size + n + fs.block_size - 1 =
      n - (fs.block_size - off % fs.block_size) + fs.block_size - 1 + fs.block_size := by omega
  rw [min_eq_left (by omega),if_neg left,next,mul_mod_right,rest,add_div_right _ pos,zero_add]

theorem write_loop_spec (pos : 0 < fs.block_size) (member : ino ∈ F) (turns : Nat) {src : List UInt8}
    (long : src.length ≤ turns) (files : Files fs other F w.v (update inode ino w.di))
    (within : w.offset + src.length ≤ max_blocks fs * fs.block_size) (small : w.offset + src.length < 2 ^ 32)
    (enough : 3 * touched fs w.offset src.length ≤ w.v.sb.s_free_blocks_count) :
    Written fs other F ino inode w src (write_loop fs turns w src) := by
  induction turns generalizing w src with
  | zero =>
    have empty : src = [] := eq_nil_of_length_eq_zero (by omega)
    subst empty
    exact Written.nil files
  | succ turns ih =>
    by_cases done : src = []
    · subst done
      simp only [write_loop,if_true]
      exact Written.nil files
    have length : 0 < src.length := length_pos_iff.mpr done
    have fewer : touched fs (w.offset + chunk_of fs w src) (src.length - chunk_of fs w src) + 1 ≤
        touched fs w.offset src.length := touched_chunk pos (by omega)
    obtain ⟨got,written,free⟩ := write_chunk_spec pos member done files within small (by omega)
    have offset := written.offset
    have chunk_pos : 0 < chunk_of fs w src := by
      have inside := mod_lt w.offset pos
      rw [chunk_of]
      omega
    have chunk_le : chunk_of fs w src ≤ src.length := min_le_right _ _
    rw [length_chunk] at offset
    have dropped : (src.drop (chunk_of fs w src)).length = src.length - chunk_of fs w src := length_drop
    have short : (src.drop (chunk_of fs w src)).length ≤ turns := by omega
    have rest := ih short written.files (by omega) (by omega) (by rw [offset,dropped]; omega)
    simp only [write_loop,if_neg done,if_neg got]
    have all := written.append rest
    rw [take_append_drop] at all
    exact all

end

end ArmOS.FileData

