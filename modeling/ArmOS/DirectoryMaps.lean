import ArmOS.Directories

/-!
A directory is a map from names to inodes: its records tile its blocks, a lookup
finds what the map gives, and reading lists every entry once, below 4 GiB, with
blocks below 64 KiB and names of at most 255 bytes.
-/
namespace ArmOS.DirectoryMaps
open Bytes Disk Volumes Allocator FileMap BlockMap FileSpace FileOps DirRecords Directories Words Runs Function List Nat
open Prod (fst)

/-- A block size that `ext2_mount` computes and `rec_len` holds. -/
def Sized (fs : Fs) : Prop := ∃ k < 6, fs.block_size = 1024 * 2 ^ k

theorem sized {fs : Fs} (formatted : ∃ k, fs.block_size = 1024 * 2 ^ k) (small : fs.block_size < 2 ^ 16) : Sized fs := by
  obtain ⟨k,size⟩ := formatted
  refine ⟨k,?_,size⟩
  by_contra large
  have more : 2 ^ 6 ≤ 2 ^ k := Nat.pow_le_pow_right (by decide) (by omega)
  omega

theorem Sized.max_supported {fs : Fs} (sized : Sized fs) : max_supported_file_blocks fs = max_blocks fs := by
  obtain ⟨k,below,size⟩ := sized
  apply (FileCuts.max_supported_eq _).1
  rw [size]
  interval_cases k <;> decide

theorem Sized.facts {fs : Fs} (sized : Sized fs) :
    1024 ≤ fs.block_size ∧ fs.block_size < 2 ^ 16 ∧ 4 ∣ fs.block_size ∧ fs.block_size ∣ 2 ^ 32 := by
  obtain ⟨k,below,size⟩ := sized
  rw [size]
  interval_cases k <;> decide

/-! ### What a directory means -/

/-- A directory of `n` blocks with records at `offs`. -/
structure Formed (fs : Fs) (read : Nat → Buffer) (di : Inode) (n : Nat) (offs : Nat → List Nat) : Prop where
  mode : S_ISDIR di.i_mode = true
  size : di.i_size = n * fs.block_size
  count : n ≤ max_blocks fs
  small : n * fs.block_size < 2 ^ 32
  tiled : ∀ idx < n, Tiled fs.block_size (block_data fs read di idx) 0 (offs idx)
  beyond : ∀ idx, n ≤ idx → block_data fs read di idx = zeroes

/-- The entries of the blocks of a directory from one on. -/
def entries_from (fs : Fs) (read : Nat → Buffer) (di : Inode) (offs : Nat → List Nat) (idx count : Nat) :
    List (List UInt8 × Nat) :=
  (List.range' idx count).flatMap fun idx => live (block_data fs read di idx) (offs idx)

variable {fs : Fs} {F : List Nat} {v w : Volume} {di : Inode} {n : Nat} {offs : Nat → List Nat} {name : List UInt8}
variable {b : Buffer}

theorem tiled_nonzero (sized : Sized fs) {offs : List Nat} (tiled : Tiled fs.block_size b 0 offs) : b ≠ zeroes := by
  obtain ⟨large,_⟩ := sized.facts
  rintro rfl
  generalize stop : fs.block_size = size at tiled
  generalize start : 0 = off at tiled
  cases tiled with
  | stop => omega
  | record long =>
    unfold DIR_ENTRY_SIZE de_rec_len at long
    rw [load_zeroes] at long
    omega

variable {read : Nat → Buffer}

theorem Formed.present (formed : Formed fs read di n offs) (sized : Sized fs) {idx : Nat}
    (below : idx < n) : block_at fs read di idx ≠ 0 ∧ read (block_at fs read di idx) = block_data fs read di idx := by
  have there : block_at fs read di idx ≠ 0 := by
    intro hole
    refine tiled_nonzero sized (formed.tiled idx below) ?_
    rw [block_data,if_pos hole]
  exact ⟨there,by rw [block_data,if_neg there]⟩

variable {α : Type}

theorem Formed.scan (formed : Formed fs read di n offs) {idx : Nat} (below : idx < n) (visit : Nat → Option α) :
    scan_block fs (block_data fs read di idx) visit = (offs idx).findSome? visit := by
  have tiled := formed.tiled idx below
  have length := tiled.length
  unfold DIR_ENTRY_SIZE at length
  exact scan_tiled tiled (by omega) visit

theorem scan_zeroes (visit : Nat → Option α) : scan_block fs zeroes visit = none := by
  unfold scan_block
  cases fs.block_size with
  | zero => rfl
  | succ turns =>
    rw [scan]
    split
    · rfl
    have none_there : de_rec_len zeroes 0 = 0 := load_zeroes 2 _
    rw [if_pos none_there]

/-! ### Looking a name up -/

variable {turns idx : Nat}

theorem Formed.lookup_beyond (formed : Formed fs v.store.read di n offs) (past : n ≤ idx) :
    lookup_blocks fs v di name turns idx = none := by
  induction turns generalizing idx with
  | zero => rfl
  | succ turns ih =>
    have data := formed.beyond idx past
    simp only [lookup_blocks,map_block_eq]
    by_cases hole : block_at fs v.store.read di idx = 0
    · rw [if_pos hole]
    rw [block_data,if_neg hole] at data
    rw [if_neg hole,data,scan_zeroes]
    exact ih (by omega)

theorem Formed.lookup_blocks (formed : Formed fs v.store.read di n offs) (sized : Sized fs) (short : name.length < 256)
    {count turns idx : Nat} (rest : idx + count = n) (enough : count ≤ turns) :
    lookup_blocks fs v di name turns idx = (entries_from fs v.store.read di offs idx count).lookup name := by
  induction count generalizing turns idx with
  | zero => exact formed.lookup_beyond (by omega)
  | succ count ih =>
    cases turns with
    | zero => omega
    | succ turns =>
      obtain ⟨there,content⟩ := formed.present sized (show idx < n by omega)
      simp only [Directories.lookup_blocks,map_block_eq]
      rw [if_neg there,content,formed.scan (by omega),findSome_find_at short,ih (by omega) (by omega)]
      rw [entries_from,entries_from,range'_succ,flatMap_cons,lookup_append]
      rcases (live (block_data fs v.store.read di idx) (offs idx)).lookup name with _ | ino
      · rfl
      · rfl

variable {dir : Nat}

theorem Formed.lookup (formed : Formed fs v.store.read (read_disk_inode v dir) n offs) (sized : Sized fs)
    (short : name.length < 256) : inode_lookup fs v dir name =
      (entries_from fs v.store.read (read_disk_inode v dir) offs 0 n).lookup name := by
  rw [inode_lookup,sized.max_supported]
  exact formed.lookup_blocks sized short (zero_add n) formed.count

/-! ### Changing entries -/

/-- A list with one entry more. -/
def Inserted {α : Type} (e : α) (l l' : List α) : Prop := ∃ before after, l = before ++ after ∧ l' = before ++ e :: after

variable {l l' : List (List UInt8 × Nat)} {e : List UInt8 × Nat}

theorem Inserted.lookup (inserted : Inserted e l l')
    (nodup : (l'.map fst).Nodup) (name : List UInt8) : l'.lookup name = if name = e.1 then some e.2 else l.lookup name := by
  obtain ⟨before,after,rfl,rfl⟩ := inserted
  rw [map_append,map_cons] at nodup
  have fresh : e.1 ∉ before.map fst := by
    intro there
    exact disjoint_of_nodup_append nodup there mem_cons_self
  have missing : before.lookup e.1 = none := by
    rw [lookup_eq_none_iff]
    rintro ⟨other,ino⟩ there
    have apart : e.1 ≠ other := fun same => fresh (mem_map.mpr ⟨_,there,same.symm⟩)
    simpa using apart
  rw [lookup_append,lookup_append,lookup_cons]
  by_cases same : name = e.1
  · subst same
    simp [missing]
  have apart : (name == e.1) = false := by simpa using same
  simp only [apart,if_neg same]

theorem Inserted.nodup (inserted : Inserted e l l') :
    (l'.map fst).Nodup ↔ (∀ x ∈ l, x.1 ≠ e.1) ∧ (l.map fst).Nodup := by
  obtain ⟨before,after,rfl,rfl⟩ := inserted
  rw [map_append,map_cons,nodup_middle,nodup_cons,← map_append]
  refine and_congr_left fun _ => ?_
  simp only [mem_map,not_exists,not_and]

theorem inserted_flatMap {e : α} {f g : Nat → List α} (below : idx < n)
    (others : ∀ j ≠ idx, g j = f j) (inserted : Inserted e (f idx) (g idx)) :
    Inserted e ((range' 0 n).flatMap f) ((range' 0 n).flatMap g) := by
  obtain ⟨before,after,old,new⟩ := inserted
  have parts : range' 0 n = range' 0 idx ++ idx :: range' (idx + 1) (n - idx - 1) := by
    have whole : n = idx + (n - idx - 1 + 1) := by omega
    rw [← range'_succ]
    conv_lhs => rw [whole,← range'_append_1]
    rw [zero_add]
  have first : (range' 0 idx).flatMap g = (range' 0 idx).flatMap f := by
    refine flatMap_congr fun j there => others j ?_
    have range := mem_range'_1.mp there
    omega
  have last : (range' (idx + 1) (n - idx - 1)).flatMap g = (range' (idx + 1) (n - idx - 1)).flatMap f := by
    refine flatMap_congr fun j there => others j ?_
    have range := mem_range'_1.mp there
    omega
  refine ⟨(range' 0 idx).flatMap f ++ before,after ++ (range' (idx + 1) (n - idx - 1)).flatMap f,?_,?_⟩
  · rw [parts,flatMap_append,flatMap_cons,old]
    simp
  rw [parts,flatMap_append,flatMap_cons,new,first,last]
  simp

section
variable {read read' : Nat → Buffer} {di' : Inode} {idx : Nat} {records : List Nat}

section
variable (formed : Formed fs read di n offs)
include formed

theorem Formed.keep (same : ∀ i, block_data fs read' di' i = block_data fs read di i)
    (size : di'.i_size = di.i_size) (mode : di'.i_mode = di.i_mode) :
    Formed fs read' di' n offs ∧ entries_from fs read' di' offs 0 n = entries_from fs read di offs 0 n := by
  refine ⟨⟨by rw [mode]; exact formed.mode,by rw [size]; exact formed.size,formed.count,formed.small,?_,?_⟩,?_⟩
  · intro i below
    rw [same]
    exact formed.tiled i below
  · intro i past
    rw [same]
    exact formed.beyond i past
  · exact flatMap_congr fun i _ => by rw [same]

theorem Formed.change (below : idx < n) (tiled : Tiled fs.block_size (block_data fs read' di idx) 0 records)
    (others : ∀ i ≠ idx, block_data fs read' di i = block_data fs read di i) :
    Formed fs read' di n (update offs idx records) := by
  refine ⟨formed.mode,formed.size,formed.count,formed.small,fun i within => ?_,fun i past => ?_⟩
  · grind [tiled]
  rw [others i (by omega)]
  exact formed.beyond i past

theorem Formed.grow (room : n < max_blocks fs) (small : (n + 1) * fs.block_size < 2 ^ 32)
    (tiled : Tiled fs.block_size (block_data fs read' di' n) 0 records)
    (others : ∀ i ≠ n, block_data fs read' di' i = block_data fs read di i) (size : di'.i_size = (n + 1) * fs.block_size)
    (mode : di'.i_mode = di.i_mode) : Formed fs read' di' (n + 1) (update offs n records) := by
  refine ⟨by rw [mode]; exact formed.mode,size,room,small,fun i within => ?_,fun i past => ?_⟩
  · grind [tiled]
  rw [others i (by omega)]
  exact formed.beyond i (by omega)

end

end

/-! ### Adding an entry -/

theorem Formed.used_blocks (formed : Formed fs read di n offs) (sized : Sized fs) :
    wrap32 (di.i_size + fs.block_size - 1) / fs.block_size = n := by
  obtain ⟨large,_,_,whole⟩ := sized.facts
  have small := formed.small
  obtain ⟨q,total⟩ := whole
  have below : n < q := by
    rw [total,mul_comm] at small
    exact Nat.lt_of_mul_lt_mul_left small
  have fits : (n + 1) * fs.block_size ≤ 2 ^ 32 := by
    rw [total,mul_comm]
    exact Nat.mul_le_mul_left _ below
  rw [add_mul,one_mul] at fits
  rw [formed.size,wrap32_of_lt (by omega)]
  refine Nat.div_eq_of_lt_le (by omega) ?_
  rw [add_mul,one_mul]
  omega

/-- The loop ends at a block with room, or behind the last one. -/
theorem Formed.add_blocks (formed : Formed fs v.store.read di n offs) (sized : Sized fs) (dir : Nat) (new : NewEntry)
    (turns : Nat) {count idx : Nat} (rest : idx + count = n) (enough : count ≤ turns) :
    (∃ j b, j < n ∧ (offs j).findSome?
        (add_at (block_data fs v.store.read di j) new.ino new.name new.file_type) = some b ∧
      add_blocks fs v dir di new turns idx = (0,write_dir v dir (block_at fs v.store.read di j) b di)) ∨
    (count < turns ∧ add_blocks fs v dir di new turns idx = add_block fs v dir di new n) ∨
    (turns = count ∧ add_blocks fs v dir di new turns idx = (-ENOSPC,v)) := by
  induction count generalizing turns idx with
  | zero =>
    obtain rfl : idx = n := by omega
    cases turns with
    | zero => exact .inr (.inr ⟨rfl,rfl⟩)
    | succ turns =>
      refine .inr (.inl ⟨by omega,?_⟩)
      simp only [add_blocks]
      rw [formed.used_blocks sized,if_pos (.inr le_rfl)]
  | succ count ih =>
    cases turns with
    | zero => omega
    | succ turns =>
      obtain ⟨there,content⟩ := formed.present sized (show idx < n by omega)
      have going : ¬ (block_at fs v.store.read di idx = 0 ∨ n ≤ idx) := by
        rintro (hole | past)
        · exact there hole
        · omega
      simp only [Directories.add_blocks,map_block_eq]
      rw [formed.used_blocks sized,if_neg going,content,formed.scan (by omega)]
      rcases added : (offs idx).findSome? (add_at (block_data fs v.store.read di idx) new.ino new.name new.file_type)
        with _ | b
      · rcases ih turns (show idx + 1 + count = n by omega) (by omega) with found | ⟨more,past⟩ | ⟨all,past⟩
        · exact .inl found
        · exact .inr (.inl ⟨by omega,past⟩)
        · exact .inr (.inr ⟨by omega,past⟩)
      · exact .inl ⟨idx,b,by omega,added,rfl⟩

def Maps (fs : Fs) (v : Volume) (dir : Nat) (entries : List (List UInt8 × Nat)) : Prop :=
  ∃ n offs, Formed fs v.store.read (read_disk_inode v dir) n offs ∧
    entries = entries_from fs v.store.read (read_disk_inode v dir) offs 0 n

/-- An operation on one directory leaves all else. -/
structure Updated (fs : Fs) (F : List Nat) (dir : Nat) (v w : Volume) : Prop where
  held : Holds fs F w (read_disk_inode w)
  stored : ∀ x ∈ F, x ≠ dir → read_disk_inode w x = read_disk_inode v x
  data : ∀ x ∈ F, x ≠ dir → ∀ j, block_data fs w.store.read (read_disk_inode w x) j =
    block_data fs v.store.read (read_disk_inode v x) j

theorem Updated.refl (held : Holds fs F v (read_disk_inode v)) (dir : Nat) : Updated fs F dir v v :=
  ⟨held,fun _ _ _ => rfl,fun _ _ _ _ => rfl⟩

variable {entries : List (List UInt8 × Nat)}

theorem Updated.maps (updated : Updated fs F dir v w) {x : Nat} (listed : x ∈ F) (apart : x ≠ dir)
    (maps : Maps fs v x entries) : Maps fs w x entries := by
  obtain ⟨n,offs,formed,same⟩ := maps
  obtain ⟨kept,still⟩ := formed.keep (updated.data x listed apart) (by rw [updated.stored x listed apart])
    (by rw [updated.stored x listed apart])
  exact ⟨n,offs,kept,by rw [still]; exact same⟩

variable {di' : Inode}

/-- A block of a directory is written with its inode. -/
theorem write_dir_spec {dir idx blk : Nat} (held : Holds fs F v (update (read_disk_inode v) dir di))
    (member : dir ∈ F) (within : idx < max_blocks fs) (here : block_at fs v.store.read di idx = blk) (present : blk ≠ 0)
    (b : Buffer) (blocks : di'.i_block = di.i_block) (written : write_dir v dir blk b di' = w) :
    Updated fs F dir v w ∧ read_disk_inode w dir = di' ∧ block_data fs w.store.read di' idx = b ∧
      ∀ j ≠ idx, block_data fs w.store.read di' j = block_data fs v.store.read di j := by
  subst written
  have inodes : read_disk_inode (write_dir v dir blk b di') =
      update (update (read_disk_inode v) dir di) dir di' := by
    rw [update_idem]
    funext x
    rw [stored_write_dir,update_apply]
  have same_blocks : di'.i_block = (update (read_disk_inode v) dir di dir).i_block := by
    rw [update_self]
    exact blocks
  obtain ⟨after,content,others⟩ := held.write_dir member within (by rw [update_self]; exact here) present b
    same_blocks
  rw [← inodes] at after others
  have stored : ∀ x ≠ dir, read_disk_inode (write_dir v dir blk b di') x = read_disk_inode v x := by
    intro x apart
    rw [stored_write_dir,if_neg apart]
  have own : read_disk_inode (write_dir v dir blk b di') dir = di' := by rw [stored_write_dir,if_pos rfl]
  refine ⟨⟨after,fun x _ => stored x,fun x listed apart j => ?_⟩,own,content,fun j apart => ?_⟩
  · grind
  · grind

variable {records : List Nat}

theorem Formed.wrote {dir idx : Nat}
    (formed : Formed fs v.store.read (read_disk_inode v dir) n offs) (sized : Sized fs)
    (held : Holds fs F v (read_disk_inode v)) (member : dir ∈ F) (below : idx < n) (tiled : Tiled fs.block_size b 0 records)
    (written : write_dir v dir (block_at fs v.store.read (read_disk_inode v dir) idx) b (read_disk_inode v dir) = w) :
    Updated fs F dir v w ∧
      Formed fs w.store.read (read_disk_inode w dir) n (update offs idx records) ∧
      block_data fs w.store.read (read_disk_inode w dir) idx = b ∧
      ∀ j ≠ idx, block_data fs w.store.read (read_disk_inode w dir) j =
        block_data fs v.store.read (read_disk_inode v dir) j := by
  have stays : Holds fs F v (update (read_disk_inode v) dir (read_disk_inode v dir)) := by
    rw [update_eq_self]
    exact held
  obtain ⟨updated,own,content,others⟩ := write_dir_spec stays member (below.trans_le formed.count) rfl
    (formed.present sized below).1 b rfl written
  rw [own]
  exact ⟨updated,formed.change below (by rw [content]; exact tiled) others,content,others⟩

variable {new : NewEntry} {result : Int × Volume}

theorem Formed.add_block (formed : Formed fs v.store.read (read_disk_inode v dir) n offs) (sized : Sized fs)
    (held : Holds fs F v (read_disk_inode v)) (member : dir ∈ F) (room : n < max_blocks fs)
    (small : (n + 1) * fs.block_size < 2 ^ 32) (short : new.name.length < 256) (fits : new.ino < 2 ^ 32)
    (nonzero : new.ino ≠ 0) (call : add_block fs v dir (read_disk_inode v dir) new n = result) :
    (3 ≤ v.sb.s_free_blocks_count → result.1 = 0) ∧ Updated fs F dir v result.2 ∧
    ∃ n' offs', Formed fs result.2.store.read (read_disk_inode result.2 dir) n' offs' ∧
      (result.1 = 0 → Inserted (new.name,new.ino) (entries_from fs v.store.read (read_disk_inode v dir) offs 0 n)
        (entries_from fs result.2.store.read (read_disk_inode result.2 dir) offs' 0 n')) ∧
      (result.1 ≠ 0 → entries_from fs result.2.store.read (read_disk_inode result.2 dir) offs' 0 n' =
        entries_from fs v.store.read (read_disk_inode v dir) offs 0 n) := by
  obtain ⟨large,below,aligned,_⟩ := sized.facts
  simp only [Directories.add_block] at call
  generalize alloc : get_or_alloc_block_at fs v (read_disk_inode v dir) n = got at call
  obtain ⟨found,effect⟩ := held.got member room alloc
  by_cases none_free : got.block = 0
  · rw [if_pos none_free] at call
    subst call
    obtain ⟨held,stored,data⟩ := held.given_up member room alloc
    have same : read_disk_inode got.v = read_disk_inode v := funext stored
    have kept : Updated fs F dir v got.v :=
      ⟨by rw [same]; exact held,fun x _ _ => stored x,fun x listed _ j => by rw [same]; exact data x listed j⟩
    obtain ⟨still,entries⟩ := formed.keep (data dir member) rfl rfl
    grind [ENOSPC]
  rw [if_neg none_free] at call
  obtain ⟨after,here,size,mode,stored,data⟩ := effect none_free
  have same : read_disk_inode got.v = read_disk_inode v := funext stored
  have more : (read_disk_inode v dir).i_size < (n + 1) * fs.block_size := by
    rw [formed.size,add_mul]
    omega
  rw [wrap32_of_lt small,size,if_pos more] at call
  subst call
  rw [← same] at after
  have before : ∀ j, block_data fs got.v.store.read got.di j = block_data fs v.store.read (read_disk_inode v dir) j := by
    intro j
    have kept := data dir member j
    rw [update_self] at kept
    exact kept
  obtain ⟨updated,own,content,others⟩ := @write_dir_spec fs F got.v _ got.di
    { got.di with i_size := (n + 1) * fs.block_size } dir n got.block after member room here none_free
    (init_dirent zeroes 0 new.ino fs.block_size new.name new.file_type) rfl rfl
  dsimp only
  generalize write_dir got.v dir got.block _ _ = w at *
  have tiled := @tiled_init zeroes new.name 0 new.ino _ new.file_type below aligned
    (by unfold dir_rec_len DIR_ENTRY_SIZE; omega) short
  rw [zero_add,← content,← own] at tiled
  rw [← own] at content others
  have kept : ∀ j ≠ n, block_data fs w.store.read (read_disk_inode w dir) j =
      block_data fs v.store.read (read_disk_inode v dir) j := fun j apart => (others j apart).trans (before j)
  refine ⟨fun _ => rfl,⟨updated.held,?_,?_⟩,n + 1,update offs n [0],?_,fun _ => ?_,fun failed => absurd rfl failed⟩
  · intro x listed apart
    rw [updated.stored x listed apart,stored]
  · intro x listed apart j
    have moved := data x listed j
    rw [update_of_ne apart] at moved
    rw [updated.data x listed apart,stored,moved]
  · exact formed.grow room small tiled kept (by rw [own]) (by rw [own]; exact mode)
  refine ⟨_,[],(append_nil _).symm,?_⟩
  have last : live (block_data fs w.store.read (read_disk_inode w dir) n) [0] = [(new.name,new.ino)] := by
    rw [content]
    exact live_init fits nonzero short
  rw [entries_from,← range'_append_1,flatMap_append,zero_add]
  refine congrArg₂ (· ++ ·) ?_ ?_
  · refine flatMap_congr fun j there => ?_
    grind
  · simp [last]

theorem Formed.inserted {read read' : Nat → Buffer} (below : idx < n)
    (others : ∀ j ≠ idx, block_data fs read' di' j = block_data fs read di j)
    (inserted : Inserted e (live (block_data fs read di idx) (offs idx)) (live (block_data fs read' di' idx) records)) :
    Inserted e (entries_from fs read di offs 0 n) (entries_from fs read' di' (update offs idx records) 0 n) := by
  refine inserted_flatMap below (fun j apart => ?_) ?_
  · rw [others j apart,update_of_ne apart]
  rw [update_self]
  exact inserted

section
variable {dir : Nat} {entries : List (List UInt8 × Nat)} {result : Int × Volume}
variable (sized : Sized fs) (held : Holds fs F v (read_disk_inode v)) (member : dir ∈ F) (maps : Maps fs v dir entries)
include sized held member maps

theorem add_dir_entry_spec (small : (read_disk_inode v dir).i_size + fs.block_size < 2 ^ 32)
    (named : new.name.length ≠ 0) (short : new.name.length < 256) (fits : new.ino < 2 ^ 32) (nonzero : new.ino ≠ 0)
    (call : add_dir_entry fs v dir new = result) :
    (3 ≤ v.sb.s_free_blocks_count → (read_disk_inode v dir).i_size < max_blocks fs * fs.block_size → result.1 = 0) ∧
    Updated fs F dir v result.2 ∧ ∃ entries', Maps fs result.2 dir entries' ∧
      (result.1 = 0 → Inserted (new.name,new.ino) entries entries') ∧ (result.1 ≠ 0 → entries' = entries) := by
  obtain ⟨n,offs,formed,rfl⟩ := maps
  rw [add_dir_entry,if_neg (by simp [formed.mode]),if_neg (by omega),sized.max_supported] at call
  rcases formed.add_blocks sized dir new (max_blocks fs) (zero_add n) formed.count
    with ⟨j,b,below,added,done⟩ | ⟨room,done⟩ | ⟨full,done⟩
  · obtain rfl := done.symm.trans call
    obtain ⟨offs',before,after,tiled,old,fresh⟩ := add_entry (formed.tiled j below) short fits nonzero added
    obtain ⟨updated,formed',content,others⟩ := formed.wrote sized held member below tiled rfl
    refine ⟨fun _ _ => rfl,updated,_,⟨n,_,formed',rfl⟩,fun _ => ?_,fun failed => absurd rfl failed⟩
    exact Formed.inserted below others ⟨before,after,old,by rw [content]; exact fresh⟩
  · rw [formed.size] at small
    obtain ⟨success,updated,n',offs',formed',added,same⟩ := formed.add_block sized held member room
      (by rw [add_mul,one_mul]; exact small) short fits nonzero (done.symm.trans call)
    exact ⟨fun enough _ => success enough,updated,_,⟨n',offs',formed',rfl⟩,added,same⟩
  obtain rfl := done.symm.trans call
  refine ⟨fun _ room => ?_,Updated.refl held dir,_,⟨n,offs,formed,rfl⟩,fun success => ?_,fun _ => rfl⟩
  · rw [formed.size,full] at room
    exact absurd room (lt_irrefl _)
  · simp [ENOSPC] at success

end

/-! ### Removing an entry -/

theorem Formed.remove_beyond (formed : Formed fs v.store.read di n offs) (dir : Nat) (past : n ≤ idx) :
    remove_blocks fs v dir di name turns idx = (-ENOENT,v) := by
  induction turns generalizing idx with
  | zero => rfl
  | succ turns ih =>
    have data := formed.beyond idx past
    simp only [remove_blocks,map_block_eq]
    by_cases hole : block_at fs v.store.read di idx = 0
    · rw [if_pos hole]
    rw [block_data,if_neg hole] at data
    rw [if_neg hole,data,scan_zeroes]
    exact ih (by omega)

/-- The loop ends at the first block with the name. -/
theorem Formed.remove_blocks (formed : Formed fs v.store.read di n offs) (sized : Sized fs) (dir : Nat)
    (name : List UInt8) (turns : Nat) {count idx : Nat} (rest : idx + count = n) (enough : count ≤ turns) :
    (∃ j b, j < n ∧ (offs j).findSome? (remove_at (block_data fs v.store.read di j) name) = some b ∧
      remove_blocks fs v dir di name turns idx = (0,write_dir v dir (block_at fs v.store.read di j) b di)) ∨
    (remove_blocks fs v dir di name turns idx = (-ENOENT,v) ∧
      ∀ j, idx ≤ j → j < n → (offs j).findSome? (remove_at (block_data fs v.store.read di j) name) = none) := by
  induction count generalizing turns idx with
  | zero => exact .inr ⟨formed.remove_beyond dir (by omega),fun j low high => by omega⟩
  | succ count ih =>
    cases turns with
    | zero => omega
    | succ turns =>
      obtain ⟨there,content⟩ := formed.present sized (show idx < n by omega)
      simp only [Directories.remove_blocks,map_block_eq]
      rw [if_neg there,content,formed.scan (by omega)]
      rcases removed : (offs idx).findSome? (remove_at (block_data fs v.store.read di idx) name) with _ | b
      · rcases ih turns (show idx + 1 + count = n by omega) (by omega) with found | ⟨missed,before⟩
        · exact .inl found
        · grind
      · exact .inl ⟨idx,b,by omega,removed,rfl⟩

/-- `ext2_remove_dir_entry` removes one entry, if there is one. -/
theorem remove_dir_entry_spec (name : List UInt8)
    (sized : Sized fs) (held : Holds fs F v (read_disk_inode v)) (member : dir ∈ F) (maps : Maps fs v dir entries)
    (named : name.length ≠ 0) (short : name.length < 256) (call : remove_dir_entry fs v dir name = result) :
    Updated fs F dir v result.2 ∧ ∃ entries', Maps fs result.2 dir entries' ∧
      ((result.1 = 0 ∧ ∃ old, Inserted (name,old) entries' entries) ∨
        (result.1 = -ENOENT ∧ entries' = entries ∧ ∀ e ∈ entries, e.1 ≠ name)) := by
  obtain ⟨n,offs,formed,rfl⟩ := maps
  rw [remove_dir_entry,if_neg (by omega),sized.max_supported] at call
  rcases formed.remove_blocks sized dir name (max_blocks fs) (Nat.zero_add n) formed.count
    with ⟨j,b,below,removed,done⟩ | ⟨done,missed⟩
  · obtain rfl := done.symm.trans call
    obtain ⟨before,after,old,tiled,there,gone⟩ := remove_entry (formed.tiled j below) short removed
    obtain ⟨updated,formed',content,others⟩ := formed.wrote sized held member below tiled rfl
    rw [update_eq_self] at formed'
    refine ⟨updated,_,⟨n,offs,formed',rfl⟩,.inl ⟨rfl,old,?_⟩⟩
    have back := @Formed.inserted fs (read_disk_inode (write_dir v dir _ b (read_disk_inode v dir)) dir) n offs j (name,old)
      (read_disk_inode v dir) (offs j) _ v.store.read below (fun j apart => (others j apart).symm)
      ⟨before,after,by rw [content]; exact gone,there⟩
    rw [update_eq_self] at back
    exact back
  obtain rfl := done.symm.trans call
  refine ⟨Updated.refl held dir,_,⟨n,offs,formed,rfl⟩,.inr ⟨rfl,rfl,fun e there => ?_⟩⟩
  obtain ⟨j,inside,here⟩ := mem_flatMap.mp there
  have range := mem_range'_1.mp inside
  exact remove_none short (missed j (Nat.zero_le j) (by omega)) e here

/-! ### Reading a directory -/

/-- The entries ahead of an offset between records. -/
inductive Ahead (fs : Fs) (read : Nat → Buffer) (di : Inode) (n : Nat) : Nat → List (List UInt8 × Nat) → Prop
  | done : Ahead fs read di n (n * fs.block_size) []
  | record {idx off : Nat} {l : List (List UInt8 × Nat)} (below : idx < n) (inside : off < fs.block_size)
      (long : 0 < de_rec_len (block_data fs read di idx) off)
      (rest : Ahead fs read di n (idx * fs.block_size + off + de_rec_len (block_data fs read di idx) off) l) :
      Ahead fs read di n (idx * fs.block_size + off) ((entry (block_data fs read di idx) off).toList ++ l)

section
variable {read : Nat → Buffer} {l : List (List UInt8 × Nat)}

theorem Ahead.le {offset : Nat} (ahead : Ahead fs read di n offset l) : offset ≤ n * fs.block_size := by
  induction ahead with
  | done => exact le_rfl
  | record _ _ _ _ ih => omega

theorem ahead_tiled {idx off stop : Nat} (below : idx < n) (tiled : Tiled stop (block_data fs read di idx) off records)
    (whole : stop = fs.block_size) (rest : Ahead fs read di n ((idx + 1) * fs.block_size) l) :
    Ahead fs read di n (idx * fs.block_size + off) (live (block_data fs read di idx) records ++ l) := by
  induction tiled with
  | stop =>
    rw [whole,← succ_mul]
    exact rest
  | @record off records long _ _ later ih =>
    have bound := later.le
    unfold DIR_ENTRY_SIZE at long
    have split : live (block_data fs read di idx) (off :: records) =
        (entry (block_data fs read di idx) off).toList ++ live (block_data fs read di idx) records := by
      rw [live,live,filterMap_cons]
      rcases entry (block_data fs read di idx) off with _ | e
      · rfl
      · rfl
    rw [split,append_assoc]
    exact .record below (by omega) (by omega) (by rw [add_assoc]; exact ih)

theorem Formed.ahead (formed : Formed fs read di n offs) {count idx : Nat} (rest : idx + count = n) :
    Ahead fs read di n (idx * fs.block_size) (entries_from fs read di offs idx count) := by
  induction count generalizing idx with
  | zero =>
    obtain rfl : idx = n := by omega
    exact .done
  | succ count ih =>
    exact ahead_tiled (by omega) (formed.tiled idx (by omega)) rfl (ih (by omega))

end

theorem Formed.readdir_loop (formed : Formed fs v.store.read di n offs) (sized : Sized fs) (turns : Nat)
    {offset : Nat} (ahead : Ahead fs v.store.read di n offset l)
    (enough : n * fs.block_size ≤ offset + turns) :
    (l = [] ∧ (readdir_loop fs v di turns offset).1 = none) ∨
    ∃ d next tail, readdir_loop fs v di turns offset = (some d,next) ∧ l = (d.d_name,d.d_ino) :: tail ∧
      offset < next ∧ Ahead fs v.store.read di n next tail := by
  have small := formed.small
  induction ahead generalizing turns with
  | done =>
    refine .inl ⟨rfl,?_⟩
    cases turns with
    | zero => rfl
    | succ turns => rw [Directories.readdir_loop,if_pos (by rw [formed.size])]
  | @record idx off l below inside long rest ih =>
    obtain ⟨there,content⟩ := formed.present sized below
    have bound := rest.le
    have block : (idx * fs.block_size + off) / fs.block_size = idx := by
      rw [mul_comm,mul_add_div (by omega),div_eq_of_lt inside,add_zero]
    have within : (idx * fs.block_size + off) % fs.block_size = off := by
      rw [mul_comm,mul_add_mod,mod_eq_of_lt inside]
    cases turns with
    | zero => omega
    | succ turns =>
      simp only [Directories.readdir_loop,map_block_eq,block,within]
      rw [if_neg (by rw [formed.size]; omega),if_neg there,content,if_neg (by omega),wrap32_of_lt (by omega)]
      by_cases deleted : de_inode (block_data fs v.store.read di idx) off = 0
      · rw [if_pos deleted,entry,if_pos deleted]
        rcases ih turns (by omega) with finished | ⟨d,next,tail,found,same,further,ahead⟩
        · exact .inl finished
        · exact .inr ⟨d,next,tail,found,same,by omega,ahead⟩
      rw [if_neg deleted,entry,if_neg deleted]
      exact .inr ⟨_,_,l,rfl,rfl,by omega,rest⟩

theorem Formed.read_entries (formed : Formed fs v.store.read di n offs) (sized : Sized fs) {offset turns : Nat}
    (ahead : Ahead fs v.store.read di n offset l)
    (enough : n * fs.block_size ≤ offset + turns) :
    (read_entries fs v di turns offset).map (fun d => (d.d_name,d.d_ino)) = l := by
  induction turns generalizing offset l with
  | zero =>
    rcases formed.readdir_loop sized 0 ahead enough with ⟨rfl,_⟩ | ⟨_,next,_,_,_,further,rest⟩
    · rfl
    · have bound := rest.le
      omega
  | succ turns ih =>
    have bound : n * fs.block_size ≤ offset + di.i_size := by
      rw [formed.size]
      omega
    simp only [read_entries,dir_readdir]
    rcases formed.readdir_loop sized _ ahead bound with ⟨rfl,none_left⟩ | ⟨d,next,tail,found,rfl,further,rest⟩
    · grind
    rw [found]
    simp only [map_cons]
    rw [ih rest (by omega)]

/-- Reading a directory from its start lists its entries. -/
theorem Maps.read_directory (maps : Maps fs v dir entries)
    (sized : Sized fs) : (read_directory fs v dir).map (fun d => (d.d_name,d.d_ino)) = entries := by
  obtain ⟨n,offs,formed,rfl⟩ := maps
  have ahead := formed.ahead (zero_add n)
  rw [zero_mul] at ahead
  exact formed.read_entries sized ahead (by rw [formed.size]; omega)

/-! ### Runs -/

/-- A volume with directories, and the map of each. -/
structure System where
  v : Volume
  map : Nat → List UInt8 → Option Nat
inductive Label
  | add (dir : Nat) (new : NewEntry)
  | remove (dir : Nat) (name : List UInt8)

/-- An entry is added under a missing name, or a name is removed. -/
def step (fs : Fs) (D : List Nat) (s : System) : Label → Option System
  | .add dir new =>
    if dir ∈ D ∧ inode_lookup fs s.v dir new.name = none ∧ new.ino ≠ 0 ∧ new.ino < 2 ^ 32 then
      let result := add_dir_entry fs s.v dir new
      some ⟨result.2,if result.1 = 0 then
        update s.map dir (update (s.map dir) new.name (some new.ino)) else s.map⟩
    else none
  | .remove dir name =>
    if dir ∈ D then
      some ⟨(remove_dir_entry fs s.v dir name).2,update s.map dir (update (s.map dir) name none)⟩
    else none

/-- A directory stays below 4 GiB when it gets another block. -/
def orderly (fs : Fs) (s : System) : Label → Bool
  | .add dir _ => (read_disk_inode s.v dir).i_size + fs.block_size < 2 ^ 32
  | .remove _ _ => true
def Careful (fs : Fs) (D : List Nat) (s : System) (l : Label) (t : System) : Prop :=
  step fs D s l = some t ∧ orderly fs s l = true

/-- The directories `D` are files with the entries of their maps. -/
structure Sound (fs : Fs) (F D : List Nat) (s : System) : Prop where
  held : Holds fs F s.v (read_disk_inode s.v)
  files : ∀ dir ∈ D, dir ∈ F
  maps : ∀ dir ∈ D, ∃ entries, Maps fs s.v dir entries ∧ (entries.map Prod.fst).Nodup ∧
    (∀ name, entries.lookup name = s.map dir name) ∧ ∀ e ∈ entries, e.1.length ≠ 0 ∧ e.1.length < 256

variable {D : List Nat} {s t : System} {dir : Nat}

/-- An operation gives one directory the entries of a map. -/
theorem Sound.update (sound : Sound fs F D s) (updated : Updated fs F dir s.v w) {map : List UInt8 → Option Nat}
    (maps : Maps fs w dir entries) (nodup : (entries.map fst).Nodup) (lookup : ∀ name, entries.lookup name = map name)
    (named : ∀ e ∈ entries, e.1.length ≠ 0 ∧ e.1.length < 256) : Sound fs F D ⟨w,update s.map dir map⟩ := by
  refine ⟨updated.held,sound.files,fun x listed => ?_⟩
  by_cases here : x = dir
  · subst here
    refine ⟨entries,maps,nodup,fun name => ?_,named⟩
    dsimp only
    rw [update_self]
    exact lookup name
  obtain ⟨others,there,once,same,valid⟩ := sound.maps x listed
  refine ⟨others,updated.maps (sound.files x listed) here there,once,fun name => ?_,valid⟩
  dsimp only
  rw [update_of_ne here]
  exact same name

theorem refused_missing (named : ∀ e ∈ entries, e.1.length ≠ 0 ∧ e.1.length < 256)
    (refused : name.length = 0 ∨ 255 < name.length) : entries.lookup name = none := by
  rw [lookup_eq_none_iff]
  intro e there
  have valid := named e there
  have apart : name ≠ e.1 := by
    rintro rfl
    omega
  simpa using apart

theorem Sound.add (sound : Sound fs F D s) (sized : Sized fs) (listed : dir ∈ D)
    (missed : inode_lookup fs s.v dir new.name = none) (nonzero : new.ino ≠ 0) (fits : new.ino < 2 ^ 32)
    (small : (read_disk_inode s.v dir).i_size + fs.block_size < 2 ^ 32) (call : add_dir_entry fs s.v dir new = result) :
    Sound fs F D ⟨result.2,if result.1 = 0 then
      Function.update s.map dir (Function.update (s.map dir) new.name (some new.ino)) else s.map⟩ := by
  obtain ⟨entries,maps,nodup,lookup,named⟩ := sound.maps dir listed
  by_cases refused : new.name.length = 0 ∨ 255 < new.name.length
  · obtain ⟨n,offs,formed,_⟩ := maps
    rw [add_dir_entry,if_neg (by simp [formed.mode]),if_pos refused] at call
    subst call
    exact sound
  have named_new : new.name.length ≠ 0 ∧ new.name.length < 256 := by omega
  obtain ⟨_,updated,entries',maps',added,same⟩ := add_dir_entry_spec sized sound.held (sound.files dir listed) maps small
    named_new.1 named_new.2 fits nonzero call
  by_cases success : result.1 = 0
  · have inserted := added success
    have fresh : ∀ e ∈ entries, e.1 ≠ new.name := by
      obtain ⟨n,offs,formed,rfl⟩ := maps
      rw [formed.lookup sized named_new.2,lookup_eq_none_iff] at missed
      intro e there equal
      have apart := missed e there
      rw [equal] at apart
      simp at apart
    have nodup' := inserted.nodup.mpr ⟨fresh,nodup⟩
    rw [if_pos success]
    refine sound.update updated maps' nodup' (fun name => ?_) fun e there => ?_
    · rw [inserted.lookup nodup',Function.update_apply]
      split
      · rfl
      · exact lookup name
    obtain ⟨before,after,rfl,rfl⟩ := inserted
    rcases mem_append.mp there with first | rest
    · exact named e (mem_append_left _ first)
    rcases mem_cons.mp rest with rfl | last
    · exact named_new
    · exact named e (mem_append_right _ last)
  rw [if_neg success]
  obtain rfl := same success
  have kept := sound.update updated maps' nodup lookup named
  rw [Function.update_eq_self] at kept
  exact kept

theorem Sound.remove (sound : Sound fs F D s) (sized : Sized fs) (listed : dir ∈ D) (name : List UInt8) :
    Sound fs F D ⟨(remove_dir_entry fs s.v dir name).2,Function.update s.map dir
        (Function.update (s.map dir) name none)⟩ := by
  obtain ⟨entries,maps,nodup,lookup,named⟩ := sound.maps dir listed
  by_cases refused : name.length = 0 ∨ 255 < name.length
  · rw [remove_dir_entry,if_pos refused]
    refine sound.update (Updated.refl sound.held dir) maps nodup (fun other => ?_) named
    rw [Function.update_apply]
    split
    · rename_i same
      rw [same]
      exact refused_missing named refused
    · exact lookup other
  obtain ⟨updated,entries',maps',done⟩ := remove_dir_entry_spec name sized sound.held (sound.files dir listed) maps
    (by omega) (by omega) rfl
  rcases done with ⟨_,old,inserted⟩ | ⟨_,rfl,missing⟩
  · obtain ⟨fresh,nodup'⟩ := inserted.nodup.mp nodup
    refine sound.update updated maps' nodup' (fun other => ?_) fun e there => ?_
    · rw [Function.update_apply]
      split
      · grind
      rename_i apart
      rw [← lookup,inserted.lookup nodup,if_neg apart]
    obtain ⟨before,after,rfl,rfl⟩ := inserted
    refine named e ?_
    rcases mem_append.mp there with first | last
    · exact mem_append_left _ first
    · exact mem_append_right _ (mem_cons_of_mem _ last)
  refine sound.update updated maps' nodup (fun other => ?_) named
  grind

theorem Sound.step {l : Label} (sized : Sized fs) (sound : Sound fs F D s) (taken : Careful fs D s l t) :
    Sound fs F D t := by
  obtain ⟨taken,small⟩ := taken
  cases l with
  | add dir new =>
    obtain ⟨⟨listed,missed,nonzero,fits⟩,same⟩ := Option.ite_none_right_eq_some.mp taken
    cases same
    exact sound.add sized listed missed nonzero fits (of_decide_eq_true small) rfl
  | remove dir name =>
    obtain ⟨listed,same⟩ := Option.ite_none_right_eq_some.mp taken
    cases same
    exact sound.remove sized listed name

structure Mapped (fs : Fs) (v : Volume) (dir : Nat) (map : List UInt8 → Option Nat) : Prop where
  tiled : ∃ (n : Nat) (offs : Nat → List Nat), (read_disk_inode v dir).i_size = n * fs.block_size ∧
    ∀ idx < n, Tiled fs.block_size (block_data fs v.store.read (read_disk_inode v dir) idx) 0 (offs idx)
  lookup : ∀ name : List UInt8, name.length ≤ 255 → inode_lookup fs v dir name = map name
  listed : ∀ name ino, (∃ d ∈ read_directory fs v dir, d.d_name = name ∧ d.d_ino = ino) ↔ map name = some ino
  once : ((read_directory fs v dir).map Dirent.d_name).Nodup
  adds : ∀ new : NewEntry, new.name.length ≠ 0 → new.name.length ≤ 255 → new.ino ≠ 0 → new.ino < 2 ^ 32 →
    3 ≤ v.sb.s_free_blocks_count → (read_disk_inode v dir).i_size + fs.block_size < 2 ^ 32 →
    (read_disk_inode v dir).i_size < max_supported_file_blocks fs * fs.block_size → (add_dir_entry fs v dir new).1 = 0
  removes : ∀ name, map name ≠ none → (remove_dir_entry fs v dir name).1 = 0

theorem mem_iff_lookup (nodup : (entries.map fst).Nodup) (name : List UInt8)
    (ino : Nat) : (name,ino) ∈ entries ↔ entries.lookup name = some ino := by
  induction entries with
  | nil => simp
  | cons e entries ih => grind

theorem Sound.mapped (sized : Sized fs) (sound : Sound fs F D s) (listed : dir ∈ D) : Mapped fs s.v dir (s.map dir) := by
  obtain ⟨entries,maps,nodup,lookup,named⟩ := sound.maps dir listed
  have read := maps.read_directory sized
  have file := sound.files dir listed
  refine ⟨?_,fun name short => ?_,fun name ino => ?_,?_,fun new filled short nonzero fits free small room => ?_,
    fun name there => ?_⟩
  · obtain ⟨n,offs,formed,_⟩ := maps
    exact ⟨n,offs,formed.size,formed.tiled⟩
  · obtain ⟨n,offs,formed,rfl⟩ := maps
    rw [formed.lookup sized (by omega)]
    exact lookup name
  · rw [← lookup,← mem_iff_lookup nodup,← read]
    simp only [mem_map,Prod.mk.injEq]
  · rw [← read,map_map] at nodup
    exact nodup
  · exact (add_dir_entry_spec sized sound.held file maps small filled (by omega) fits nonzero rfl).1 free
      (sized.max_supported ▸ room)
  have valid : ¬ (name.length = 0 ∨ 255 < name.length) := by
    intro refused
    rw [← lookup,refused_missing named refused] at there
    exact there rfl
  obtain ⟨_,entries',_,done⟩ := remove_dir_entry_spec name sized sound.held file maps (by omega) (by omega) rfl
  grind

/-- Every directory is the map of the calls: tiled by records, found by lookups,
    listed once. -/
theorem directories_are_maps {first : System} {labels : List Label} (formatted : ∃ k, fs.block_size = 1024 * 2 ^ k)
    (small : fs.block_size < 2 ^ 16) (sound : Sound fs F D first) (run : Run (Careful fs D) first labels s) :
    ∀ dir ∈ D, Mapped fs s.v dir (s.map dir) := by
  have reached : Sound fs F D s := run.invariant (fun _ _ _ sound taken => sound.step (sized formatted small) taken) sound
  exact fun dir listed => reached.mapped (sized formatted small) listed

def sample_dir : Volume :=
  { sample_volume with store := { sample_volume.store with
      device := ⟨sample_blocks,fun ino => if ino = 2 then { Inode.zero with i_mode := 0x41ed } else Inode.zero⟩ } }

theorem sample_dir_sound : Sound sample_fs [2] [2] ⟨sample_dir,fun _ _ => none⟩ := by
  have consistent : Consistent sample_fs sample_dir := { sample_consistent with }
  have stored : read_disk_inode sample_dir 2 = { Inode.zero with i_mode := 0x41ed } := rfl
  have hole : ∀ idx, block_data sample_fs sample_dir.store.read (read_disk_inode sample_dir 2) idx = zeroes := by
    intro idx
    have nowhere : block_at sample_fs sample_dir.store.read (read_disk_inode sample_dir 2) idx = 0 := by
      rw [block_at,stored]
      split
      · exact at_place_no_root rfl
      · rfl
    rw [block_data,if_pos nowhere]
  refine ⟨⟨_,_,empty_files consistent (nodup_singleton 2) ?_ ?_ (by decide),fun x _ => SameFile.refl _⟩,by simp,?_⟩
  · intro x listed i
    rw [mem_singleton.mp listed]
    rfl
  · intro x listed
    rw [mem_singleton.mp listed]
    rfl
  intro dir listed
  rw [mem_singleton.mp listed]
  refine ⟨[],⟨0,fun _ => [],⟨by decide,by decide,zero_le _,by decide,fun idx below => absurd below (not_lt_zero _),
    fun idx _ => hole idx⟩,rfl⟩,nodup_nil,fun _ => rfl,fun e there => absurd there not_mem_nil⟩

def sample_add : NewEntry := ⟨12,[97],1⟩
def sample_labels : List Label :=
  [.add 2 sample_add,.add 2 ⟨13,[98,99],1⟩,.remove 2 [97],.add 2 ⟨14,[100],1⟩]

theorem directories_are_maps_sample : ∃ s, Run (Careful sample_fs [2]) ⟨sample_dir,fun _ _ => none⟩ sample_labels s ∧
    inode_lookup sample_fs s.v 2 [97] = none ∧ inode_lookup sample_fs s.v 2 [98,99] = some 13 ∧
    inode_lookup sample_fs s.v 2 [100] = some 14 ∧ Mapped sample_fs s.v 2 (s.map 2) := by
  have found : (sample_labels.foldlM (fun s l => if orderly sample_fs s l then step sample_fs [2] s l else none)
      ⟨sample_dir,fun _ _ => none⟩).any (fun s : System => inode_lookup sample_fs s.v 2 [97] = none ∧
        inode_lookup sample_fs s.v 2 [98,99] = some 13 ∧ inode_lookup sample_fs s.v 2 [100] = some 14) = true := by
    decide +kernel
  obtain ⟨s,run,ends⟩ := Run.ends_checked found
  obtain ⟨gone,kept,added⟩ := of_decide_eq_true ends
  exact ⟨s,run,gone,kept,added,directories_are_maps ⟨0,rfl⟩ (by decide) sample_dir_sound run 2 (mem_singleton_self 2)⟩

/-- The counts stay right; the blocks of the files stay marked, each used once. -/
theorem directory_blocks_sound {first : System} {labels : List Label} (formatted : ∃ k, fs.block_size = 1024 * 2 ^ k)
    (small : fs.block_size < 2 ^ 16) (sound : Sound fs F D first) (run : Run (Careful fs D) first labels s) :
    ∃ other inode, Files fs other F s.v inode ∧ ∀ x ∈ F, SameFile (inode x) (read_disk_inode s.v x) := by
  have reached : Sound fs F D s := run.invariant (fun _ _ _ sound taken => sound.step (sized formatted small) taken) sound
  exact reached.held

theorem directory_blocks_sound_sample : ∃ s, Run (Careful sample_fs [2]) ⟨sample_dir,fun _ _ => none⟩ [.add 2 sample_add] s ∧
    Holds sample_fs [2] s.v (read_disk_inode s.v) := by
  have found : ([Label.add 2 sample_add].foldlM (fun s l => if orderly sample_fs s l then step sample_fs [2] s l else none)
      ⟨sample_dir,fun _ _ => none⟩).any (fun _ => true) = true := by decide +kernel
  obtain ⟨s,run,_⟩ := Run.ends_checked found
  exact ⟨s,run,directory_blocks_sound ⟨0,rfl⟩ (by decide) sample_dir_sound run⟩

/-- The same volume with blocks of 64 KiB. -/
def wide_fs : Fs := { sample_fs with block_size := 65536, sectors_per_block := 128 }

/-- A name of 257 bytes is found as `a`; in a block of 64 KiB `a` itself is not found. -/
theorem directories_not_maps :
    (∃ s, Run (Careful sample_fs [2]) ⟨sample_dir,fun _ _ => none⟩ [.add 2 sample_add] s ∧
      inode_lookup sample_fs sample_dir 2 (List.replicate 257 97) = none ∧
      inode_lookup sample_fs s.v 2 (List.replicate 257 97) = some 12 ∧ s.map 2 (List.replicate 257 97) = none) ∧
    ∃ s, Run (Careful wide_fs [2]) ⟨sample_dir,fun _ _ => none⟩ [.add 2 sample_add] s ∧
      s.map 2 [97] = some 12 ∧ inode_lookup wide_fs s.v 2 [97] = none := by
  constructor
  · have found : ([.add 2 sample_add].foldlM (fun s l => if orderly sample_fs s l then step sample_fs [2] s l else none)
        ⟨sample_dir,fun _ _ => none⟩).any (fun s : System =>
          inode_lookup sample_fs sample_dir 2 (List.replicate 257 97) = none ∧
          inode_lookup sample_fs s.v 2 (List.replicate 257 97) = some 12 ∧
          s.map 2 (List.replicate 257 97) = none) = true := by
      decide +kernel
    obtain ⟨s,run,ends⟩ := Run.ends_checked found
    exact ⟨s,run,of_decide_eq_true ends⟩
  have found : ([.add 2 sample_add].foldlM (fun s l => if orderly wide_fs s l then step wide_fs [2] s l else none)
      ⟨sample_dir,fun _ _ => none⟩).any (fun s : System =>
        s.map 2 [97] = some 12 ∧ inode_lookup wide_fs s.v 2 [97] = none) = true := by
    decide +kernel
  obtain ⟨s,run,ends⟩ := Run.ends_checked found
  exact ⟨s,run,of_decide_eq_true ends⟩

end ArmOS.DirectoryMaps

