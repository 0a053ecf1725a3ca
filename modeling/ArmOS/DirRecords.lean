import ArmOS.FileOps

/-!
The records of one block of an ext2 directory: a header, a name and slack up to the
next record. An entry is added in a deleted record or in slack, and deleted by
clearing the inode of its record.
-/
namespace ArmOS.DirRecords
open Bytes List Nat Option
open FileOps (bytes put_bytes)

/-- `sizeof(ext2_dir_entry_t)`. -/
def DIR_ENTRY_SIZE : Nat := 8
def de_inode (b : Buffer) (off : Nat) : Nat := load 4 b off
def de_rec_len (b : Buffer) (off : Nat) : Nat := load 2 b (off + 4)
def de_name_len (b : Buffer) (off : Nat) : Nat := load 1 b (off + 6)
def de_file_type (b : Buffer) (off : Nat) : Nat := load 1 b (off + 7)
def de_name (b : Buffer) (off : Nat) : List UInt8 := bytes b (off + 8) (de_name_len b off)
def dir_rec_len (name_len : Nat) : Nat := (DIR_ENTRY_SIZE + name_len + 3) / 4 * 4

/-- `ext2_init_dirent`; a large `rec_len` loses its high bits. -/
def init_dirent (b : Buffer) (off ino rec_len : Nat) (name : List UInt8) (file_type : Nat) : Buffer :=
  let b := store 4 b off ino
  let b := store 2 b (off + 4) rec_len
  let b := store 1 b (off + 6) name.length
  let b := store 1 b (off + 7) file_type
  put_bytes b (off + 8) name

/-- The loop over the records, up to the first that `visit` takes. -/
def scan {α : Type} (block_size : Nat) (b : Buffer) (visit : Nat → Option α) : Nat → Nat → Option α
  | 0, _ => none
  | turns + 1, off =>
    if block_size < off + DIR_ENTRY_SIZE then none
    else if de_rec_len b off = 0 then none
    else
      match visit off with
      | some found => some found
      | none => scan block_size b visit turns (off + de_rec_len b off)

/-- The comparison with a name, whose length has 8 bits. -/
def de_matches (b : Buffer) (name : List UInt8) (off : Nat) : Bool :=
  de_inode b off ≠ 0 && de_name_len b off = name.length % 256 &&
    bytes b (off + 8) (name.length % 256) = name.take (name.length % 256)

/-- The body of the loop of `ext2_inode_lookup`. -/
def find_at (b : Buffer) (name : List UInt8) (off : Nat) : Option Nat :=
  if de_matches b name off then some (de_inode b off) else none

/-- The body of the loop of `ext2_add_dir_entry`. -/
def add_at (b : Buffer) (ino : Nat) (name : List UInt8) (file_type off : Nat) : Option Buffer :=
  let needed := dir_rec_len name.length
  let actual_len := dir_rec_len (de_name_len b off)
  if de_inode b off = 0 ∧ needed ≤ de_rec_len b off then
    some (init_dirent b off ino (de_rec_len b off) name file_type)
  else if de_inode b off ≠ 0 ∧ actual_len + needed ≤ de_rec_len b off then
    some (init_dirent (store 2 b (off + 4) actual_len) (off + actual_len) ino (de_rec_len b off - actual_len)
      name file_type)
  else none

/-- The body of the loop of `ext2_remove_dir_entry`. -/
def remove_at (b : Buffer) (name : List UInt8) (off : Nat) : Option Buffer :=
  if de_matches b name off then some (store 4 b off 0) else none

/-! ### Bytes outside a range -/

/-- Two buffers differ only between two offsets. -/
def Outside (start stop : Nat) (b c : Buffer) : Prop := ∀ i, i < start ∨ stop ≤ i → c i = b i
theorem Outside.trans {start stop : Nat} {b c d : Buffer} (first : Outside start stop b c)
    (second : Outside start stop c d) : Outside start stop b d :=
  fun i apart => (second i apart).trans (first i apart)
variable {b c : Buffer}

theorem Outside.wider {start stop low high : Nat} (narrow : Outside start stop b c) (below : low ≤ start)
    (above : stop ≤ high) : Outside low high b c :=
  fun i apart => narrow i (by omega)
theorem outside_store (n : Nat) (b : Buffer) (off value : Nat) : Outside off (off + n) b (store n b off value) :=
  fun _ apart => store_outside apart
theorem outside_put (b : Buffer) (off : Nat) (src : List UInt8) : Outside off (off + src.length) b
    (put_bytes b off src) :=
  fun _ apart => if_neg (by omega)
variable {start stop n off : Nat}

theorem Outside.load (outside : Outside start stop b c)
    (apart : off + n ≤ start ∨ stop ≤ off) : load n c off = load n b off :=
  load_congr fun i low high => outside i (by omega)

theorem Outside.bytes (outside : Outside start stop b c)
    (apart : off + n ≤ start ∨ stop ≤ off) : bytes c off n = bytes b off n := by
  refine map_congr_left fun k below => ?_
  have inside := mem_range.mp below
  exact outside _ (by omega)

theorem bytes_put (b : Buffer) (off : Nat) (src : List UInt8) : bytes (put_bytes b off src) off src.length = src := by
  refine ext_getElem (by simp [FileOps.bytes]) fun k first second => ?_
  simp [FileOps.bytes,put_bytes,second]

theorem outside_init_dirent (b : Buffer) (off ino rec_len : Nat) (name : List UInt8) (file_type : Nat) :
    Outside off (off + DIR_ENTRY_SIZE + name.length) b (init_dirent b off ino rec_len name file_type) := by
  unfold init_dirent DIR_ENTRY_SIZE
  refine Outside.trans ?_ ((outside_put _ (off + 8) name).wider (by omega) (by omega))
  refine Outside.trans ?_ ((outside_store 1 _ (off + 7) _).wider (by omega) (by omega))
  refine Outside.trans ?_ ((outside_store 1 _ (off + 6) _).wider (by omega) (by omega))
  refine Outside.trans ?_ ((outside_store 2 _ (off + 4) _).wider (by omega) (by omega))
  exact (outside_store 4 _ off _).wider (by omega) (by omega)

/-! ### The header that `ext2_init_dirent` writes -/

theorem inode_init (b : Buffer) (off : Nat) {ino : Nat} (small : ino < 2 ^ 32) (rec_len : Nat) (name : List UInt8)
    (file_type : Nat) : de_inode (init_dirent b off ino rec_len name file_type) off = ino := by
  unfold de_inode init_dirent
  rw [(outside_put _ (off + 8) name).load (by omega),load_store_apart (by omega),load_store_apart (by omega),
    load_store_apart (by omega),load_store]
  exact mod_eq_of_lt small

theorem rec_len_init (b : Buffer) (off ino : Nat) {rec_len : Nat} (small : rec_len < 2 ^ 16) (name : List UInt8)
    (file_type : Nat) : de_rec_len (init_dirent b off ino rec_len name file_type) off = rec_len := by
  unfold de_rec_len init_dirent
  rw [(outside_put _ (off + 8) name).load (by omega),load_store_apart (by omega),load_store_apart (by omega),load_store]
  exact mod_eq_of_lt small

variable {name : List UInt8}

theorem name_len_init (b : Buffer) (off ino rec_len : Nat) (short : name.length < 256)
    (file_type : Nat) : de_name_len (init_dirent b off ino rec_len name file_type) off = name.length := by
  unfold de_name_len init_dirent
  rw [(outside_put _ (off + 8) name).load (by omega),load_store_apart (by omega),load_store]
  exact mod_eq_of_lt short

theorem name_init (b : Buffer) (off ino rec_len : Nat) (short : name.length < 256)
    (file_type : Nat) : de_name (init_dirent b off ino rec_len name file_type) off = name := by
  rw [de_name,name_len_init b off ino rec_len short]
  exact bytes_put _ _ _

/-! ### Records that tile a block -/

/-- The records between two offsets; a live one has room for its name. -/
inductive Tiled (stop : Nat) (b : Buffer) : Nat → List Nat → Prop
  | stop : Tiled stop b stop []
  | record {off : Nat} {offs : List Nat} (long : DIR_ENTRY_SIZE ≤ de_rec_len b off) (aligned : 4 ∣ de_rec_len b off)
      (fits : de_inode b off ≠ 0 → dir_rec_len (de_name_len b off) ≤ de_rec_len b off)
      (rest : Tiled stop b (off + de_rec_len b off) offs) : Tiled stop b off (off :: offs)

/-- The entry of a record, if it is live. -/
def entry (b : Buffer) (off : Nat) : Option (List UInt8 × Nat) :=
  if de_inode b off = 0 then none else some (de_name b off,de_inode b off)
def live (b : Buffer) (offs : List Nat) : List (List UInt8 × Nat) := offs.filterMap (entry b)
theorem live_append (b : Buffer) (first second : List Nat) : live b (first ++ second) = live b first ++ live b second :=
  filterMap_append
variable {stop off : Nat} {offs : List Nat}

theorem Tiled.le (tiled : Tiled stop b off offs) : off ≤ stop := by
  induction tiled with
  | stop => exact le_rfl
  | record _ _ _ _ ih => omega

theorem Tiled.length (tiled : Tiled stop b off offs) : off + DIR_ENTRY_SIZE * offs.length ≤ stop := by
  induction tiled with
  | stop => simp
  | record long _ _ _ ih =>
    rw [length_cons]
    unfold DIR_ENTRY_SIZE at *
    omega

variable {first second : List Nat}

theorem Tiled.append {mid stop off : Nat} (before : Tiled mid b off first)
    (after : Tiled stop b mid second) : Tiled stop b off (first ++ second) := by
  induction before with
  | stop => exact after
  | record long aligned fits _ ih => exact .record long aligned fits ih

theorem Tiled.split (tiled : Tiled stop b off (first ++ second)) :
    ∃ mid, Tiled mid b off first ∧ Tiled stop b mid second := by
  induction first generalizing off with
  | nil => exact ⟨off,.stop,tiled⟩
  | cons head first ih =>
    obtain - | ⟨long,aligned,fits,rest⟩ := tiled
    obtain ⟨mid,before,after⟩ := ih rest
    exact ⟨mid,.record long aligned fits before,after⟩

theorem Tiled.congr {stop off start finish : Nat} (tiled : Tiled stop b off offs) (outside : Outside start finish b c)
    (apart : stop ≤ start ∨ finish ≤ off) : Tiled stop c off offs ∧ live c offs = live b offs := by
  induction tiled with
  | stop => exact ⟨.stop,rfl⟩
  | @record off offs long aligned fits rest ih =>
    have below := rest.le
    unfold DIR_ENTRY_SIZE at long
    have rec_len : de_rec_len c off = de_rec_len b off := outside.load (by omega)
    have name_len : de_name_len c off = de_name_len b off := outside.load (by omega)
    have inode : de_inode c off = de_inode b off := outside.load (by omega)
    obtain ⟨later,same⟩ := ih (by omega)
    refine ⟨.record (by rw [rec_len]; exact long) (by rw [rec_len]; exact aligned) ?_ (by rw [rec_len]; exact later),?_⟩
    · rw [rec_len,name_len,inode]
      exact fits
    have here : entry c off = entry b off := by
      unfold entry
      rw [inode]
      by_cases deleted : de_inode b off = 0
      · rw [if_pos deleted,if_pos deleted]
      have room := fits deleted
      unfold dir_rec_len DIR_ENTRY_SIZE at room
      rw [if_neg deleted,if_neg deleted,de_name,de_name,name_len,outside.bytes (by omega)]
    rw [live,live,filterMap_cons,filterMap_cons,here]
    unfold live at same
    rw [same]

variable {at_off : Nat}

theorem Tiled.replace {before after between : List Nat}
    (tiled : Tiled stop b off (before ++ at_off :: after)) (outside : Outside at_off (at_off + de_rec_len b at_off) b c)
    (filled : Tiled (at_off + de_rec_len b at_off) c at_off between) :
    Tiled stop c off (before ++ (between ++ after)) ∧
      live c (before ++ (between ++ after)) = live b before ++ (live c between ++ live b after) := by
  obtain ⟨mid,first,rest⟩ := tiled.split
  obtain - | ⟨_,_,_,last⟩ := rest
  obtain ⟨first',same⟩ := first.congr outside (.inl le_rfl)
  obtain ⟨last',same'⟩ := last.congr outside (.inr le_rfl)
  exact ⟨first'.append (filled.append last'),by rw [live_append,live_append,same,same']⟩

theorem Tiled.at {before after : List Nat} (tiled : Tiled stop b off (before ++ at_off :: after)) :
    DIR_ENTRY_SIZE ≤ de_rec_len b at_off ∧ 4 ∣ de_rec_len b at_off ∧
      (de_inode b at_off ≠ 0 → dir_rec_len (de_name_len b at_off) ≤ de_rec_len b at_off) := by
  obtain ⟨mid,_,rest⟩ := tiled.split
  obtain - | ⟨long,aligned,fits,_⟩ := rest
  exact ⟨long,aligned,fits⟩

/-- The loop over the records visits all in turn. -/
theorem scan_tiled {α : Type} {stop off turns : Nat} (tiled : Tiled stop b off offs)
    (enough : offs.length ≤ turns) (visit : Nat → Option α) : scan stop b visit turns off = offs.findSome? visit := by
  induction tiled generalizing turns with
  | stop =>
    cases turns with
    | zero => rfl
    | succ turns =>
      rw [scan,if_pos (by unfold DIR_ENTRY_SIZE; omega)]
      rfl
  | record long _ _ rest ih =>
    cases turns with
    | zero => simp at enough
    | succ turns =>
      have below := rest.le
      unfold DIR_ENTRY_SIZE at long
      rw [scan,if_neg (by unfold DIR_ENTRY_SIZE; omega),if_neg (by omega),findSome?_cons]
      rw [ih (by simpa using enough)]
      rfl

/-! ### What the loops do to the entries of a block -/

theorem matches_iff (short : name.length < 256) (off : Nat) :
    de_matches b name off = true ↔ de_inode b off ≠ 0 ∧ de_name b off = name := by
  simp only [de_matches,mod_eq_of_lt short,take_length,Bool.and_eq_true,decide_eq_true_eq,and_assoc]
  refine and_congr_right fun _ => ⟨?_,?_⟩
  · rintro ⟨length,same⟩
    rw [de_name,length]
    exact same
  intro same
  have length : de_name_len b off = name.length := by rw [← same,de_name,FileOps.bytes,length_map,length_range]
  refine ⟨length,?_⟩
  rw [← length]
  exact same

theorem find_at_entry (short : name.length < 256) (off : Nat) :
    find_at b name off = (entry b off).bind fun e => if name = e.1 then some e.2 else none := by
  unfold find_at entry
  by_cases deleted : de_inode b off = 0
  · rw [if_pos deleted,if_neg]
    · rfl
    rw [matches_iff short]
    exact fun live => live.1 deleted
  rw [if_neg deleted,bind_some]
  by_cases same : name = de_name b off
  · rw [if_pos same,if_pos ((matches_iff short off).mpr ⟨deleted,same.symm⟩)]
  rw [if_neg same,if_neg]
  rw [matches_iff short]
  exact fun live => same live.2.symm

theorem findSome_find_at (short : name.length < 256) (offs : List Nat) :
    offs.findSome? (find_at b name) = (live b offs).lookup name := by
  induction offs with
  | nil => rfl
  | cons off offs ih =>
    rw [findSome?_cons,find_at_entry short,live,filterMap_cons]
    rcases entry b off with _ | ⟨there,ino⟩
    · exact ih
    by_cases same : name = there
    · subst same
      simp
    have apart : (name == there) = false := by simpa using same
    simp only [bind_some,if_neg same,lookup_cons,apart]
    exact ih

theorem live_init {off ino rec_len file_type : Nat} (small : ino < 2 ^ 32) (nonzero : ino ≠ 0)
    (short : name.length < 256) : live (init_dirent b off ino rec_len name file_type) [off] = [(name,ino)] := by
  simp [live,entry,inode_init _ _ small,name_init _ _ _ _ short,nonzero]

theorem tiled_init {off ino rec_len file_type : Nat} (fits : rec_len < 2 ^ 16)
    (aligned : 4 ∣ rec_len) (room : dir_rec_len name.length ≤ rec_len) (short : name.length < 256) :
    Tiled (off + rec_len) (init_dirent b off ino rec_len name file_type) off [off] := by
  have length := rec_len_init b off ino fits name file_type
  have long : DIR_ENTRY_SIZE ≤ rec_len := by
    unfold dir_rec_len at room
    unfold DIR_ENTRY_SIZE at *
    omega
  refine .record (by rw [length]; exact long) (by rw [length]; exact aligned) ?_ (by rw [length]; exact .stop)
  intro _
  rw [length,name_len_init _ _ _ _ short]
  exact room

theorem rec_len_lt (b : Buffer) (off : Nat) : de_rec_len b off < 2 ^ 16 := load_lt 2 b (off + 4)
theorem dvd_dir_rec_len (n : Nat) : 4 ∣ dir_rec_len n := dvd_mul_left 4 _

theorem split_record {off ino t : Nat} (aligned : 4 ∣ de_rec_len b off)
    (slack : dir_rec_len (de_name_len b off) + dir_rec_len name.length ≤ de_rec_len b off) (short : name.length < 256) :
    let actual_len := dir_rec_len (de_name_len b off)
    let c := init_dirent (store 2 b (off + 4) actual_len) (off + actual_len) ino (de_rec_len b off - actual_len) name t
    Tiled (off + de_rec_len b off) c off [off,off + actual_len] ∧
      (ino < 2 ^ 32 → ino ≠ 0 → live c [off,off + actual_len] = live b [off] ++ [(name,ino)]) ∧
      Outside off (off + de_rec_len b off) b c := by
  intro actual_len c
  have small := rec_len_lt b off
  have length : DIR_ENTRY_SIZE + de_name_len b off ≤ actual_len := by
    unfold actual_len dir_rec_len DIR_ENTRY_SIZE
    omega
  have end_name : DIR_ENTRY_SIZE + name.length ≤ dir_rec_len name.length := by
    unfold dir_rec_len DIR_ENTRY_SIZE
    omega
  have slack : actual_len + dir_rec_len name.length ≤ de_rec_len b off := slack
  -- the new record is written behind the old one
  have behind : Outside (off + actual_len) (off + actual_len + DIR_ENTRY_SIZE + name.length)
    (store 2 b (off + 4) actual_len) c := outside_init_dirent _ _ _ _ _ _
  unfold DIR_ENTRY_SIZE at length end_name behind
  have rec_len : de_rec_len c off = actual_len := by
    rw [de_rec_len,behind.load (by omega),load_store]
    exact mod_eq_of_lt (by omega)
  have inode : de_inode c off = de_inode b off := by
    rw [de_inode,behind.load (by omega),load_store_apart (by omega),de_inode]
  have name_len : de_name_len c off = de_name_len b off := by
    rw [de_name_len,behind.load (by omega),load_store_apart (by omega),de_name_len]
  have same_name : de_name c off = de_name b off := by
    rw [de_name,de_name,name_len,behind.bytes (by omega)]
    exact (outside_store 2 b (off + 4) actual_len).bytes (by omega)
  have whole : off + actual_len + (de_rec_len b off - actual_len) = off + de_rec_len b off := by omega
  have second : Tiled (off + de_rec_len b off) c (off + actual_len) [off + actual_len] := by
    rw [← whole]
    exact tiled_init (by omega) (dvd_sub aligned (dvd_dir_rec_len _)) (by omega) short
  refine ⟨?_,fun low live_ino => ?_,?_⟩
  · refine .record (by rw [rec_len]; unfold DIR_ENTRY_SIZE; omega) (by rw [rec_len]; exact dvd_dir_rec_len _) ?_
      (by rw [rec_len]; exact second)
    intro _
    rw [rec_len,name_len]
  · have here : entry c off = entry b off := by rw [entry,entry,inode,same_name]
    have first : live c [off] = live b [off] := by rw [live,live,filterMap_cons,filterMap_cons,here]; rfl
    have last : live c [off + actual_len] = [(name,ino)] := live_init low live_ino short
    rw [← singleton_append,live_append,first,last]
  · exact ((outside_store 2 b (off + 4) actual_len).wider (by omega) (by omega)).trans (behind.wider (by omega) (by omega))

section
variable {block_size : Nat} {b c : Buffer} {offs : List Nat} {name : List UInt8} {ino file_type : Nat}
variable (tiled : Tiled block_size b 0 offs) (short : name.length < 256)
include tiled short

/-- An entry is added to records that keep tiling the block. -/
theorem add_entry (small : ino < 2 ^ 32) (nonzero : ino ≠ 0)
    (added : offs.findSome? (add_at b ino name file_type) = some c) :
    ∃ offs' before after, Tiled block_size c 0 offs' ∧ live b offs = before ++ after ∧
      live c offs' = before ++ (name,ino) :: after := by
  obtain ⟨first,off,last,rfl,visit,_⟩ := findSome?_eq_some_iff.mp added
  obtain ⟨long,aligned,fits⟩ := tiled.at
  have end_name : DIR_ENTRY_SIZE + name.length ≤ dir_rec_len name.length := by
    unfold dir_rec_len DIR_ENTRY_SIZE
    omega
  simp only [add_at] at visit
  split at visit
  · rename_i deleted
    cases visit
    have outside := (outside_init_dirent b off ino (de_rec_len b off) name file_type).wider (Nat.le_refl off)
      (show off + DIR_ENTRY_SIZE + name.length ≤ off + de_rec_len b off by omega)
    obtain ⟨tiled,entries⟩ := tiled.replace outside (tiled_init (rec_len_lt b off) aligned deleted.2 short)
    refine ⟨_,live b first,live b last,tiled,?_,?_⟩
    · have none_here : live b [off] = [] := by simp [live,entry,deleted.1]
      rw [← singleton_append,live_append,live_append,none_here,nil_append]
    · rw [entries,live_init small nonzero short,singleton_append]
  split at visit
  · rename_i _ slack
    cases visit
    obtain ⟨filled,entries,outside⟩ := @split_record b name off ino file_type aligned slack.2 short
    obtain ⟨tiled,whole⟩ := tiled.replace outside filled
    refine ⟨_,live b first ++ live b [off],live b last,tiled,?_,?_⟩
    · rw [← singleton_append,live_append,live_append,append_assoc]
    rw [whole,entries small nonzero]
    simp
  · contradiction

/-- The first entry of a name is taken out. -/
theorem remove_entry (removed : offs.findSome? (remove_at b name) = some c) :
    ∃ before after old, Tiled block_size c 0 offs ∧ live b offs = before ++ (name,old) :: after ∧
      live c offs = before ++ after := by
  obtain ⟨first,off,last,rfl,visit,_⟩ := findSome?_eq_some_iff.mp removed
  obtain ⟨long,aligned,fits⟩ := tiled.at
  unfold DIR_ENTRY_SIZE at long
  obtain ⟨found,same⟩ := Option.ite_none_right_eq_some.mp visit
  cases same
  obtain ⟨nonzero,rfl⟩ := (matches_iff short off).mp found
  have outside := (outside_store 4 b off 0).wider (Nat.le_refl off) (show off + 4 ≤ off + de_rec_len b off by omega)
  have rec_len : de_rec_len (store 4 b off 0) off = de_rec_len b off := load_store_apart (by omega)
  have gone : de_inode (store 4 b off 0) off = 0 := by rw [de_inode,load_store]; rfl
  have filled : Tiled (off + de_rec_len b off) (store 4 b off 0) off [off] :=
    .record (by rw [rec_len]; exact long) (by rw [rec_len]; exact aligned) (fun live => absurd gone live)
      (by rw [rec_len]; exact .stop)
  obtain ⟨tiled,entries⟩ := tiled.replace outside filled
  refine ⟨live b first,live b last,de_inode b off,tiled,?_,?_⟩
  · have here : live b [off] = [(de_name b off,de_inode b off)] := by simp [live,entry,nonzero]
    rw [← singleton_append,live_append,live_append,here,singleton_append]
  have none_here : live (store 4 b off 0) [off] = [] := by simp [live,entry,gone]
  rw [none_here,nil_append] at entries
  exact entries

omit tiled in
theorem remove_none (missed : offs.findSome? (remove_at b name) = none) : ∀ e ∈ live b offs, e.1 ≠ name := by
  intro e there same
  obtain ⟨off,inside,here⟩ := mem_filterMap.mp there
  have passed := findSome?_eq_none_iff.mp missed off inside
  unfold entry at here
  split at here
  · contradiction
  rename_i nonzero
  cases here
  rw [remove_at,if_pos ((matches_iff short off).mpr ⟨nonzero,same⟩)] at passed
  contradiction

end

end ArmOS.DirRecords

