import ArmOS.FileArrays

/-!
Several open descriptions of the same files. Each keeps its own copy of the disk inode,
which `write` queues as a whole, so a description is good for anything only while its
copy has the size and the blocks of the stored inode.
-/
namespace ArmOS.SharedFiles
open Bytes Disk Volumes BlockMap Space FileSpace FileOps FileData Directories FileArrays Runs Function Option Prod
open Allocator (block_used OnVolume Reserved Consistent sample_fs sample_blocks sample_volume sample_consistent)

/-! ### Descriptions -/

structure System where
  v : Volume
  opens : Nat → Option File

inductive Call
  | open_file (d ino offset : Nat) (rdonly : Bool)
  | truncate_inode (ino : Nat)
  | update_inode_metadata (ino mode uid gid : Nat)
  | file (d : Nat) (op : Op)

def update_inode_metadata (v : Volume) (ino mode uid gid : Nat) : Volume :=
  write_disk_inode v ino { read_disk_inode v ino with i_mode := mode, i_uid := uid, i_gid := gid }
def regular (di : Inode) : Bool := !S_ISDIR di.i_mode && !S_ISLNK di.i_mode

/-- A call and what it returns; `O_TRUNC` truncates first. -/
def step (fs : Fs) (F : List Nat) (s : System) : Call → Option ((Int × List UInt8) × System)
  | .open_file d ino offset rdonly =>
    let di := read_disk_inode s.v ino
    if ino ∈ F ∧ regular di ∧ s.opens d = none then
      some ((0,[]),{ s with opens := update s.opens d (some ⟨ino,di,offset,rdonly⟩) })
    else none
  | .truncate_inode ino =>
    if ino ∈ F ∧ regular (read_disk_inode s.v ino) then
      let result := truncate_inode_data fs s.v ino false
      some ((result.1,[]),{ s with v := result.2 })
    else none
  | .update_inode_metadata ino mode uid gid =>
    if ino ∈ F ∧ file_type mode = file_type (read_disk_inode s.v ino).i_mode then
      some ((0,[]),{ s with v := update_inode_metadata s.v ino mode uid gid })
    else none
  | .file d op => (s.opens d).map fun file =>
    let result := file_op fs ⟨s.v,file⟩ op
    (result.1,⟨result.2.v,update s.opens d (some result.2.file)⟩)

/-- The copy has the size and the blocks of the stored inode. -/
def fresh (v : Volume) (file : File) : Bool :=
  file.di.i_size = (read_disk_inode v file.ino).i_size ∧ file.di.i_blocks = (read_disk_inode v file.ino).i_blocks ∧
    ∀ i < (15 : Nat), file.di.i_block i = (read_disk_inode v file.ino).i_block i
def uses_inode : Op → Bool
  | .lseek _ .SEEK_SET => false
  | .lseek _ .SEEK_CUR => false
  | _ => true

/-- There is space, offsets fit, and the copy used is fresh. -/
def orderly (fs : Fs) (s : System) : Call → Bool
  | .file d op => (s.opens d).all fun file => ready fs ⟨s.v,file⟩ op && (!uses_inode op || fresh s.v file)
  | _ => true
structure Label where
  call : Call
  result : Int × List UInt8
def Step (fs : Fs) (F : List Nat) (s : System) (l : Label) (t : System) : Prop := step fs F s l.call = some (l.result,t)
def Careful (fs : Fs) (F : List Nat) (s : System) (l : Label) (t : System) : Prop :=
  Step fs F s l t ∧ orderly fs s l.call = true

/-! ### Arrays -/

structure Opening where
  (ino pos : Nat)
  rdonly : Bool

/-- Files as arrays of bytes, descriptions as offsets. -/
structure Arrays where
  bytes : Nat → List UInt8
  opens : Nat → Option Opening

def arrays_step (a : Arrays) : Call → Option ((Int × List UInt8) × Arrays)
  | .open_file d ino offset rdonly =>
    if a.opens d = none then some ((0,[]),{ a with opens := update a.opens d (some ⟨ino,offset,rdonly⟩) }) else none
  | .truncate_inode ino => some ((0,[]),{ a with bytes := update a.bytes ino [] })
  | .update_inode_metadata _ _ _ _ => some ((0,[]),a)
  | .file d op => (a.opens d).map fun o =>
    let result := array_op o.rdonly ⟨a.bytes o.ino,o.pos⟩ op
    (result.1,⟨update a.bytes o.ino result.2.bytes,update a.opens d (some { o with pos := result.2.pos })⟩)

def ArraysStep (a : Arrays) (l : Label) (b : Arrays) : Prop := arrays_step a l.call = some (l.result,b)
def arrays (fs : Fs) (F : List Nat) (s : System) : Arrays where
  bytes x := if x ∈ F then contents fs s.v.store.read (read_disk_inode s.v x) else []
  opens d := (s.opens d).map fun file => ⟨file.ino,file.offset,file.rdonly⟩

/-- Stored inodes own the blocks; descriptions are of regular files. -/
structure Sound (fs : Fs) (other : Nat → Prop) (F : List Nat) (s : System) : Prop where
  files : Files fs other F s.v (read_disk_inode s.v)
  opens : ∀ d file, s.opens d = some file → file.ino ∈ F ∧ regular file.di = true ∧
    file_type file.di.i_mode = file_type (read_disk_inode s.v file.ino).i_mode

variable {fs : Fs} {other : Nat → Prop} {F : List Nat} {s t : System} {v w : Volume} {file file' : File}

/-! ### What an operation does -/

theorem contents_current {read : Nat → Buffer} {di stored : Inode} (current : Current di stored) :
    contents fs read di = contents fs read stored := by
  rw [contents,contents,current.i_size]
  exact slice_congr fun k _ _ => congrFun (current.data read _) _
variable {di : Inode}

section
variable (effect : Effect fs other F (update (read_disk_inode v) file.ino file.di) v file w file')
include effect

theorem effect_current (x : Nat) : Current (update (read_disk_inode v) file.ino file'.di x) (read_disk_inode w x) := by
  by_cases here : x = file.ino
  · subst here
    rw [update_self]
    exact effect.stored
  rw [update_of_ne here,effect.stored_others x here]
  exact Current.refl _

theorem effect_files : Files fs other F w (read_disk_inode w) := by
  have files := effect.files
  rw [update_idem] at files
  exact files_current files fun x _ => effect_current effect x

theorem effect_contents : ∀ x ∈ F, contents fs w.store.read (read_disk_inode w x) =
    if x = file.ino then contents fs w.store.read file'.di else contents fs v.store.read (read_disk_inode v x) := by
  intro x listed
  by_cases here : x = file.ino
  · subst here
    rw [if_pos rfl]
    exact (contents_current effect.stored).symm
  rw [if_neg here,effect.stored_others x here]
  refine slice_congr fun off _ _ => ?_
  have same := effect.others x listed here off
  rw [update_of_ne here] at same
  exact same

theorem effect_kind (kind : file_type file.di.i_mode = file_type (read_disk_inode v file.ino).i_mode) (x : Nat) :
    file_type (read_disk_inode w x).i_mode = file_type (read_disk_inode v x).i_mode := by
  by_cases here : x = file.ino
  · subst here
    rw [← effect.stored.kind,effect.kind,kind]
  · rw [effect.stored_others x here]

end

theorem regular_iff : regular di = true ↔ S_ISDIR di.i_mode = false ∧ S_ISLNK di.i_mode = false := by
  simp [regular]
theorem regular_kind {a b : Inode} (same : file_type a.i_mode = file_type b.i_mode) : regular a = regular b := by
  rw [regular,regular,S_ISDIR,S_ISDIR,S_ISLNK,S_ISLNK,same]

theorem current_of_fresh (is_fresh : fresh v file = true)
    (kind : file_type file.di.i_mode = file_type (read_disk_inode v file.ino).i_mode) :
    Current file.di (read_disk_inode v file.ino) := by
  obtain ⟨size,blocks,pointers⟩ := of_decide_eq_true is_fresh
  exact ⟨size,blocks,pointers,kind⟩

variable {d : Nat}

/-- A fresh description is an open file as it would be alone. -/
theorem Sound.opened (sound : Sound fs other F s) (there : s.opens d = some file) (is_fresh : fresh s.v file = true) :
    Opened fs other F (update (read_disk_inode s.v) file.ino file.di) ⟨s.v,file⟩ := by
  obtain ⟨member,kind,same⟩ := sound.opens d file there
  have current := current_of_fresh is_fresh same
  obtain ⟨not_dir,not_link⟩ := regular_iff.mp kind
  refine ⟨files_current sound.files fun x _ => ?_,update_self _ _ _,member,current,not_dir,not_link⟩
  by_cases here : x = file.ino
  · subst here
    rw [update_self]
    exact ⟨current.i_size.symm,current.i_blocks.symm,fun i low => (current.i_block i low).symm,current.kind.symm⟩
  rw [update_of_ne here]
  exact Current.refl _

theorem Sound.effect (sound : Sound fs other F s) (there : s.opens d = some file)
    (effect : Effect fs other F (update (read_disk_inode s.v) file.ino file.di) s.v file w file') :
    Sound fs other F ⟨w,update s.opens d (some file')⟩ := by
  obtain ⟨member,kind,same⟩ := sound.opens d file there
  have kinds := effect_kind effect same
  refine ⟨effect_files effect,fun e f listed => ?_⟩
  by_cases here : e = d
  · subst here
    dsimp only at listed
    rw [update_self] at listed
    cases listed
    rw [effect.ino,regular_kind effect.kind,kinds,effect.kind]
    exact ⟨member,kind,same⟩
  · grind [opens]

theorem arrays_effect (member : file.ino ∈ F)
    (effect : Effect fs other F (update (read_disk_inode s.v) file.ino file.di) s.v file w file') :
    arrays fs F ⟨w,update s.opens d (some file')⟩ =
      ⟨update (arrays fs F s).bytes file.ino (contents fs w.store.read file'.di),
        update (arrays fs F s).opens d (some ⟨file.ino,file'.offset,file.rdonly⟩)⟩ := by
  have bytes := effect_contents effect
  simp only [arrays,Arrays.mk.injEq]
  refine ⟨funext fun x => ?_,funext fun e => ?_⟩
  · grind
  · grind [Effect.ino,Effect.rdonly]

/-- Moving an offset without looking at the inode. -/
theorem lseek_only {op : Op} (unused : uses_inode op = false) (fits : ready fs ⟨v,file⟩ op = true) :
    ∃ code offset, file_op fs ⟨v,file⟩ op = (code,⟨v,{ file with offset := offset }⟩) ∧
      ∀ bytes, array_op file.rdonly ⟨bytes,file.offset⟩ op = (code,⟨bytes,offset⟩) := by
  have moved : ∀ new_pos : Int, (if new_pos < 0 then (-EINVAL,file)
        else (new_pos,{ file with offset := Words.wrap32 new_pos.toNat })).1 < 2 ^ 32 →
      ∃ code offset, (if new_pos < 0 then (-EINVAL,file) else (new_pos,{ file with offset := Words.wrap32 new_pos.toNat })) =
        (code,{ file with offset := offset }) ∧ ∀ bytes : List UInt8,
        (if new_pos < 0 then ((-EINVAL,([] : List UInt8)),(⟨bytes,file.offset⟩ : Content))
          else ((new_pos,[]),⟨bytes,new_pos.toNat⟩)) = ((code,[]),⟨bytes,offset⟩) := by
    intro new_pos small
    by_cases negative : new_pos < 0
    · exact ⟨-EINVAL,file.offset,if_pos negative,fun _ => if_pos negative⟩
    rw [if_neg negative] at small ⊢
    refine ⟨new_pos,new_pos.toNat,?_,fun _ => if_neg negative⟩
    rw [Words.wrap32_of_lt (by omega)]
  cases op with
  | lseek offset whence =>
    have small := of_decide_eq_true fits
    cases whence with
    | SEEK_SET =>
      obtain ⟨code,offset',call,same⟩ := moved offset small
      exact ⟨(code,[]),offset',by simp only [file_op,file_lseek,call],same⟩
    | SEEK_CUR =>
      obtain ⟨code,offset',call,same⟩ := moved (file.offset + offset) small
      exact ⟨(code,[]),offset',by simp only [file_op,file_lseek,call],same⟩
    | SEEK_END => cases unused
  | _ => cases unused

/-! ### Steps -/

section
variable (sound : Sound fs other F s)
include sound

variable {result : Int × List UInt8}

theorem Sound.open_file {d ino offset : Nat} {rdonly : Bool}
    (taken : step fs F s (.open_file d ino offset rdonly) = some (result,t)) :
    arrays_step (arrays fs F s) (.open_file d ino offset rdonly) = some (result,arrays fs F t) ∧ Sound fs other F t := by
  obtain ⟨⟨member,kind,free⟩,same⟩ := ite_none_right_eq_some.mp taken
  cases same
  have unused : (arrays fs F s).opens d = none := by simp [arrays,free]
  refine ⟨?_,sound.files,fun e f listed => ?_⟩
  · rw [arrays_step,if_pos unused]
    simp only [arrays,some.injEq,mk.injEq,Arrays.mk.injEq,true_and]
    funext e
    rw [update_apply,update_apply]
    split
    · rfl
    · rfl
  · grind [opens]

theorem Sound.truncate_inode {ino : Nat} (sectors : fs.sectors_per_block ≠ 0)
    (taken : step fs F s (.truncate_inode ino) = some (result,t)) :
    arrays_step (arrays fs F s) (.truncate_inode ino) = some (result,arrays fs F t) ∧ Sound fs other F t := by
  obtain ⟨⟨member,kind⟩,same⟩ := ite_none_right_eq_some.mp taken
  obtain ⟨not_dir,not_link⟩ := regular_iff.mp kind
  let file : File := ⟨ino,read_disk_inode s.v ino,0,false⟩
  obtain ⟨w,call,cut⟩ := @empty_spec fs other F s.v (update (read_disk_inode s.v) file.ino file.di) file sectors
    (by rw [update_eq_self]; exact sound.files) member (update_self _ _ _) (Current.refl _) not_dir not_link
  have call : truncate_inode_data fs s.v ino false = (0,w) := call
  simp only [call] at same
  cases same
  have effect := cut.toEffect
  have bytes := effect_contents effect
  have kinds := effect_kind effect rfl
  have emptied := contents_cut (Nat.zero_le _) cut.size cut.bytes
  refine ⟨?_,effect_files effect,fun e f listed => ?_⟩
  · simp only [arrays_step,arrays,some.injEq,mk.injEq,Arrays.mk.injEq,and_true,true_and]
    grind
  · grind [opens]

theorem Sound.update_inode_metadata {ino mode uid gid : Nat}
    (taken : step fs F s (.update_inode_metadata ino mode uid gid) = some (result,t)) :
    arrays_step (arrays fs F s) (.update_inode_metadata ino mode uid gid) = some (result,arrays fs F t) ∧
      Sound fs other F t := by
  obtain ⟨⟨member,kind⟩,same⟩ := ite_none_right_eq_some.mp taken
  cases same
  have current : ∀ x, Current (read_disk_inode s.v x)
      (read_disk_inode (update_inode_metadata s.v ino mode uid gid) x) := by
    intro x
    rw [update_inode_metadata,stored_write]
    split
    · rename_i here
      subst here
      exact ⟨rfl,rfl,fun _ _ => rfl,kind.symm⟩
    · exact Current.refl _
  refine ⟨?_,files_current (files_write_inode sound.files ino _) fun x _ => current x,fun e f listed => ?_⟩
  · simp only [arrays_step,arrays,some.injEq,mk.injEq,Arrays.mk.injEq,and_true,true_and]
    funext x
    split
    · exact contents_current (current x)
    · rfl
  · grind [opens,Current.kind]

theorem Sound.file_call {op : Op} (pos : 0 < fs.block_size) (sectors : fs.sectors_per_block ≠ 0)
    (taken : step fs F s (.file d op) = some (result,t)) (careful : orderly fs s (.file d op) = true) :
    arrays_step (arrays fs F s) (.file d op) = some (result,arrays fs F t) ∧ Sound fs other F t := by
  obtain ⟨file,there,same⟩ := map_eq_some_iff.mp taken
  cases same
  obtain ⟨fits,fresh_used⟩ : ready fs ⟨s.v,file⟩ op = true ∧ (uses_inode op = false ∨ fresh s.v file = true) := by
    simpa [orderly,there] using careful
  obtain ⟨member,kind,same⟩ := sound.opens d file there
  have opening : (arrays fs F s).opens d = some ⟨file.ino,file.offset,file.rdonly⟩ := by simp [arrays,there]
  have bytes : (arrays fs F s).bytes file.ino = contents fs s.v.store.read (read_disk_inode s.v file.ino) := if_pos member
  by_cases is_fresh : fresh s.v file = true
  · have opened := sound.opened there is_fresh
    obtain ⟨same_op,effect⟩ := op_matches opened pos sectors fits
    have current := @contents_current fs s.v.store.read _ _ (current_of_fresh is_fresh same)
    refine ⟨?_,sound.effect there effect⟩
    rw [arrays_effect member effect,arrays_step,opening,map_some,bytes,← current]
    have same_op : array_op file.rdonly ⟨contents fs s.v.store.read file.di,file.offset⟩ op = _ := same_op
    rw [same_op]
    rfl
  -- only the offset is moved
  obtain ⟨code,offset,call,moved⟩ := lseek_only (fresh_used.resolve_right is_fresh) fits
  simp only [call]
  refine ⟨?_,sound.files,fun e f listed => ?_⟩
  · rw [arrays_step,opening,map_some,moved]
    simp only [update_eq_self,arrays,some.injEq,mk.injEq,Arrays.mk.injEq,true_and]
    funext e
    rw [update_apply,update_apply]
    split
    · rfl
    · rfl
  · grind [opens]

end

theorem Sound.step {l : Label} (pos : 0 < fs.block_size) (sectors : fs.sectors_per_block ≠ 0) (sound : Sound fs other F s)
    (taken : Careful fs F s l t) : ArraysStep (arrays fs F s) l (arrays fs F t) ∧ Sound fs other F t := by
  obtain ⟨call,result⟩ := l
  obtain ⟨taken,careful⟩ := taken
  cases call with
  | open_file d ino offset rdonly => exact sound.open_file taken
  | truncate_inode ino => exact sound.truncate_inode sectors taken
  | update_inode_metadata ino mode uid gid => exact sound.update_inode_metadata taken
  | file d op => exact sound.file_call pos sectors taken careful

/-- Calls through descriptions with fresh copies of the inode return what they return
    on arrays that all share, and no block belongs to two files. -/
theorem shared_files_are_arrays {first : System} {labels : List Label} (pos : 0 < fs.block_size)
    (sectors : fs.sectors_per_block ≠ 0) (sound : Sound fs other F first) (run : Run (Careful fs F) first labels s) :
    Run ArraysStep (arrays fs F first) labels (arrays fs F s) ∧
      (∀ n, OnVolume fs n → (block_used fs s.v n = true ↔ Reserved fs s.v n ∨ other n ∨
        n ∈ nonzero (pointers s.v.store.read (read_disk_inode s.v)) (keys fs F))) ∧
      (nonzero (pointers s.v.store.read (read_disk_inode s.v)) (keys fs F)).Nodup := by
  let R (s : System) (a : Arrays) : Prop := Sound fs other F s ∧ arrays fs F s = a
  have kept : ∀ s l t a, R s a → Careful fs F s l t → ∃ b, ArraysStep a l b ∧ R t b := by
    rintro s l t _ ⟨sound,rfl⟩ taken
    obtain ⟨same,next⟩ := sound.step pos sectors taken
    exact ⟨_,same,next,rfl⟩
  obtain ⟨_,same,last,rfl⟩ := run.simulate kept ⟨sound,rfl⟩
  exact ⟨same,last.files.marked,last.files.once⟩

/-- A volume with two empty files, and no description yet. -/
def sample_files : System :=
  let inodes := fun ino => if ino = 2 ∨ ino = 3 then { Inode.zero with i_mode := 0x81a4 } else Inode.zero
  ⟨{ sample_volume with
      store := { sample_volume.store with device := ⟨sample_blocks,inodes⟩ }
      pending := [none,none] },fun _ => none⟩

theorem sample_files_sound :
    Sound sample_fs (fun n => block_used sample_fs sample_files.v n = true) [2,3] sample_files := by
  have consistent : Consistent sample_fs sample_files.v := { sample_consistent with }
  have empty : ∀ x ∈ [2,3], read_disk_inode sample_files.v x = { Inode.zero with i_mode := 0x81a4 } := by
    intro x listed
    rcases List.mem_pair.mp listed with rfl | rfl
    · rfl
    · rfl
  refine ⟨empty_files consistent (by decide) (fun x listed i => ?_) (fun x listed => ?_) (by decide),
      fun d file there => nomatch there⟩
  · rw [empty x listed]
    rfl
  rw [empty x listed]
  rfl

def sample_labels : List Label :=
  [⟨.open_file 0 2 0 false,0,[]⟩,⟨.file 0 (.write [1,2]),2,[]⟩,⟨.open_file 1 2 0 false,0,[]⟩,
    ⟨.update_inode_metadata 2 0x8180 7 7,0,[]⟩,⟨.file 1 (.read 5),2,[1,2]⟩,⟨.file 1 (.write [3]),1,[]⟩,
    ⟨.file 0 (.lseek 1 .SEEK_SET),1,[]⟩,⟨.open_file 2 2 0 true,0,[]⟩,⟨.file 2 (.read 5),3,[1,2,3]⟩]

/-- A run whose results are computed and compared. -/
theorem run_of_results {labels : List Label} {first : System} {check : System → Call → Bool} {P : System → Bool}
    (found : (labels.foldlM (fun (s : System) l => ((step fs F s l.call).filter fun next =>
      next.1 = l.result && check s l.call).map snd) first).any P = true) :
    ∃ s, Run (fun s l t => Step fs F s l t ∧ check s l.call = true) first labels s ∧ P s = true := by
  obtain ⟨s,run,holds⟩ := Run.ends found
  refine ⟨s,run.widen fun s l t taken => ?_,holds⟩
  obtain ⟨⟨result,u⟩,there,rfl⟩ := map_eq_some_iff.mp taken
  obtain ⟨call,passed⟩ := filter_eq_some_iff.mp there
  obtain ⟨same,checked⟩ := (Bool.and_eq_true _ _).mp passed
  obtain rfl : result = l.result := of_decide_eq_true same
  exact ⟨call,checked⟩

theorem shared_files_are_arrays_sample : ∃ s, Run (Careful sample_fs [2,3]) sample_files sample_labels s ∧
    Run ArraysStep (arrays sample_fs [2,3] sample_files) sample_labels (arrays sample_fs [2,3] s) := by
  have found : (sample_labels.foldlM (fun (s : System) l => ((step sample_fs [2,3] s l.call).filter fun next =>
      next.1 = l.result && orderly sample_fs s l.call).map Prod.snd) sample_files).any (fun _ => true) = true := by
    decide +kernel
  obtain ⟨s,run,_⟩ := run_of_results found
  exact ⟨s,run,(shared_files_are_arrays (by decide) (by decide) sample_files_sound run).1⟩

/-- Two descriptions of a file, opened before the first write. -/
def stale_labels : List Label :=
  [⟨.open_file 0 2 0 false,0,[]⟩,⟨.open_file 1 2 0 false,0,[]⟩,⟨.file 0 (.write [1]),1,[]⟩,⟨.file 1 (.read 9),0,[]⟩,
    ⟨.file 1 (.write [2]),1,[]⟩]

/-- A byte written through one description is not read through another with the old
    size, whose write then takes its block. -/
theorem stale_copy_loses_write : ∃ s, Run (Step sample_fs [2,3]) sample_files stale_labels s ∧
    block_used sample_fs sample_files.v 6 = false ∧ block_used sample_fs s.v 6 = true ∧
    ∀ ino ∈ ([2,3] : List Nat), ∀ i < (15 : Nat), (read_disk_inode s.v ino).i_block i ≠ 6 ∧
      (12 ≤ i → (read_disk_inode s.v ino).i_block i = 0) := by
  have found : (stale_labels.foldlM (fun (s : System) l => ((step sample_fs [2,3] s l.call).filter fun next =>
      next.1 = l.result && true).map Prod.snd) sample_files).any (fun s : System =>
        block_used sample_fs sample_files.v 6 = false ∧ block_used sample_fs s.v 6 = true ∧
        ∀ ino ∈ ([2,3] : List Nat), ∀ i < (15 : Nat), (read_disk_inode s.v ino).i_block i ≠ 6 ∧
          (12 ≤ i → (read_disk_inode s.v ino).i_block i = 0)) = true := by
    decide +kernel
  obtain ⟨s,run,ends⟩ := @run_of_results sample_fs [2,3] _ _ (fun _ _ => true) _ found
  exact ⟨s,run.widen fun _ _ _ taken => taken.1,of_decide_eq_true ends⟩

end ArmOS.SharedFiles

