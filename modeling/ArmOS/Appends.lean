import ArmOS.SharedFiles

/-!
Descriptions opened with `O_APPEND`. The flag moves the offset to the end of the
file once, when the description is opened; `ext2_file_write` goes by the offset
alone, so a description appends only while its offset is still the size.
-/
namespace ArmOS.Appends
open Volumes FileOps FileData SharedFiles Runs Function Option
open Allocator (sample_fs)
open FileArrays (array_op replace contents_length)

/-- `install_open_file` of the file `ino` with `O_APPEND`, or a write. -/
def appends (ino : Nat) (s : System) : Call → Bool
  | .open_file _ i offset _ => i = ino ∧ offset = (read_disk_inode s.v ino).i_size
  | .file _ (.write _) => true
  | _ => false

/-- The offset of the description that is used is the size of the file. -/
def at_end (ino : Nat) (s : System) : Call → Bool
  | .file d _ => (s.opens d).all fun file => file.offset = (read_disk_inode s.v ino).i_size
  | _ => true
def orderly (fs : Fs) (ino : Nat) (s : System) (call : Call) : Bool :=
  appends ino s call && SharedFiles.orderly fs s call && at_end ino s call
def Step (fs : Fs) (F : List Nat) (ino : Nat) (s : System) (l : Label) (t : System) : Prop :=
  SharedFiles.Step fs F s l t ∧ appends ino s l.call = true
def Careful (fs : Fs) (F : List Nat) (ino : Nat) (s : System) (l : Label) (t : System) : Prop :=
  SharedFiles.Step fs F s l t ∧ orderly fs ino s l.call = true

/-- The bytes that a call says it has written. -/
def written (l : Label) : List UInt8 :=
  match l.call with
  | .file _ (.write src) => src.take l.result.1.toNat
  | _ => []

/-- The descriptions of a file when one of them is opened or moved. -/
theorem update_only {opens : Nat → Option Opening} {ino d : Nat} {new : Opening}
    (only : ∀ e o, opens e = some o → o.ino = ino) (own : new.ino = ino) (e : Nat) (o : Opening)
    (there : update opens d (some new) e = some o) : o.ino = ino := by
  by_cases here : e = d
  · subst here
    rw [update_self] at there
    exact some.inj there ▸ own
  rw [update_of_ne here] at there
  exact only e o there

/-- Writes at the end of the array extend it. -/
theorem arrays_append {a b : Arrays} {l : Label} {ino : Nat} (only : ∀ d o, a.opens d = some o → o.ino = ino)
    (taken : ArraysStep a l b)
    (adds : (∃ d offset rdonly, l.call = .open_file d ino offset rdonly) ∨
      ∃ d src, l.call = .file d (.write src) ∧ ∀ o, a.opens d = some o → o.pos = (a.bytes ino).length) :
    b.bytes ino = a.bytes ino ++ written l ∧ ∀ d o, b.opens d = some o → o.ino = ino := by
  obtain ⟨call,result⟩ := l
  rcases adds with ⟨d,offset,rdonly,rfl⟩ | ⟨d,src,rfl,last⟩
  · obtain ⟨_,same⟩ := ite_none_right_eq_some.mp taken
    cases same
    exact ⟨(List.append_nil _).symm,update_only only rfl⟩
  · obtain ⟨o,there,same⟩ := map_eq_some_iff.mp taken
    cases same
    have own := only d o there
    subst own
    refine ⟨?_,update_only only rfl⟩
    dsimp only [written]
    rw [update_self,last o there]
    simp only [array_op]
    split
    · simp [EBADF]
    split
    · simp
    rw [if_neg (lt_irrefl _)]
    simp [replace]

variable {fs : Fs} {other : Nat → Prop} {F : List Nat} {ino : Nat} {first s : System} {labels : List Label}

theorem adds_of_orderly {call : Call} (listed : ino ∈ F) (careful : orderly fs ino s call = true) :
    (∃ d offset rdonly, call = .open_file d ino offset rdonly) ∨
      ∃ d src, call = .file d (.write src) ∧
        ∀ o, (arrays fs F s).opens d = some o → o.pos = ((arrays fs F s).bytes ino).length := by
  simp only [orderly,Bool.and_eq_true] at careful
  obtain ⟨⟨kind,_⟩,last⟩ := careful
  cases call with
  | open_file d i offset rdonly => exact .inl ⟨d,offset,rdonly,by rw [(of_decide_eq_true kind).1]⟩
  | file d op =>
    cases op with
    | write src =>
      refine .inr ⟨d,src,rfl,fun o there => ?_⟩
      obtain ⟨file,opened,rfl⟩ := map_eq_some_iff.mp there
      have size : ((arrays fs F s).bytes ino).length = (read_disk_inode s.v ino).i_size := by
        simp [arrays,listed,contents_length]
      rw [size]
      simpa [at_end,opened] using last
    | _ => cases kind
  | _ => cases kind

/-- What is written through descriptions that are at the end of the file, with
    copies of its inode that are fresh, is added to the file, in order. -/
theorem appends_extend_file (pos : 0 < fs.block_size) (sectors : fs.sectors_per_block ≠ 0)
    (sound : Sound fs other F first) (listed : ino ∈ F) (only : ∀ d file, first.opens d = some file → file.ino = ino)
    (run : Run (Careful fs F ino) first labels s) :
    contents fs s.v.store.read (read_disk_inode s.v ino) =
        contents fs first.v.store.read (read_disk_inode first.v ino) ++ labels.flatMap written ∧
      (read_disk_inode s.v ino).i_size = (read_disk_inode first.v ino).i_size + (labels.flatMap written).length := by
  have bytes : ∀ s : System, (arrays fs F s).bytes ino = contents fs s.v.store.read (read_disk_inode s.v ino) :=
    fun s => if_pos listed
  replace only : ∀ d o, (arrays fs F first).opens d = some o → o.ino = ino := by
    intro d o there
    obtain ⟨file,opened,rfl⟩ := Option.map_eq_some_iff.mp there
    exact only d file opened
  have extended : (arrays fs F s).bytes ino = (arrays fs F first).bytes ino ++ labels.flatMap written := by
    -- the descriptions stay with the file, and each step adds its bytes
    induction run with
    | done s => simp
    | next taken _ ih =>
      have adds := adds_of_orderly listed taken.2
      obtain ⟨matched,sound⟩ := sound.step pos sectors ⟨taken.1,(Bool.and_eq_true _ _).mp
        ((Bool.and_eq_true _ _).mp taken.2).1 |>.2⟩
      obtain ⟨more,only⟩ := arrays_append only matched adds
      rw [ih sound only,more,List.flatMap_cons,List.append_assoc]
  rw [bytes,bytes] at extended
  refine ⟨extended,?_⟩
  have lengths := congrArg List.length extended
  rwa [List.length_append,contents_length,contents_length] at lengths

/-- The second description is opened once the first has written. -/
def in_turn : List Label :=
  [⟨.open_file 0 2 0 false,0,[]⟩,⟨.file 0 (.write [1,2]),2,[]⟩,⟨.open_file 1 2 2 false,0,[]⟩,
    ⟨.file 1 (.write [3]),1,[]⟩,⟨.file 1 (.write [4]),1,[]⟩]

theorem appends_in_turn : ∃ s, Run (Careful sample_fs [2,3] 2) sample_files in_turn s ∧
    contents sample_fs s.v.store.read (read_disk_inode s.v 2) = [1,2,3,4] := by
  have found : (in_turn.foldlM (fun (s : System) l => ((step sample_fs [2,3] s l.call).filter fun next =>
      next.1 = l.result && orderly sample_fs 2 s l.call).map Prod.snd) sample_files).any (fun _ => true) = true := by
    decide +kernel
  obtain ⟨s,run,_⟩ := run_of_results found
  exact ⟨s,run,(appends_extend_file (by decide) (by decide) sample_files_sound (by decide) (fun _ _ opened => nomatch opened)
    run).1⟩

/-- Two descriptions of an empty file write a byte each. -/
def at_once : List Label :=
  [⟨.open_file 0 2 0 false,0,[]⟩,⟨.open_file 1 2 0 false,0,[]⟩,⟨.file 0 (.write [1]),1,[]⟩,⟨.file 1 (.write [2]),1,[]⟩]

/-- The second byte takes the place of the first. -/
theorem append_overwritten : ∃ s, Run (Step sample_fs [2,3] 2) sample_files at_once s ∧ at_once.flatMap written = [1,2] ∧
    contents sample_fs s.v.store.read (read_disk_inode s.v 2) = [2] := by
  have found : (at_once.foldlM (fun (s : System) l => ((step sample_fs [2,3] s l.call).filter fun next =>
      next.1 = l.result && appends 2 s l.call).map Prod.snd) sample_files).any
      (fun s : System => contents sample_fs s.v.store.read (read_disk_inode s.v 2) = [2]) = true := by
    decide +kernel
  obtain ⟨s,run,last⟩ := run_of_results found
  exact ⟨s,run,rfl,of_decide_eq_true last⟩

end ArmOS.Appends

