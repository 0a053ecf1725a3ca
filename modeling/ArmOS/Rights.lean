import ArmOS.Endpoints

/-!
Descriptors passed over a local socket. A message's record stands at the offset of its first
byte; a receive detaches the records it has read past, and installs 16 descriptors of them.
-/
namespace ArmOS.Rights
open Runs List
open Endpoints (ARMOS_SOCKET_BUFFER_SIZE)

def ARMOS_SOCKET_RIGHTS_MAX : Nat := 16
def ARMOS_SOCKET_CONTROL_MAX : Nat := 64

structure Control where
  stream_offset : Nat
  files : List Nat

/-- One direction, with the files passed and those the receiver has got. The sequences
    are counted past their 64-bit words. -/
structure Channel where
  (read_sequence write_sequence : Nat)
  control : List Control
  (passed installed : List Nat)

inductive Label
  | write (files : List Nat) (length : Nat)
  | receive (length : Nat)

def Channel.read_to (c : Channel) (length : Nat) : Nat := min c.write_sequence (c.read_sequence + length)

/-- Whether `armos_socket_detach_control_locked` takes the record; it compares the words. -/
def Channel.early (c : Channel) (length : Nat) (control : Control) : Bool :=
  control.stream_offset % 2 ^ 64 < c.read_to length % 2 ^ 64

/-- Every file finds a free slot. -/
def armos_socket_install_control (control : List Control) (capacity : Nat) : List Nat :=
  (control.flatMap Control.files).take (min capacity ARMOS_SOCKET_RIGHTS_MAX)

/-- A section of `armos_socket_channel_write`, the first of a message with its files, and
    a receive with room for 16 descriptors. -/
def step (c : Channel) : Label → Option Channel
  | .write files length =>
    if files.length ≤ ARMOS_SOCKET_RIGHTS_MAX ∧ (files = [] ∨ c.control.length < ARMOS_SOCKET_CONTROL_MAX) ∧
        0 < length ∧ c.write_sequence + length ≤ c.read_sequence + ARMOS_SOCKET_BUFFER_SIZE then
      some { c with
        write_sequence := c.write_sequence + length
        control := if files = [] then c.control else c.control ++ [⟨c.write_sequence,files⟩]
        passed := c.passed ++ files }
    else none
  | .receive length =>
    some { c with
      read_sequence := c.read_to length
      control := c.control.dropWhile (c.early length)
      installed := c.installed ++
        armos_socket_install_control (c.control.takeWhile (c.early length)) ARMOS_SOCKET_RIGHTS_MAX }

/-- A receive reads into messages with at most 16 descriptors in all, and the sequences
    stay within their words. -/
def few (c : Channel) : Label → Bool
  | .receive length =>
    ((c.control.takeWhile (c.early length)).flatMap Control.files).length ≤ ARMOS_SOCKET_RIGHTS_MAX
  | .write _ length => c.write_sequence + length < 2 ^ 64
def Step (c : Channel) (l : Label) (d : Channel) : Prop := step c l = some d
def Careful (c : Channel) (l : Label) (d : Channel) : Prop := Step c l d ∧ few c l = true
def first : Channel := ⟨0,0,[],[],[]⟩

/-- What was passed has been got or is in the records. -/
structure Sound (c : Channel) : Prop where
  order : c.read_sequence ≤ c.write_sequence
  word : c.write_sequence < 2 ^ 64
  kept : c.passed = c.installed ++ c.control.flatMap Control.files
  written : ∀ r ∈ c.control, r.stream_offset < c.write_sequence
  drained : c.read_sequence = c.write_sequence → c.control = []

variable {c d : Channel} {l : Label}

theorem Sound.step (sound : Sound c) (taken : Careful c l d) : Sound d := by
  obtain ⟨order,word,kept,written,drained⟩ := sound
  obtain ⟨taken,few⟩ := taken
  cases l with
  | write files length =>
    simp only [Step,Rights.step,Option.ite_none_right_eq_some,Option.some.injEq] at taken
    obtain ⟨⟨_,_,positive,_⟩,rfl⟩ := taken
    refine ⟨by grind,of_decide_eq_true few,?_,?_,by grind⟩
    · by_cases none : files = [] <;> simp [none,kept]
    · grind
  | receive length =>
    cases taken
    refine ⟨min_le_left ..,word,?_,fun r member => written r (dropWhile_subset _ member),fun all => ?_⟩
    · -- the records taken and those left are all of them, and their files fit
      rw [armos_socket_install_control,min_self,take_of_length_le (of_decide_eq_true few),append_assoc,
        ← flatMap_append,takeWhile_append_dropWhile]
      exact kept
    · have all : c.read_to length = c.write_sequence := all
      refine dropWhile_eq_nil_iff.mpr fun r member => decide_eq_true ?_
      rw [all,Nat.mod_eq_of_lt word]
      exact (Nat.mod_le ..).trans_lt (written r member)

/-- A receiver that has read everything has got every descriptor, if none of its receives
    reads into messages with more than 16 and fewer than `2 ^ 64` bytes are sent. -/
theorem descriptors_received (c : Channel) (reached : Reachable Careful first c) :
    c.passed = c.installed ++ c.control.flatMap Control.files ∧
      (c.read_sequence = c.write_sequence → c.installed = c.passed) := by
  have sound : Sound c := reached.invariant (fun _ _ _ sound taken => sound.step taken)
      ⟨le_rfl,Nat.two_pow_pos 64,rfl,forall_mem_nil _,fun _ => rfl⟩
  refine ⟨sound.kept,fun all => ?_⟩
  rw [sound.kept,sound.drained all,flatMap_nil,append_nil]

theorem descriptors_received_two : ∃ c, Reachable Careful first c ∧ c.installed = [7,8] := by
  have run : Run Careful first [.write [7] 3,.write [8] 1,.receive 1,.receive 5] _ :=
    .next ⟨rfl,rfl⟩ (.next ⟨rfl,rfl⟩ (.next ⟨rfl,rfl⟩ (.next ⟨rfl,rfl⟩ (.done _))))
  exact ⟨_,⟨_,run⟩,(descriptors_received _ ⟨_,run⟩).2 rfl⟩

/-- Of 16 descriptors and one, sent with a byte each and read at once, the last is lost. -/
theorem descriptor_dropped : ∃ c, Reachable Step first c ∧ c.read_sequence = c.write_sequence ∧
    c.passed.length = 17 ∧ c.installed.length = 16 := by
  have run : Run Step first [.write (range 16) 1,.write [16] 1,.receive 2] _ := .next rfl (.next rfl (.next rfl (.done _)))
  exact ⟨_,⟨_,run⟩,rfl,rfl,rfl⟩

end ArmOS.Rights
