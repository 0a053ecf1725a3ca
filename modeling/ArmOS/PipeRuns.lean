import ArmOS.Pipes

/-!
What every run of a pipe keeps: the counts are those of open and blocked ends, the
ring is whole, and what reads got since the pipe last had no ends, followed by the
ring, is what writes put in since.
-/
namespace ArmOS.PipeRuns
open Runs Pipes List Nat Prod Option
open Rings (RingBuffer)

/-- A whole ring whose flags agree with `r` readers and `w` writers. -/
structure Tidy (b : PipeBuffer) (r w : Nat) : Prop where
  whole : b.ring.Whole PIPE_BUF_SIZE
  readers : b.readers = r
  writers : b.writers = w
  closed_read : b.closed_read = true ↔ b.readers = 0
  closed_write : b.closed_write = true ↔ b.writers = 0

variable {b : PipeBuffer} {r w : Nat}

theorem size_pos : 0 < PIPE_BUF_SIZE := by decide
theorem tidy_create (named : Bool) : Tidy (pipe_buffer_create named) 0 0 :=
  ⟨RingBuffer.whole_empty size_pos 0,rfl,rfl,by simp [pipe_buffer_create],by simp [pipe_buffer_create]⟩
theorem tidy_sys_pipe : Tidy sys_pipe 1 1 :=
  ⟨RingBuffer.whole_empty size_pos 0,rfl,rfl,by decide,by decide⟩

theorem Tidy.start_over (tidy : Tidy b r w) : Tidy (start_over b) r w := by
  by_cases alone : b.readers = 0 ∧ b.writers = 0
  · simp only [Pipes.start_over,if_pos alone]
    exact ⟨⟨size_pos,zero_le _,by simp⟩,tidy.readers,tidy.writers,tidy.closed_read,tidy.closed_write⟩
  · simpa only [Pipes.start_over,if_neg alone] using tidy

theorem Tidy.count_reader (tidy : Tidy b r w) : Tidy (count_reader b) (r + 1) w where
  whole := tidy.whole
  readers := by simp [Pipes.count_reader,tidy.readers]
  writers := tidy.writers
  closed_read := by
    have := tidy.readers
    simp only [Pipes.count_reader,Bool.false_eq_true,false_iff]
    omega
  closed_write := tidy.closed_write

theorem Tidy.count_writer (tidy : Tidy b r w) : Tidy (count_writer b) r (w + 1) where
  whole := tidy.whole
  readers := tidy.readers
  writers := by simp [Pipes.count_writer,tidy.writers]
  closed_read := tidy.closed_read
  closed_write := by
    have := tidy.writers
    simp only [Pipes.count_writer,Bool.false_eq_true,false_iff]
    omega

theorem Tidy.drop_reader (tidy : Tidy b (r + 1) w) : Tidy (drop_reader b) r w where
  whole := tidy.whole
  readers := by simp [Pipes.drop_reader,tidy.readers]
  writers := tidy.writers
  closed_read := by
    have still := tidy.closed_read
    have := tidy.readers
    simp only [Pipes.drop_reader]
    by_cases last : b.readers - 1 = 0
    · simp [last]
    rw [if_neg last,still]
    omega
  closed_write := tidy.closed_write

theorem Tidy.drop_writer (tidy : Tidy b r (w + 1)) : Tidy (drop_writer b) r w where
  whole := tidy.whole
  readers := tidy.readers
  writers := by simp [Pipes.drop_writer,tidy.writers]
  closed_read := tidy.closed_read
  closed_write := by
    have still := tidy.closed_write
    have := tidy.writers
    simp only [Pipes.drop_writer]
    by_cases last : b.writers - 1 = 0
    · simp [last]
    rw [if_neg last,still]
    omega

/-- An open adds its ends, a close takes them away. -/
theorem Tidy.count_ends (tidy : Tidy b r w) (a : Access) :
    Tidy (count_ends a b) (r + a.reads.toNat) (w + a.writes.toNat) := by
  cases a with
  | O_RDONLY => exact tidy.count_reader
  | O_WRONLY => exact tidy.count_writer
  | O_RDWR => exact tidy.count_reader.count_writer

variable {a : Access} {count : Nat} {after : PipeBuffer} {o : Opening}

theorem Tidy.drop_ends (tidy : Tidy b (r + a.reads.toNat) (w + a.writes.toNat)) : Tidy (drop_ends a b) r w := by
  cases a with
  | O_RDONLY => exact tidy.drop_reader
  | O_WRONLY => exact tidy.drop_writer
  | O_RDWR => exact tidy.drop_reader.drop_writer

theorem Tidy.with_ring (tidy : Tidy b r w) {ring : RingBuffer UInt8} (whole : ring.Whole PIPE_BUF_SIZE) :
    Tidy { b with ring := ring } r w :=
  ⟨whole,tidy.readers,tidy.writers,tidy.closed_read,tidy.closed_write⟩

@[simp]
theorem count_ends_ring (a : Access) (b : PipeBuffer) : (count_ends a b).ring = b.ring := by cases a <;> rfl

@[simp]
theorem count_ends_named (a : Access) (b : PipeBuffer) : (count_ends a b).named = b.named := by cases a <;> rfl

@[simp]
theorem drop_ends_ring (a : Access) (b : PipeBuffer) : (drop_ends a b).ring = b.ring := by cases a <;> rfl

@[simp]
theorem drop_ends_named (a : Access) (b : PipeBuffer) : (drop_ends a b).named = b.named := by cases a <;> rfl

@[simp]
theorem start_over_named (b : PipeBuffer) : (start_over b).named = b.named := by
  simp only [start_over]
  split <;> rfl

/-! ### The sections of a read and of a write -/

variable {bytes : Option (List UInt8)}

theorem pipe_read_spec (tidy : Tidy b r w) (ran : pipe_read count b = (after,bytes)) :
    Tidy after r w ∧ after.named = b.named ∧
      bytes.getD [] ++ after.ring.contents PIPE_BUF_SIZE = b.ring.contents PIPE_BUF_SIZE := by
  by_cases ended : b.ring.count = 0 ∧ b.writers = 0
  · rw [pipe_read,if_pos ended,mk.injEq] at ran
    obtain ⟨rfl,rfl⟩ := ran
    exact ⟨tidy,rfl,rfl⟩
  obtain ⟨whole,split,_⟩ := RingBuffer.drain_spec tidy.whole count
  rw [pipe_read,if_neg ended,mk.injEq] at ran
  obtain ⟨rfl,rfl⟩ := ran
  refine ⟨tidy.with_ring whole,rfl,?_⟩
  by_cases nothing : (b.ring.drain PIPE_BUF_SIZE count).1 = []
  · rw [nothing] at split
    simpa [nothing] using split
  · simpa [nothing] using split

/-- A read returns 0 only at the end of the file. -/
theorem pipe_read_nil (ran : pipe_read count b = (after,some [])) : b.ring.count = 0 ∧ b.writers = 0 := by
  by_contra open_still
  grind [pipe_read]

section
variable (tidy : Tidy b r w) {bytes left : List UInt8} (ran : pipe_write bytes b = (after,some left))
include tidy ran

/-- A write puts what it does not leave over into the ring. -/
theorem pipe_write_spec :
    Tidy after r w ∧ after.named = b.named ∧
      after.ring.contents PIPE_BUF_SIZE =
        b.ring.contents PIPE_BUF_SIZE ++ bytes.take (bytes.length - left.length) := by
  by_cases broken : b.readers = 0
  · rw [pipe_write,if_pos broken] at ran
    simp at ran
  obtain ⟨whole,left_over,contents⟩ := RingBuffer.fill_spec tidy.whole bytes
  rw [pipe_write,if_neg broken,Prod.mk.injEq,some.injEq] at ran
  obtain ⟨rfl,rfl⟩ := ran
  refine ⟨tidy.with_ring whole,rfl,?_⟩
  rw [contents,left_over,length_drop]
  congr 1
  have room := Nat.le_total bytes.length (PIPE_BUF_SIZE - b.ring.count)
  rcases room with enough | short
  · rw [take_of_length_le enough,take_of_length_le (by omega)]
  congr 1
  omega

theorem pipe_write_left :
    left = bytes.drop (PIPE_BUF_SIZE - b.ring.count) := by
  by_cases broken : b.readers = 0
  · simp [pipe_write,broken] at ran
  rw [pipe_write,if_neg broken,mk.injEq,some.injEq] at ran
  rw [← ran.2,(RingBuffer.fill_spec tidy.whole bytes).2.1]

end

theorem pipe_write_broken {bytes : List UInt8} (ran : pipe_write bytes b = (after,none)) : after = b := by
  by_cases broken : b.readers = 0
  · rw [pipe_write,if_pos broken,mk.injEq] at ran
    exact ran.1.symm
  rw [pipe_write,if_neg broken] at ran
  simp at ran

/-! ### The system -/

structure Sound (s : System) : Prop where
  tidy : ∀ b, s.buffer = some b → Tidy b (reading_ends s.files s.opening) (writing_ends s.files s.opening)
  kind : ∀ b, s.buffer = some b → b.named = s.named
  started : s.origin.1 ≤ s.accepted.length ∧ s.origin.2 ≤ s.returned.length
  record : ∀ b, s.buffer = some b →
    s.returned.drop s.origin.2 ++ b.ring.contents PIPE_BUF_SIZE = s.accepted.drop s.origin.1
  returned : s.returned.drop s.origin.2 <+: s.accepted.drop s.origin.1
  gone : s.buffer = none → s.files = [] ∧ s.opening = []
  in_use : s.named = false → s.buffer.isSome = true → 0 < reading_ends s.files s.opening + writing_ends s.files s.opening
  memory : s.allocated = s.freed + if s.buffer.isSome then 1 else 0
  blocked : s.opening ≠ [] → s.named = true
  readings : ∀ r ∈ s.reading, ∃ a, (r.file,a) ∈ s.files
  writings : ∀ w ∈ s.writing, ∃ a, (w.file,a) ∈ s.files

theorem sound_first (named : Bool) : Sound (System.first named) := by
  cases named with
  | false =>
    refine ⟨?_,?_,⟨le_rfl,le_rfl⟩,?_,prefix_refl _,nofun,fun _ _ => by decide,rfl,by simp [System.first],nofun,nofun⟩
    all_goals
      rintro b ⟨⟩
    · exact tidy_sys_pipe
    · rfl
    · rfl
  | true =>
    exact ⟨nofun,nofun,⟨le_rfl,le_rfl⟩,nofun,prefix_refl _,fun _ => ⟨rfl,rfl⟩,nofun,rfl,fun _ => rfl,
      nofun,nofun⟩

variable {s : System} {files : List (Nat × Access)} {opening : List Opening}

theorem ends_of_cons (file : Nat) (a : Access) :
    reading_ends ((file,a) :: files) opening = reading_ends files opening + a.reads.toNat ∧
      writing_ends ((file,a) :: files) opening = writing_ends files opening + a.writes.toNat := by
  simp only [reading_ends,writing_ends,countP_cons]
  cases a <;> simp [Access.reads,Access.writes] <;> omega

theorem ends_of_blocked (o : Opening) :
    reading_ends files (o :: opening) = reading_ends files opening + o.access.reads.toNat ∧
      writing_ends files (o :: opening) = writing_ends files opening + o.access.writes.toNat := by
  simp only [reading_ends,writing_ends,countP_cons]
  rcases access : o.access <;> simp [Access.reads,Access.writes] <;> omega

variable {file : Nat}

theorem ends_of_file (held : (file,a) ∈ files) :
    reading_ends files opening = reading_ends (files.erase (file,a)) opening + a.reads.toNat ∧
      writing_ends files opening = writing_ends (files.erase (file,a)) opening + a.writes.toNat := by
  have again := perm_cons_erase held
  rw [← (ends_of_cons file a).1,← (ends_of_cons file a).2]
  simp only [reading_ends,writing_ends,again.countP_eq,and_self]

theorem ends_of_opening (held : o ∈ opening) :
    reading_ends files opening = reading_ends files (opening.erase o) + o.access.reads.toNat ∧
      writing_ends files opening = writing_ends files (opening.erase o) + o.access.writes.toNat := by
  have again := perm_cons_erase held
  rw [← (ends_of_blocked o).1,← (ends_of_blocked o).2]
  simp only [reading_ends,writing_ends,again.countP_eq,and_self]

theorem no_ends (readers : reading_ends files opening = 0) (writers : writing_ends files opening = 0) :
    files = [] ∧ opening = [] := by
  simp only [reading_ends,writing_ends,Nat.add_eq_zero_iff,countP_eq_zero] at readers writers
  have one_way : ∀ a : Access, a.reads = true ∨ a.writes = true := by
    intro a
    cases a <;> decide
  constructor
  · apply eq_nil_iff_forall_not_mem.mpr
    intro f held
    exact (one_way f.2).elim (readers.1 f held) (writers.1 f held)
  apply eq_nil_iff_forall_not_mem.mpr
  intro o blocked
  exact (one_way o.access).elim (readers.2 o blocked) (writers.2 o blocked)

/-- A step that keeps ends, record and a tidy buffer. -/
theorem Sound.run_section (sound : Sound s) (put got : List UInt8) (reading : List Reading)
    (writing : List Writing) (readings : ∀ r ∈ reading, ∃ a, (r.file,a) ∈ s.files)
    (writings : ∀ w ∈ writing, ∃ a, (w.file,a) ∈ s.files) (here : s.buffer = some b)
    (tidy : Tidy after (reading_ends s.files s.opening) (writing_ends s.files s.opening)) (kind : after.named = b.named)
    (moved : got ++ after.ring.contents PIPE_BUF_SIZE = b.ring.contents PIPE_BUF_SIZE ++ put) :
    Sound { s with
      buffer := some after, reading := reading, writing := writing, accepted := s.accepted ++ put,
      returned := s.returned ++ got } := by
  obtain ⟨low,high⟩ := sound.started
  have record : (s.returned ++ got).drop s.origin.2 ++ after.ring.contents PIPE_BUF_SIZE =
      (s.accepted ++ put).drop s.origin.1 := by
    rw [drop_append_of_le_length high,drop_append_of_le_length low,append_assoc,moved,
      ← append_assoc,sound.record b here]
  constructor
  · rintro _ ⟨⟩
    exact tidy
  · rintro _ ⟨⟩
    rw [kind]
    exact sound.kind b here
  · simp only [length_append]
    omega
  · rintro _ ⟨⟩
    exact record
  · exact ⟨_,record⟩
  · nofun
  · intro anonymous _
    exact sound.in_use anonymous (by rw [here]; rfl)
  · rw [sound.memory,here]
    rfl
  · exact sound.blocked
  · exact readings
  · exact writings

variable {reading : List Reading}

theorem Sound.read (sound : Sound s) (fewer : ∀ r ∈ reading, r ∈ s.reading) (here : s.buffer = some b)
    (ran : pipe_read count b = (after,bytes)) :
    Sound { s with buffer := some after, reading := reading, returned := s.returned ++ bytes.getD [] } := by
  obtain ⟨tidy,kind,split⟩ := pipe_read_spec (sound.tidy b here) ran
  have run := sound.run_section [] (bytes.getD []) reading s.writing (fun r under_way => sound.readings r (fewer r under_way))
    sound.writings here tidy kind (by rw [split,append_nil])
  simpa using run

theorem Sound.write (sound : Sound s) {w : Writing} {left : List UInt8} (under_way : w ∈ s.writing)
    (here : s.buffer = some b) (ran : pipe_write w.left b = (after,some left)) : Sound (s.wrote w after left) := by
  obtain ⟨tidy,kind,contents⟩ := pipe_write_spec (sound.tidy b here) ran
  have others : ∀ w' ∈ s.writing.erase w, ∃ a, (w'.file,a) ∈ s.files :=
    fun w' other => sound.writings w' (mem_of_mem_erase other)
  have run := fun writing kept => sound.run_section (w.left.take (w.left.length - left.length)) [] s.reading writing
    sound.readings kept here tidy kind contents
  simp only [append_nil] at run
  apply run
  intro w' stays
  split at stays
  · exact others w' stays
  rcases mem_cons.mp stays with rfl | other
  · exact sound.writings w under_way
  · exact others w' other

/-- Entering and leaving a call without running a section changes nothing else. -/
theorem Sound.calls (sound : Sound s) {writing : List Writing} (readings : ∀ r ∈ reading, ∃ a, (r.file,a) ∈ s.files)
    (writings : ∀ w ∈ writing, ∃ a, (w.file,a) ∈ s.files) : Sound { s with reading := reading, writing := writing } :=
  ⟨sound.tidy,sound.kind,sound.started,sound.record,sound.returned,sound.gone,sound.in_use,sound.memory,sound.blocked,
    readings,writings⟩

/-! ### Opening and closing -/

section
variable (sound : Sound s)
include sound

namespace Sound

theorem joined (blocked : o ∈ s.opening) : Sound (s.joined o) := by
  obtain ⟨readers,writers⟩ := ends_of_opening blocked
  rw [← (ends_of_cons o.file o.access).1] at readers
  rw [← (ends_of_cons o.file o.access).2] at writers
  have named := sound.blocked (ne_nil_of_mem blocked)
  refine ⟨?_,sound.kind,sound.started,sound.record,sound.returned,?_,?_,sound.memory,fun _ => named,?_,?_⟩
  · intro b here
    rw [System.joined,← readers,← writers]
    exact sound.tidy b here
  · intro none_left
    have empty := (sound.gone none_left).2
    rw [empty] at blocked
    nomatch blocked
  · intro anonymous here
    rw [System.joined,← readers,← writers]
    exact sound.in_use anonymous here
  · intro r under_way
    obtain ⟨a,held⟩ := sound.readings r under_way
    exact ⟨a,mem_cons_of_mem _ held⟩
  intro w under_way
  obtain ⟨a,held⟩ := sound.writings w under_way
  exact ⟨a,mem_cons_of_mem _ held⟩

theorem get_buffer (named : s.named = true) :
    Tidy s.get_buffer (reading_ends s.files s.opening) (writing_ends s.files s.opening) ∧ s.get_buffer.named = true := by
  rcases here : s.buffer with _ | b
  · obtain ⟨files,opening⟩ := sound.gone here
    have buffer : s.get_buffer = pipe_buffer_create true := by simp [System.get_buffer,here]
    rw [buffer,files,opening]
    exact ⟨tidy_create true,rfl⟩
  have buffer : s.get_buffer = b := by simp [System.get_buffer,here]
  rw [buffer]
  exact ⟨sound.tidy b here,(sound.kind b here).trans named⟩

/-- After an open's first section the record starts with the ring. -/
theorem start_over :
    (s.new_origin.1 ≤ s.accepted.length ∧ s.new_origin.2 ≤ s.returned.length) ∧
      s.returned.drop s.new_origin.2 ++ (start_over s.get_buffer).ring.contents PIPE_BUF_SIZE =
        s.accepted.drop s.new_origin.1 := by
  by_cases alone : s.get_buffer.readers = 0 ∧ s.get_buffer.writers = 0
  · simp only [System.new_origin,Pipes.start_over,if_pos alone]
    exact ⟨⟨le_rfl,le_rfl⟩,by simp [RingBuffer.contents]⟩
  simp only [System.new_origin,Pipes.start_over,if_neg alone]
  refine ⟨sound.started,?_⟩
  rcases here : s.buffer with _ | b
  · exact absurd (by simp [System.get_buffer,here,pipe_buffer_create]) alone
  have buffer : s.get_buffer = b := by simp [System.get_buffer,here]
  rw [buffer]
  exact sound.record b here

/-- The state an open leaves behind, whatever ends it adds. -/
theorem reopened (named : s.named = true) (files : List (Nat × Access))
    (opening : List Opening) (ring : after.ring = (Pipes.start_over s.get_buffer).ring) (kind : after.named = true)
    (tidy : Tidy after (reading_ends files opening) (writing_ends files opening)) (more : ∀ f ∈ s.files, f ∈ files) :
    Sound { s with
      origin := s.new_origin
      allocated := if s.buffer.isSome then s.allocated else s.allocated + 1
      buffer := some after, files := files, opening := opening } := by
  obtain ⟨started,record⟩ := sound.start_over
  rw [← ring] at record
  constructor
  · rintro _ ⟨⟩
    exact tidy
  · rintro _ ⟨⟩
    rw [kind,named]
  · exact started
  · rintro _ ⟨⟩
    exact record
  · exact ⟨_,record⟩
  · nofun
  · intro anonymous
    rw [named] at anonymous
    nomatch anonymous
  · grind [memory]
  · exact fun _ => named
  · intro r under_way
    obtain ⟨a,held⟩ := sound.readings r under_way
    exact ⟨a,more _ held⟩
  intro w under_way
  obtain ⟨a,held⟩ := sound.writings w under_way
  exact ⟨a,more _ held⟩

theorem opened (named : s.named = true) (file : Nat) (a : Access) (nonblock : Bool) :
    Sound (s.opened file a nonblock) := by
  obtain ⟨tidy,kind⟩ := sound.get_buffer named
  rw [← start_over_named] at kind
  by_cases refused : a = .O_WRONLY ∧ nonblock = true ∧ (Pipes.start_over s.get_buffer).readers = 0
  · simp only [System.opened,pipe_open_named,if_pos refused]
    exact sound.reopened named s.files s.opening rfl kind tidy.start_over (fun _ held => held)
  have counted := tidy.start_over.count_ends a
  rw [← count_ends_named a] at kind
  simp only [System.opened,pipe_open_named,if_neg refused]
  -- the new end is counted whether it is open already or blocked
  split
  · apply sound.reopened named ((file,a) :: s.files) s.opening (count_ends_ring a _) kind
    · rw [(ends_of_cons file a).1,(ends_of_cons file a).2]
      exact counted
    · exact fun _ held => mem_cons_of_mem _ held
  apply sound.reopened named s.files (⟨file,a,_⟩ :: s.opening) (count_ends_ring a _) kind
  · rw [(ends_of_blocked ⟨file,a,_⟩).1,(ends_of_blocked ⟨file,a,_⟩).2]
    exact counted
  · exact fun _ held => held

theorem interrupted (here : s.buffer = some b) (blocked : o ∈ s.opening) :
    Sound { s with opening := s.opening.erase o, buffer := some (drop_ends o.access b) } := by
  obtain ⟨readers,writers⟩ := ends_of_opening blocked
  have tidy := sound.tidy b here
  rw [readers,writers] at tidy
  have named := sound.blocked (ne_nil_of_mem blocked)
  constructor
  · rintro _ ⟨⟩
    exact tidy.drop_ends
  · rintro _ ⟨⟩
    rw [drop_ends_named]
    exact sound.kind b here
  · exact sound.started
  · rintro _ ⟨⟩
    rw [drop_ends_ring]
    exact sound.record b here
  · exact sound.returned
  · nofun
  · intro anonymous
    rw [named] at anonymous
    nomatch anonymous
  · rw [sound.memory,here]
    rfl
  · exact fun _ => named
  · exact sound.readings
  · exact sound.writings

/-- A close that takes the last end frees a `sys_pipe` buffer. -/
theorem closed (here : s.buffer = some b)
    (held : (file,a) ∈ s.files) (no_reading : ∀ r ∈ s.reading, r.file ≠ file)
    (no_writing : ∀ w ∈ s.writing, w.file ≠ file) : Sound (s.closed file a b) := by
  obtain ⟨readers,writers⟩ := ends_of_file held
  have before := sound.tidy b here
  rw [readers,writers] at before
  have tidy := before.drop_ends
  have kind := sound.kind b here
  have memory := sound.memory
  simp only [here,isSome_some,if_true] at memory
  have stays : ∀ f : Nat, f ≠ file → (∃ a, (f,a) ∈ s.files) → ∃ a', (f,a') ∈ s.files.erase (file,a) := by
    rintro f other ⟨a',open_still⟩
    refine ⟨a',(mem_erase_of_ne ?_).mpr open_still⟩
    rintro ⟨⟩
    exact other rfl
  have readings := fun r under_way => stays _ (no_reading r under_way) (sound.readings r under_way)
  have writings := fun w under_way => stays _ (no_writing w under_way) (sound.writings w under_way)
  rcases freed : (pipe_close a b).2
  · simp only [System.closed,freed,Bool.false_eq_true,if_false]
    constructor
    · rintro _ ⟨⟩
      exact tidy
    · rintro _ ⟨⟩
      exact (drop_ends_named a b).trans kind
    · exact sound.started
    · rintro _ ⟨⟩
      rw [show (pipe_close a b).1 = drop_ends a b from rfl,drop_ends_ring]
      exact sound.record b here
    · exact sound.returned
    · nofun
    · intro anonymous _
      have anonymous_buffer : b.named = false := kind.trans anonymous
      by_contra none_left
      simp only [not_lt,Nat.le_zero,Nat.add_eq_zero_iff] at none_left
      have no_readers : (drop_ends a b).readers = 0 := by
        rw [tidy.readers,none_left.1]
        rfl
      have no_writers : (drop_ends a b).writers = 0 := by
        rw [tidy.writers,none_left.2]
        rfl
      simp [pipe_close,anonymous_buffer,no_readers,no_writers] at freed
    · exact memory
    · exact sound.blocked
    · exact readings
    · exact writings
  simp only [System.closed,freed,if_true]
  simp only [pipe_close,Bool.and_eq_true,decide_eq_true_eq] at freed
  obtain ⟨_,no_readers,no_writers⟩ := freed
  rw [tidy.readers,Nat.cast_eq_zero] at no_readers
  rw [tidy.writers,Nat.cast_eq_zero] at no_writers
  exact ⟨nofun,nofun,sound.started,nofun,sound.returned,fun _ => no_ends no_readers no_writers,nofun,memory,sound.blocked,
    readings,writings⟩

theorem released (here : s.buffer.isSome = true) (files : s.files = [])
    (opening : s.opening = []) : Sound { s with buffer := none, freed := s.freed + 1 } := by
  have memory := sound.memory
  rw [if_pos here] at memory
  exact ⟨nofun,nofun,sound.started,nofun,sound.returned,fun _ => ⟨files,opening⟩,nofun,memory,sound.blocked,sound.readings,
    sound.writings⟩

end Sound

end

/-! ### Runs -/

theorem Sound.step (sound : Sound s) {l : Label} {t : System} (taken : Step s l t) : Sound t := by
  cases taken with
  | open_named named => exact sound.opened named _ _ _
  | open_woken blocked _ _ | open_late blocked _ _ => exact sound.joined blocked
  | open_asleep _ _ _ => exact sound
  | open_interrupted blocked here _ => exact sound.interrupted here blocked
  | read held _ => exact sound.calls (forall_mem_cons.mpr ⟨⟨_,held⟩,sound.readings⟩) sound.writings
  | read_returns _ here ran => exact sound.read (fun _ other => mem_of_mem_erase other) here ran
  | read_waits _ here ran _ =>
    have after := sound.read (fun _ under_way => under_way) here ran
    simpa using after
  | @read_refused r _ _ _ here ran _ =>
    have after := sound.read (fun q (other : q ∈ s.reading.erase r) => mem_of_mem_erase other) here ran
    simpa using after
  | read_interrupted _ _ =>
    exact sound.calls (fun r other => sound.readings r (mem_of_mem_erase other)) sound.writings
  | write held _ _ _ => exact sound.calls sound.readings (forall_mem_cons.mpr ⟨⟨_,held⟩,sound.writings⟩)
  | write_section under_way here ran => exact sound.write under_way here ran
  | write_broken _ here ran =>
    rw [pipe_write_broken ran,← here]
    exact sound.calls sound.readings (fun w other => sound.writings w (mem_of_mem_erase other))
  | write_interrupted _ _ =>
    exact sound.calls sound.readings (fun w other => sound.writings w (mem_of_mem_erase other))
  | close held here no_reading no_writing => exact sound.closed here held no_reading no_writing
  | release _ here files opening => exact sound.released here files opening

theorem sound_reachable {named : Bool} (reached : Reachable Step (System.first named) s) : Sound s :=
  reached.invariant (fun _ _ _ sound taken => sound.step taken) (sound_first named)

/-- A pipe without a buffer has no ends and no calls. -/
theorem Sound.unused (sound : Sound s) (gone : s.buffer = none) :
    s.files = [] ∧ s.opening = [] ∧ s.reading = [] ∧ s.writing = [] := by
  obtain ⟨files,opening⟩ := sound.gone gone
  refine ⟨files,opening,?_,?_⟩
  · apply eq_nil_iff_forall_not_mem.mpr
    grind [readings]
  apply eq_nil_iff_forall_not_mem.mpr
  grind [writings]

/-- While a pipe has ends, reads get a prefix of what writes put in, ring and counts
    agree with the ends, a read returns nothing only at the end, and the buffer is
    freed once. -/
theorem pipe_is_queue (named : Bool) (s : System) (reached : Reachable Step (System.first named) s) :
    s.returned.drop s.origin.2 <+: s.accepted.drop s.origin.1 ∧
    (∀ b, s.buffer = some b →
      b.ring.count ≤ PIPE_BUF_SIZE ∧ b.ring.write_pos = (b.ring.read_pos + b.ring.count) % PIPE_BUF_SIZE ∧
      b.readers = reading_ends s.files s.opening ∧ b.writers = writing_ends s.files s.opening) ∧
    (∀ r t, Step s (.read_returns r []) t →
      writing_ends s.files s.opening = 0 ∧ ∃ b, s.buffer = some b ∧ b.ring.count = 0) ∧
    s.allocated = s.freed + (if s.buffer.isSome then 1 else 0) ∧
    (s.buffer = none → s.files = [] ∧ s.opening = [] ∧ s.reading = [] ∧ s.writing = []) ∧
    (s.named = false → s.files = [] → s.buffer = none) := by
  have sound := sound_reachable reached
  refine ⟨sound.returned,?_,?_,sound.memory,sound.unused,?_⟩
  · intro b here
    have tidy := sound.tidy b here
    exact ⟨tidy.whole.within,tidy.whole.distance,tidy.readers,tidy.writers⟩
  · intro r t taken
    cases taken with
    | read_returns _ here ran =>
      obtain ⟨empty,no_writers⟩ := pipe_read_nil ran
      have writers := (sound.tidy _ here).writers
      exact ⟨by omega,_,here,empty⟩
  intro anonymous files
  by_contra here
  have some_end := sound.in_use anonymous (Option.isSome_iff_ne_none.mpr here)
  have opening : s.opening = [] := by
    by_contra blocked
    exact absurd (sound.blocked blocked) (by simp [anonymous])
  rw [files,opening] at some_end
  exact absurd some_end (by decide)

/-- A byte written through a `sys_pipe` comes out again. -/
theorem pipe_is_queue_after_write : ∃ s, Reachable Step (System.first false) s ∧ s.accepted = [7] ∧ s.returned = [7] ∧
      s.returned.drop s.origin.2 <+: s.accepted.drop s.origin.1 := by
  let w : Writing := ⟨1,[7],0,false⟩
  let r : Reading := ⟨0,1,false⟩
  have run : Run Step (System.first false) [.write w,.write_section w,.read r,.read_returns r [7]] _ :=
    .next (.write (mem_cons_of_mem _ (mem_singleton_self _)) rfl nofun rfl)
      (.next (.write_section (mem_singleton_self _) rfl rfl)
      (.next (.read (mem_cons_self) rfl)
      (.next (.read_returns (mem_singleton_self _) rfl rfl) (.done _))))
  exact ⟨_,⟨_,run⟩,rfl,rfl,(pipe_is_queue false _ ⟨_,run⟩).1⟩

/-- What the last close of a named pipe leaves is dropped by the next open. -/
theorem named_pipe_drops_bytes : ∃ s, Reachable Step (System.first true) s ∧ ¬ s.returned <+: s.accepted := by
  let first : Writing := ⟨0,[1],0,false⟩
  let second : Writing := ⟨1,[2],0,false⟩
  let r : Reading := ⟨1,1,false⟩
  have run : Run Step (System.first true)
      [.open_named 0 .O_RDWR false,.write first,.write_section first,.close 0 .O_RDWR,.open_named 1 .O_RDWR false,
        .write second,.write_section second,.read r,.read_returns r [2]] _ :=
    .next (.open_named rfl)
      (.next (.write mem_cons_self rfl nofun rfl)
      (.next (.write_section mem_cons_self rfl rfl)
      (.next (.close mem_cons_self rfl nofun nofun)
      (.next (.open_named rfl)
      (.next (.write mem_cons_self rfl nofun rfl)
      (.next (.write_section mem_cons_self rfl rfl)
      (.next (.read mem_cons_self rfl)
      (.next (.read_returns mem_cons_self rfl rfl) (.done _)))))))))
  exact ⟨_,⟨_,run⟩,by decide⟩

/-! ### Writes that are not divided -/

/-- A section of a small write finds the ring full, or room for all that is left. -/
def undivided (s : System) : Label → Prop
  | .write_section w => w.written + w.left.length ≤ PIPE_BUF_SIZE → ∀ b, s.buffer = some b →
      b.ring.count = PIPE_BUF_SIZE ∨ w.left.length ≤ PIPE_BUF_SIZE - b.ring.count
  | _ => True

def Undivided (s : System) (l : Label) (t : System) : Prop := Step s l t ∧ undivided s l

/-- A small write under way has put nothing in yet. -/
def Untouched (s : System) : Prop := ∀ w ∈ s.writing, w.written + w.left.length ≤ PIPE_BUF_SIZE → w.written = 0

variable {l : Label} {t : System} {w : Writing}

theorem Untouched.step (untouched : Untouched s) (sound : Sound s) (taken : Undivided s l t) : Untouched t := by
  have fewer : ∀ w, ∀ v ∈ s.writing.erase w, v.written + v.left.length ≤ PIPE_BUF_SIZE → v.written = 0 :=
    fun w v later => untouched v (mem_of_mem_erase later)
  obtain ⟨taken,fits⟩ := taken
  cases taken with
  | write _ _ _ fresh => exact forall_mem_cons.mpr ⟨fun _ => fresh,untouched⟩
  | @write_section w _ _ _ under_way here ran =>
    obtain rfl := pipe_write_left (sound.tidy _ here) ran
    unfold Untouched System.wrote
    dsimp only
    split
    · exact fewer w
    rename_i more
    refine forall_mem_cons.mpr ⟨fun small => ?_,fewer w⟩
    -- something is left, so the ring was full
    simp only [length_take,length_drop] at small ⊢
    have := untouched w under_way (by omega)
    have := fits (by omega) _ here
    simp at more
    omega
  | write_broken | write_interrupted => exact fewer _
  | open_named =>
    unfold System.opened
    dsimp only
    split
    · exact untouched
    split <;> exact untouched
  | _ => exact untouched

/-- If no small write is divided, each is put into the stream at once or not at all. -/
theorem small_writes_whole (named : Bool) (s : System) (reached : Reachable Undivided (System.first named) s) :
    s.returned.drop s.origin.2 <+: s.accepted.drop s.origin.1 ∧ Untouched s ∧
    ∀ w t, Undivided s (.write_section w) t → w.written + w.left.length ≤ PIPE_BUF_SIZE →
      t.accepted = s.accepted ∨ t.accepted = s.accepted ++ w.left ∧ t.writing = s.writing.erase w := by
  have kept : Sound s ∧ Untouched s := by
    refine reached.invariant (fun s l t (both : Sound s ∧ Untouched s) taken => ?_) ⟨sound_first named,nofun⟩
    exact ⟨both.1.step taken.1,both.2.step both.1 taken⟩
  refine ⟨kept.1.returned,kept.2,fun w t taken small => ?_⟩
  obtain ⟨taken,fits⟩ := taken
  cases taken with
  | write_section _ here ran =>
    obtain rfl := pipe_write_left (kept.1.tidy _ here) ran
    rcases fits small _ here with full | room
    · simp [System.wrote,full]
    · simp [System.wrote,drop_eq_nil_of_le room]

/-- A write of two bytes into an empty ring is put in at once. -/
theorem small_writes_whole_two : ∃ s t, Reachable Undivided (System.first false) s ∧
    Undivided s (.write_section ⟨1,[1,2],0,true⟩) t ∧ s.accepted = [] ∧ t.accepted = [1,2] ∧ t.writing = [] := by
  let w : Writing := ⟨1,[1,2],0,true⟩
  let s : System := { System.first false with writing := [w] }
  have started : Undivided (System.first false) (.write w) s :=
    ⟨.write (mem_cons_of_mem _ (mem_singleton_self _)) rfl (cons_ne_nil _ _) rfl,trivial⟩
  obtain ⟨b,rest,ran⟩ : ∃ b rest, pipe_write w.left sys_pipe = (b,some rest) := ⟨_,_,rfl⟩
  obtain rfl : rest = [] := pipe_write_left tidy_sys_pipe ran
  have put : Undivided s (.write_section w) (s.wrote w b []) := by
    refine ⟨.write_section mem_cons_self rfl ran,fun _ b here => .inr ?_⟩
    obtain rfl : sys_pipe = b := some.inj here
    decide
  rcases (small_writes_whole false s (.single started)).2.2 w _ put (by decide) with same | ⟨added,gone⟩
  · simp [System.wrote,w] at same
  · exact ⟨s,_,.single started,put,rfl,added,by simpa [s] using gone⟩

/-- With `O_NONBLOCK` and room for one byte, one of two is put in. -/
theorem small_write_divided : ∃ s t, ∃ w : Writing, Reachable Step (System.first false) s ∧
    Step s (.write_section w) t ∧ w.nonblock = true ∧ w.written = 0 ∧ w.left = [1,2] ∧
      t.accepted = s.accepted ++ [1] ∧ t.writing = [] := by
  obtain ⟨n,size,some_bytes⟩ : ∃ n, PIPE_BUF_SIZE = n + 1 ∧ n ≠ 0 := ⟨4095,rfl,by decide⟩
  let big : Writing := ⟨1,replicate n 0,0,false⟩
  let w : Writing := ⟨1,[1,2],0,true⟩
  obtain ⟨b,rest,ran⟩ : ∃ b rest, pipe_write big.left sys_pipe = (b,some rest) := ⟨_,_,rfl⟩
  obtain ⟨tidy,_,contents⟩ := pipe_write_spec tidy_sys_pipe ran
  have all := pipe_write_left tidy_sys_pipe ran
  simp only [sys_pipe,pipe_buffer_create,RingBuffer.empty,size,big,drop_replicate] at all
  obtain rfl : rest = [] := by simp [all]
  have count : b.ring.count = n := by
    simpa [RingBuffer.contents,sys_pipe,pipe_buffer_create,RingBuffer.empty,big] using congrArg length contents
  obtain ⟨after,left,part⟩ : ∃ after left, pipe_write w.left b = (after,some left) := by simp [pipe_write,tidy.readers]
  obtain rfl : left = [2] := by simp [pipe_write_left tidy part,count,size,w]
  have run : Run Step (System.first false) [.write big,.write_section big,.write w] _ :=
    .next (.write (mem_cons_of_mem _ (mem_singleton_self _)) rfl (by simpa [big]) rfl)
      (.next (.write_section mem_cons_self rfl ran)
      (.next (.write (mem_cons_of_mem _ (mem_singleton_self _)) rfl (cons_ne_nil _ _) rfl) (.done _)))
  exact ⟨_,_,w,⟨_,run⟩,.write_section mem_cons_self rfl part,rfl,rfl,rfl,rfl,by simp [System.wrote,w,System.first]⟩

end ArmOS.PipeRuns

