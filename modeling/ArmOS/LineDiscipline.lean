import ArmOS.Endpoints

/-!
Typing and reading at a terminal in canonical mode with echo, beside the discipline
that it is to implement: completed lines and the line being edited. A read takes one
character at a time, and others come between. The queue does not say where an
end-of-file character was typed.
-/
namespace ArmOS.LineDiscipline
open Runs Endpoints List

/-! ### The discipline -/

inductive Key
  | erase
  | word_erase
  | kill
  | eof
  | char (ch : UInt8)
  deriving DecidableEq, Repr

/-- Completed lines not read to their ends, and the edited one. -/
structure Discipline where
  lines : List (List UInt8)
  current : List UInt8

/-- A key; a character that the terminal has no room for is lost. -/
def Discipline.press (d : Discipline) (full : Bool) : Key → Discipline
  | .erase => { d with current := d.current.dropLast }
  | .word_erase => { d with current := (d.current.rdropWhile (· = blank)).rdropWhile (· ≠ blank) }
  | .kill => { d with current := [] }
  | .eof => ⟨d.lines ++ [d.current],[]⟩
  | .char ch =>
    if full then d
    else if ch = newline then ⟨d.lines ++ [d.current ++ [ch]],[]⟩
    else { d with current := d.current ++ [ch] }

/-- A read gives the first line, or a part of it. -/
def Discipline.read (d : Discipline) (count : Nat) : Option (List UInt8 × Discipline) :=
  match d.lines with
  | [] => none
  | line :: lines =>
    some (line.take count,{ d with lines := if line.length ≤ count then lines else line.drop count :: lines })

/-! ### The terminal -/

/-- The key that a received character is, if it is not left out and sends no signal. -/
def key_of (tio : Termios) (received : UInt8) : Option Key :=
  match tty_normalize_input_char tio received with
  | none => none
  | some ch =>
    if tio.ISIG && (ch = tio.VINTR || ch = tio.VSUSP) then none
    else if ch = tio.VEOF then some .eof
    else if ch = 8 || ch = tio.VERASE then some .erase
    else if ch = tio.VKILL then some .kill
    else if ch = tio.VWERASE then some .word_erase
    else some (.char ch)

/-- A `tty_read_to` that has not returned. -/
structure Reading where
  count : Nat
  got : List UInt8

/-- What a read returned, and what the discipline gives. -/
structure Entry where
  bytes : List UInt8
  expected : Option (List UInt8)

/-- The reads in the order they began; `none` has returned. -/
structure System where
  tty : Tty
  readers : List (Option Reading)
  discipline : Discipline
  log : List Entry

/-- A character comes; a read begins, loops, or is interrupted. -/
inductive Label
  | type (received : UInt8)
  | read (count : Nat)
  | turn (i : Nat)
  | interrupt (i : Nat)

def full (t : Tty) : Bool := TTY_INPUT_BUF_SIZE ≤ t.input.length + 1

def press (s : System) (received : UInt8) : System :=
  { s with
    tty := tty_input_char_to s.tty received
    discipline :=
      match key_of s.tty.termios received with
      | none => s.discipline
      | some key => s.discipline.press (full s.tty) key }

def finish (s : System) (i : Nat) (tty : Tty) (count : Nat) (bytes : List UInt8) : System where
  tty := tty
  readers := s.readers.set i none
  discipline :=
    match s.discipline.read count with
    | none => s.discipline
    | some given => given.2
  log := s.log ++ [⟨bytes,(s.discipline.read count).map (·.1)⟩]

/-- A turn of the loop of `tty_read_to` in canonical mode. -/
def read_turn (s : System) (i : Nat) (r : Reading) : Option System :=
  match s.tty.input with
  | [] =>
    if s.tty.eof_pending then some (finish s i { s.tty with eof_pending := false } r.count r.got)
    else if r.got ≠ [] then some (finish s i s.tty r.count r.got)
    else none
  | ch :: rest =>
    let tty := { s.tty with input := rest }
    let got := r.got ++ [ch]
    if ends_line ch || got.length = r.count then some (finish s i tty r.count got)
    else some { s with tty := tty, readers := s.readers.set i (some { r with got := got }) }

def step (s : System) : Label → Option System
  | .type received => some (press s received)
  | .read count => if 0 < count then some { s with readers := s.readers ++ [some ⟨count,[]⟩] } else none
  | .turn i =>
    match s.readers[i]? with
    | some (some r) => read_turn s i r
    | _ => none
  | .interrupt i =>
    match s.readers[i]? with
    | some (some r) => if r.got = [] then some { s with readers := s.readers.set i none } else none
    | _ => none

def Step (s : System) (l : Label) (t : System) : Prop := step s l = some t
def first (tty : Tty) : System := ⟨{ tty with input := [], eof_pending := false },[],⟨[],[]⟩,[]⟩
def idle (r : Option Reading) : Bool := r.all fun r => r.got.isEmpty

/-- There are reads, and all have found nothing and sleep. -/
def blocked (s : System) : Bool :=
  s.readers.any Option.isSome && s.readers.all idle && s.tty.input.isEmpty && !s.tty.eof_pending

/-- No key comes while an end of file waits, no carriage return comes, no two reads
    share a line, and none takes the first characters of an incomplete line or exactly
    those before an end of file. -/
def orderly (s : System) : Label → Bool
  | .type received =>
    match key_of s.tty.termios received with
    | none => true
    | some key => !s.tty.eof_pending && key ≠ .char carriage_return
  | .read _ => true
  | .turn i =>
    (s.readers.set i none).all idle &&
      match s.readers[i]?, s.tty.input with
      | some (some r), ch :: rest =>
        (!r.got.isEmpty || s.tty.eof_pending || s.tty.input.contains newline) &&
          !(s.tty.eof_pending && rest.isEmpty && ch ≠ newline && r.got.length + 1 = r.count)
      | _, _ => true
  | .interrupt _ => true

def Careful (s : System) (l : Label) (t : System) : Prop := Step s l t ∧ orderly s l = true

/-! ### Keys at the end of the queue -/

def press_tty (t : Tty) : Key → Tty
  | .eof => { t with eof_pending := true }
  | .erase =>
    { t with
      input :=
        match t.input.getLast? with
        | some last => if ends_line last then t.input else t.input.dropLast
        | none => t.input }
  | .kill => { t with input := t.input.rdropWhile fun last => !ends_line last }
  | .word_erase =>
    { t with
      input := (t.input.rdropWhile fun last => last = blank).rdropWhile fun last => !(ends_line last || last = blank) }
  | .char ch => if full t then t else { t with input := t.input ++ [ch] }

theorem input_char_key {t : Tty} (canonical : t.termios.ICANON = true) (echo : t.termios.ECHO = true) (received : UInt8) :
    tty_input_char_to t received =
      match key_of t.termios received with
      | none => t
      | some key => press_tty t key := by
  unfold tty_input_char_to tty_input_queue key_of
  rcases tty_normalize_input_char t.termios received with _ | ch
  · rfl
  dsimp only
  rw [canonical,echo]
  split
  · rfl
  split
  · rename_i ends
    have same : ch = t.termios.VEOF := by simpa using ends
    rw [if_pos same]
    rfl
  rename_i goes
  have other : ¬ ch = t.termios.VEOF := by simpa using goes
  rw [if_neg other]
  simp only [Bool.and_self,if_true,tty_handle_canonical_edit,id]
  by_cases erases : (decide (ch = 8) || decide (ch = t.termios.VERASE)) = true
  · simp only [erases,if_true,press_tty]
    cases t.input.getLast? <;> rfl
  simp only [if_neg erases]
  by_cases kills : ch = t.termios.VKILL
  · simp only [if_pos kills,press_tty]
  by_cases erases_word : ch = t.termios.VWERASE
  · simp only [if_neg kills,if_pos erases_word,press_tty]
  simp only [if_neg kills,if_neg erases_word,press_tty,full,decide_eq_true_eq]
  split
  · rw [if_neg (by omega)]
  · rw [if_pos (by omega)]

/-- What is before the current line: nothing, or up to a newline. -/
def Closed (before : List UInt8) : Prop := before = [] ∨ ∃ body, before = body ++ [newline]

theorem rdropWhile_closed {p : UInt8 → Bool} {before : List UInt8} (closed : Closed before) (stops : p newline = false)
    (current : List UInt8) : (before ++ current).rdropWhile p = before ++ current.rdropWhile p := by
  induction current using reverseRecOn with
  | nil =>
    rcases closed with rfl | ⟨body,rfl⟩
    · simp
    · simp [stops]
  | append_singleton current ch ih =>
    rw [← append_assoc,rdropWhile_concat,rdropWhile_concat,ih]
    split
    · rfl
    · simp

theorem rdropWhile_congr {p q : UInt8 → Bool} {l : List UInt8} (same : ∀ x ∈ l, p x = q x) :
    l.rdropWhile p = l.rdropWhile q := by
  induction l using reverseRecOn with
  | nil => rfl
  | append_singleton l x ih =>
    rw [rdropWhile_concat,rdropWhile_concat,same x (by simp),ih fun y inside => same y (by simp [inside])]

/-- The characters of a line that is edited. -/
def Open (current : List UInt8) : Prop := ∀ ch ∈ current, ends_line ch = false
theorem ends_newline : ends_line newline = true := by decide

/-- The editing keys leave all before the current line. -/
theorem press_tty_edit {t : Tty} {d : Discipline} {before : List UInt8} {key : Key} (closed : Closed before)
    (editing : Open d.current) (split_at : t.input = before ++ d.current)
    (edits : key = .erase ∨ key = .word_erase ∨ key = .kill) (full : Bool) :
    (press_tty t key).input = before ++ (d.press full key).current := by
  rcases edits with rfl | rfl | rfl
  · simp only [press_tty,Discipline.press,split_at]
    rcases eq_nil_or_concat d.current with empty | ⟨rest,last,shape⟩
    · rw [empty]
      rcases closed with rfl | ⟨body,rfl⟩
      · simp
      · simp [ends_newline]
    have inside : ends_line last = false := editing last (by simp [shape])
    rw [shape]
    simp [inside,← append_assoc]
  · simp only [press_tty,Discipline.press,split_at]
    have blanks := @rdropWhile_closed (fun last => decide (last = blank)) before closed (by decide) d.current
    rw [blanks,rdropWhile_closed closed (by decide)]
    congr 1
    refine rdropWhile_congr fun ch inside => ?_
    have there : ch ∈ d.current := ( rdropWhile_prefix _ _).subset inside
    simp [editing ch there]
  simp only [press_tty,Discipline.press,split_at]
  rw [rdropWhile_closed closed (by decide),rdropWhile_eq_nil_iff.mpr]
  intro ch inside
  simp [editing ch inside]

/-! ### The queue and the lines -/

def Complete (line : List UInt8) : Prop := ∃ body, line = body ++ [newline] ∧ Open body

/-- Only the last completed line can end with an end of file. -/
def Shaped (eof_pending : Bool) : List (List UInt8) → Prop
  | [] => eof_pending = false
  | line :: lines => Complete line ∧ Shaped eof_pending lines ∨ eof_pending = true ∧ lines = [] ∧ Open line
variable {line : List UInt8}

theorem Open.not_complete (editing : Open line) : ¬ Complete line := by
  rintro ⟨body,rfl,_⟩
  have last := editing newline (by simp)
  contradiction

variable {lines : List (List UInt8)}

theorem Shaped.complete (shaped : Shaped false lines) : ∀ line ∈ lines, Complete line := by
  induction lines with
  | nil => simp
  | cons line lines ih =>
    rcases shaped with ⟨complete,rest⟩ | ⟨ended,_⟩
    · simpa using ⟨complete,ih rest⟩
    · contradiction

variable {eof_pending : Bool}

theorem Shaped.append (shaped : Shaped false lines)
    (last : Shaped eof_pending [line]) : Shaped eof_pending (lines ++ [line]) := by
  induction lines with
  | nil => exact last
  | cons first lines ih =>
    rcases shaped with ⟨complete,rest⟩ | ⟨ended,_⟩
    · exact .inl ⟨complete,ih rest⟩
    · contradiction

theorem closed_flatten (complete : ∀ line ∈ lines, Complete line) : Closed lines.flatten := by
  rcases eq_nil_or_concat lines with rfl | ⟨rest,last,rfl⟩
  · exact .inl rfl
  obtain ⟨body,rfl,_⟩ := complete last (by simp)
  exact .inr ⟨rest.flatten ++ body,by simp⟩

variable {read tail : List UInt8}

theorem Complete.rest (complete : Complete (read ++ tail)) (more : tail ≠ []) : Complete tail := by
  obtain ⟨body,shape,editing⟩ := complete
  rcases eq_nil_or_concat tail with rfl | ⟨init,last,rfl⟩
  · contradiction
  rw [concat_eq_append,← append_assoc] at shape
  obtain ⟨rfl,rfl⟩ := append_singleton_inj.mp shape
  exact ⟨init,by simp,fun ch inside => editing ch (by simp [inside])⟩

variable {ch : UInt8}

theorem Complete.at_end (complete : Complete (read ++ ch :: tail)) (ends : ends_line ch = true) : tail = [] := by
  obtain ⟨body,shape,editing⟩ := complete
  rcases eq_nil_or_concat tail with rfl | ⟨init,last,rfl⟩
  · rfl
  have same : (read ++ ch :: init) ++ [last] = body ++ [newline] := by simpa using shape
  obtain ⟨rfl,_⟩ := append_singleton_inj.mp same
  have inside := editing ch (by simp)
  rw [ends] at inside
  contradiction

theorem Complete.goes_on {read : List UInt8} (complete : Complete (read ++ [ch])) : ends_line ch = true := by
  obtain ⟨body,shape,_⟩ := complete
  obtain ⟨_,rfl⟩ := append_singleton_inj.mp shape
  exact ends_newline
def held : Option Reading → List UInt8
  | none => []
  | some r => r.got
def got (s : System) : List UInt8 := s.readers.flatMap held
theorem held_idle {r : Option Reading} (nothing : idle r = true) : held r = [] := by
  cases r with
  | none => rfl
  | some r => simpa [idle,held] using nothing

theorem flatMap_idle {readers : List (Option Reading)} (nothing : readers.all idle = true) : readers.flatMap held =
    [] := by
  rw [flatMap_eq_nil_iff]
  intro r there
  exact held_idle (all_eq_true.mp nothing r there)

variable {i : Nat}

theorem flatMap_set {readers : List (Option Reading)} (inside : i < readers.length)
    (others : (readers.set i none).all idle = true) (r : Option Reading) : (readers.set i r).flatMap held = held r := by
  induction readers generalizing i with
  | nil => simp at inside
  | cons first readers ih =>
    cases i with
    | zero =>
      have later : readers.all idle = true := by simpa [idle] using others
      simp [flatMap_idle later]
    | succ i =>
      obtain ⟨before,later⟩ : idle first = true ∧ (readers.set i none).all idle = true := by
        exact Bool.and_eq_true_iff.mp others
      rw [set_cons_succ,flatMap_cons,held_idle before,nil_append]
      exact ih (by simpa using inside) later

theorem flatMap_replace {readers : List (Option Reading)} {r t : Option Reading} (at_i : readers[i]? = some r)
    (same : held t = held r) : (readers.set i t).flatMap held = readers.flatMap held := by
  induction readers generalizing i with
  | nil => simp at at_i
  | cons first readers ih =>
    cases i with
    | zero =>
      obtain rfl : first = r := by simpa using at_i
      simp [same]
    | succ i => simp [ih (by simpa using at_i)]

structure Sound (s : System) : Prop where
  canonical : s.tty.termios.ICANON = true
  echo : s.tty.termios.ECHO = true
  editing : Open s.discipline.current
  shaped : Shaped s.tty.eof_pending s.discipline.lines
  ended : s.tty.eof_pending = true → s.discipline.current = []
  content : got s ++ s.tty.input = s.discipline.lines.flatten ++ s.discipline.current
  inside : Open (got s)
  begun : got s ≠ [] → ∃ line lines, s.discipline.lines = line :: lines ∧ got s <+: line
  short : ∀ r, some r ∈ s.readers → r.got.length < r.count
  kept : ∀ e ∈ s.log, e.expected = some e.bytes

variable {tty : Tty}

theorem Sound.init (canonical : tty.termios.ICANON = true) (echo : tty.termios.ECHO = true) : Sound (first tty) where
  canonical := canonical
  echo := echo
  editing := by simp [first,Open]
  shaped := rfl
  ended := by simp [first]
  content := rfl
  inside := by simp [first,got,Open]
  begun := by simp [first,got]
  short := by simp [first]
  kept := by simp [first]

/-! ### Typing -/

variable {s : System}

/-- While no end of file waits, the queue ends in the current line. -/
theorem Sound.split_input (sound : Sound s) (going : s.tty.eof_pending = false) :
    ∃ before, Closed before ∧ s.tty.input = before ++ s.discipline.current ∧
      got s ++ before = s.discipline.lines.flatten := by
  have shaped := sound.shaped
  rw [going] at shaped
  have complete := shaped.complete
  have closed := closed_flatten complete
  by_cases none_read : got s = []
  · grind [content]
  obtain ⟨line,lines,shape,left,rfl⟩ := sound.begun none_read
  have more : left ≠ [] := by
    rintro rfl
    have whole := complete (got s ++ []) (by simp [shape])
    rw [append_nil] at whole
    exact sound.inside.not_complete whole
  have flat : got s ++ (left ++ lines.flatten) = s.discipline.lines.flatten := by simp [shape]
  refine ⟨left ++ lines.flatten,?_,?_,flat⟩
  · have rest := (complete (got s ++ left) (by simp [shape])).rest more
    have later : ∀ line ∈ left :: lines, Complete line :=
      forall_mem_cons.mpr ⟨rest,fun other there => complete other (by simp [shape,there])⟩
    exact closed_flatten later
  · grind [content,append_cancel_left]

/-- A key that changes the current line only. -/
theorem Sound.typed (sound : Sound s) {before input current : List UInt8}
    (split_at : got s ++ before = s.discipline.lines.flatten) (new : input = before ++ current)
    (editing : Open current) (going : s.tty.eof_pending = false) :
    Sound { s with tty := { s.tty with input := input }, discipline := { s.discipline with current := current } } where
  canonical := sound.canonical
  echo := sound.echo
  editing := editing
  shaped := sound.shaped
  ended ended := by rw [going] at ended; contradiction
  content := by
    change got s ++ input = s.discipline.lines.flatten ++ current
    rw [new,← split_at,append_assoc]
  inside := sound.inside
  begun := sound.begun
  short := sound.short
  kept := sound.kept

theorem Sound.completed (sound : Sound s) {input line : List UInt8} (going : s.tty.eof_pending = false)
    (last : Shaped eof_pending [line]) (content : got s ++ input = s.discipline.lines.flatten ++ line) :
    Sound { s with
      tty := { s.tty with input := input, eof_pending := eof_pending }
      discipline := ⟨s.discipline.lines ++ [line],[]⟩ } where
  canonical := sound.canonical
  echo := sound.echo
  editing := by simp [Open]
  shaped := by
    have shaped := sound.shaped
    rw [going] at shaped
    exact shaped.append last
  ended _ := rfl
  content := by
    change got s ++ input = (s.discipline.lines ++ [line]).flatten ++ []
    simpa using content
  inside := sound.inside
  begun := by
    intro some_read
    obtain ⟨first,lines,shape,before⟩ := sound.begun some_read
    exact ⟨first,lines ++ [line],by simp [shape],before⟩
  short := sound.short
  kept := sound.kept

theorem Open.append {current : List UInt8} (editing : Open current) (goes : ends_line ch = false) :
    Open (current ++ [ch]) := by
  exact forall_mem_append.mpr ⟨editing,forall_mem_singleton.mpr goes⟩

theorem press_editing {d : Discipline} {key : Key} (editing : Open d.current)
    (edits : key = .erase ∨ key = .word_erase ∨ key = .kill) (full : Bool) :
    Open (d.press full key).current ∧ (d.press full key).lines = d.lines := by
  rcases edits with rfl | rfl | rfl
  · exact ⟨fun ch inside => editing ch (mem_of_mem_dropLast inside),rfl⟩
  · refine ⟨fun ch inside => editing ch ?_,rfl⟩
    exact ( rdropWhile_prefix _ _).subset (( rdropWhile_prefix _ _).subset inside)
  · exact ⟨fun ch inside => absurd inside not_mem_nil,rfl⟩

section
variable (sound : Sound s)
include sound

theorem Sound.press_key {key : Key} (going : s.tty.eof_pending = false)
    (plain : key ≠ .char carriage_return) :
    Sound { s with tty := press_tty s.tty key, discipline := s.discipline.press (full s.tty) key } := by
  obtain ⟨before,closed,split_at,lines⟩ := sound.split_input going
  have edit : key = .erase ∨ key = .word_erase ∨ key = .kill →
      Sound { s with tty := press_tty s.tty key, discipline := s.discipline.press (full s.tty) key } := by
    intro edits
    have input := press_tty_edit closed sound.editing split_at edits (full s.tty)
    obtain ⟨editing,same⟩ := press_editing sound.editing edits (full s.tty)
    have tty : press_tty s.tty key = { s.tty with input := (press_tty s.tty key).input } := by
      rcases edits with rfl | rfl | rfl <;> rfl
    have discipline : s.discipline.press (full s.tty) key =
        { s.discipline with current := (s.discipline.press (full s.tty) key).current } := by
      rcases edits with rfl | rfl | rfl <;> rfl
    rw [tty,discipline]
    exact sound.typed lines input editing going
  cases key with
  | erase => exact edit (.inl rfl)
  | word_erase => exact edit (.inr (.inl rfl))
  | kill => exact edit (.inr (.inr rfl))
  | eof => exact sound.completed going (.inr ⟨rfl,rfl,sound.editing⟩) sound.content
  | char ch =>
    simp only [press_tty,Discipline.press]
    by_cases is_full : full s.tty = true
    · rw [if_pos is_full,if_pos is_full]
      exact sound
    rw [if_neg is_full,if_neg is_full]
    by_cases ends : ch = newline
    · rw [if_pos ends]
      have complete : Complete (s.discipline.current ++ [ch]) := ⟨s.discipline.current,by rw [ends],sound.editing⟩
      have content : got s ++ (s.tty.input ++ [ch]) = s.discipline.lines.flatten ++ (s.discipline.current ++ [ch]) := by
        rw [← append_assoc,sound.content,append_assoc]
      have done := sound.completed going (.inl ⟨complete,rfl⟩) content
      rw [← going] at done
      exact done
    rw [if_neg ends]
    have goes : ends_line ch = false := by
      have other : ch ≠ carriage_return := fun same => plain (by rw [same])
      simp [ends_line,ends,other]
    exact sound.typed lines (by rw [split_at,append_assoc]) (sound.editing.append goes) going

theorem Sound.press {received : UInt8} (careful : orderly s (.type received) = true) :
    Sound (press s received) := by
  unfold LineDiscipline.press
  rw [input_char_key sound.canonical sound.echo]
  simp only [orderly] at careful
  rcases pressed : key_of s.tty.termios received with _ | key
  · exact sound
  rw [pressed] at careful
  obtain ⟨going,plain⟩ : s.tty.eof_pending = false ∧ key ≠ .char carriage_return := by simpa using careful
  exact sound.press_key going plain

/-! ### Reading -/

theorem Sound.finish (others : (s.readers.set i none).all idle = true) {count : Nat} {bytes line : List UInt8}
    {lines left : List (List UInt8)} (shape : s.discipline.lines = line :: lines) (same : tty.termios = s.tty.termios)
    (given : line.take count = bytes) (rest : (if line.length ≤ count then lines else line.drop count :: lines) = left)
    (shaped : Shaped tty.eof_pending left) (ended : tty.eof_pending = true → s.discipline.current = [])
    (content : tty.input = left.flatten ++ s.discipline.current) : Sound (finish s i tty count bytes) := by
  have none_read : (s.readers.set i none).flatMap held = [] := flatMap_idle others
  have read : s.discipline.read count = some (bytes,{ s.discipline with lines := left }) := by
    rw [Discipline.read,shape,← given,← rest]
  have log : ∀ e ∈ s.log ++ [⟨bytes,some bytes⟩], e.expected = some e.bytes :=
    forall_mem_append.mpr ⟨sound.kept,forall_mem_singleton.mpr rfl⟩
  unfold LineDiscipline.finish
  rw [read]
  exact {
    canonical := by rw [same]; exact sound.canonical
    echo := by rw [same]; exact sound.echo
    editing := sound.editing
    shaped := shaped
    ended := ended
    content := by rw [got,none_read]; exact content
    inside := by simp [got,none_read,Open]
    begun := by simp [got,none_read]
    short := by grind [short]
    kept := log }

theorem Sound.first_line (ready : got s ≠ [] ∨ s.tty.eof_pending = true ∨ newline ∈ s.tty.input) :
    ∃ left lines, s.discipline.lines = (got s ++ left) :: lines ∧
      s.tty.input = left ++ (lines.flatten ++ s.discipline.current) := by
  have shaped := sound.shaped
  have content := sound.content
  obtain ⟨line,lines,shape,left,whole⟩ : ∃ line lines, s.discipline.lines = line :: lines ∧ got s <+: line := by
    by_cases none_read : got s = []
    · rw [none_read] at content ⊢
      rcases lines : s.discipline.lines with _ | ⟨line,later⟩
      · rw [lines] at content shaped
        have waits : s.tty.eof_pending = false := shaped
        have inside : newline ∈ s.tty.input := by simpa [none_read,waits] using ready
        have input : s.tty.input = s.discipline.current := by simpa using content
        have edited := sound.editing newline (input ▸ inside)
        contradiction
      · exact ⟨line,later,rfl, nil_prefix⟩
    · exact sound.begun none_read
  grind [append_cancel_left]

/-- All of a line is taken only at an end of file. -/
theorem Sound.all_taken (shape : s.discipline.lines = got s :: lines) :
    s.tty.eof_pending = true ∧ lines = [] ∧ s.discipline.current = [] := by
  have shaped := sound.shaped
  rw [shape] at shaped
  rcases shaped with ⟨complete,_⟩ | ⟨ended,none_left,_⟩
  · exact absurd complete sound.inside.not_complete
  · exact ⟨ended,none_left,sound.ended ended⟩

/-- The queue's next character is the first line's. -/
theorem Sound.next_char {rest : List UInt8} (queue : s.tty.input = ch :: rest)
    (ready : got s ≠ [] ∨ s.tty.eof_pending = true ∨ newline ∈ s.tty.input) :
    ∃ tail lines, s.discipline.lines = (got s ++ ch :: tail) :: lines ∧
      rest = tail ++ (lines.flatten ++ s.discipline.current) := by
  obtain ⟨left,lines,shape,input⟩ := sound.first_line ready
  rw [queue] at input
  cases left with
  | nil =>
    rw [append_nil] at shape
    obtain ⟨_,none_left,current⟩ := sound.all_taken shape
    simp [none_left,current] at input
  | cons first tail =>
    obtain ⟨rfl,rest⟩ := cons.inj input
    exact ⟨tail,lines,shape,rest⟩

/-- The queue is empty; a read has taken something or an end of file waits. -/
theorem Sound.at_rest (queue : s.tty.input = []) (ready : got s ≠ [] ∨ s.tty.eof_pending = true) :
    s.tty.eof_pending = true ∧ s.discipline.lines = [got s] ∧ s.discipline.current = [] := by
  obtain ⟨left,lines,shape,input⟩ := sound.first_line (ready.imp_right .inl)
  rw [queue] at input
  obtain ⟨rfl,_⟩ : left = [] ∧ _ := by simpa using input.symm
  rw [append_nil] at shape
  obtain ⟨ended,rfl,current⟩ := sound.all_taken shape
  exact ⟨ended,shape,current⟩

end

variable {i count : Nat}

section
variable (sound : Sound s) (others : (s.readers.set i none).all idle = true) {tail rest : List UInt8}
  (shape : s.discipline.lines = (got s ++ ch :: tail) :: lines)
  (after : rest = tail ++ (lines.flatten ++ s.discipline.current))
include sound others shape after

theorem Sound.take_end (short : (got s).length < count)
    (ends : ends_line ch = true) : Sound (LineDiscipline.finish s i { s.tty with input := rest } count (got s ++ [ch])) := by
  have shaped := sound.shaped
  rw [shape] at shaped
  rcases shaped with ⟨complete,shaped⟩ | ⟨_,_,editing⟩
  · have last := complete.at_end ends
    subst last
    have fits : (got s ++ [ch]).length ≤ count := by simpa using short
    exact sound.finish others shape rfl (take_of_length_le fits) (if_pos fits) shaped sound.ended after
  have inside := editing ch (by simp)
  rw [ends] at inside
  contradiction

theorem Sound.take_count (enough : (got s).length + 1 = count)
    (goes : ends_line ch = false) (not_exact : s.tty.eof_pending = true → rest ≠ []) :
    Sound (LineDiscipline.finish s i { s.tty with input := rest } count (got s ++ [ch])) := by
  have shaped := sound.shaped
  have whole : got s ++ ch :: tail = (got s ++ [ch]) ++ tail := by simp
  have length : (got s ++ [ch]).length = count := by simpa using enough
  rw [shape,whole] at shaped
  have more : tail ≠ [] := by
    rintro rfl
    rw [append_nil] at shaped
    rcases shaped with ⟨complete,_⟩ | ⟨ended,none_left,_⟩
    · have last := complete.goes_on
      rw [goes] at last
      contradiction
    · exact not_exact ended (by simp [after,none_left,sound.ended ended])
  have long : ¬ (got s ++ ch :: tail).length ≤ count := by
    have positive := length_pos_iff.mpr more
    rw [whole,length_append,length]
    omega
  have given : (got s ++ ch :: tail).take count = got s ++ [ch] := by rw [whole,← length,take_left]
  have left : (if (got s ++ ch :: tail).length ≤ count then lines else (got s ++ ch :: tail).drop count :: lines) =
      tail :: lines := by
    rw [if_neg long,whole,← length,drop_left]
  refine sound.finish others shape rfl given left ?_ sound.ended (by simp [after])
  rcases shaped with ⟨complete,shaped⟩ | ⟨ended,none_left,editing⟩
  · exact .inl ⟨complete.rest more,shaped⟩
  · exact .inr ⟨ended,none_left,fun other there => editing other (by simp [there])⟩

end

variable {r : Reading}

theorem Sound.take_more (sound : Sound s) (inside : i < s.readers.length)
    (others : (s.readers.set i none).all idle = true) (so_far : got s = r.got) {tail rest : List UInt8}
    (queue : s.tty.input = ch :: rest)
    (shape : s.discipline.lines = (got s ++ ch :: tail) :: lines) (goes : ends_line ch = false)
    (short : (r.got ++ [ch]).length < r.count) :
    Sound { s with
      tty := { s.tty with input := rest }
      readers := s.readers.set i (some { r with got := r.got ++ [ch] }) } := by
  have now : (s.readers.set i (some { r with got := r.got ++ [ch] })).flatMap held = r.got ++ [ch] :=
    flatMap_set inside others _
  exact { sound with
    content := by
      have content := sound.content
      rw [queue,so_far] at content
      rw [got,now,append_assoc]
      exact content
    inside := by
      have inside := sound.inside
      rw [so_far] at inside
      rw [got,now]
      exact inside.append goes
    begun := by
      intro _
      rw [so_far] at shape
      rw [got,now]
      exact ⟨_,lines,shape,tail,by simp⟩
    short := by grind [short] }

/-- Where the others have taken nothing, this one has taken all. -/
theorem got_alone (at_i : s.readers[i]? = some (some r))
    (others : (s.readers.set i none).all idle = true) : got s = r.got := by
  obtain ⟨inside,_⟩ := List.getElem?_eq_some_iff.mp at_i
  have alone := flatMap_set inside others (some r)
  rw [flatMap_replace at_i rfl] at alone
  exact alone

variable {s t : System}

theorem Sound.turn (sound : Sound s) (at_i : s.readers[i]? = some (some r))
    (careful : orderly s (.turn i) = true) (turn : read_turn s i r = some t) : Sound t := by
  simp only [orderly,at_i] at careful
  obtain ⟨others,careful⟩ := Bool.and_eq_true_iff.mp careful
  have so_far := got_alone at_i others
  have short := sound.short r (mem_of_getElem? at_i)
  unfold read_turn at turn
  rcases queue : s.tty.input with _ | ⟨ch,rest⟩
  · rw [queue] at turn
    by_cases ready : got s ≠ [] ∨ s.tty.eof_pending = true
    · obtain ⟨ended,lines,current⟩ := sound.at_rest queue ready
      rw [if_pos ended] at turn
      cases turn
      rw [so_far] at lines
      have given : r.got.take r.count = r.got := take_of_length_le (le_of_lt short)
      have rest : (if r.got.length ≤ r.count then [] else [r.got.drop r.count]) = [] := if_pos (le_of_lt short)
      exact sound.finish others lines rfl given rest rfl (fun _ => current) (by simp [queue,current])
    · grind
  rw [queue] at turn careful
  dsimp only at turn careful
  obtain ⟨ready,not_exact⟩ := Bool.and_eq_true_iff.mp careful
  have ready : got s ≠ [] ∨ s.tty.eof_pending = true ∨ newline ∈ s.tty.input := by
    rw [so_far,queue]
    simpa [or_assoc] using ready
  obtain ⟨tail,lines,shape,after⟩ := sound.next_char queue ready
  rcases ends : ends_line ch with _ | _
  · by_cases enough : (r.got ++ [ch]).length = r.count
    · simp only [ends,Bool.false_or,decide_eq_true_eq,if_pos enough,Option.some.injEq] at turn
      subst turn
      rw [← so_far] at enough not_exact ⊢
      have enough : (got s).length + 1 = r.count := by simpa using enough
      refine sound.take_count others shape after enough ends fun ended none_left => ?_
      have other : ch ≠ newline := by
        rintro rfl
        contradiction
      simp [ended,none_left,other,enough] at not_exact
    simp only [ends,Bool.false_or,decide_eq_true_eq,if_neg enough,Option.some.injEq] at turn
    subst turn
    obtain ⟨inside,_⟩ := List.getElem?_eq_some_iff.mp at_i
    have length : (r.got ++ [ch]).length = r.got.length + 1 := by simp
    exact sound.take_more inside others so_far queue shape ends (by omega)
  rw [ends] at turn
  cases turn
  rw [← so_far] at short ⊢
  exact sound.take_end others shape after short ends

/-! ### Runs -/

theorem Sound.readers (sound : Sound s) {readers : List (Option Reading)}
    (same : readers.flatMap held = s.readers.flatMap held) (short : ∀ r, some r ∈ readers → r.got.length < r.count) :
    Sound { s with readers := readers } := by
  have taken : got { s with readers := readers } = got s := same
  exact { sound with
    content := by rw [taken]; exact sound.content
    inside := by rw [taken]; exact sound.inside
    begun := by rw [taken]; exact sound.begun
    short := short }

theorem Sound.step {l : Label} (sound : Sound s) (taken : Careful s l t) : Sound t := by
  obtain ⟨taken,careful⟩ := taken
  unfold Step LineDiscipline.step at taken
  cases l with
  | type received =>
    cases taken
    exact sound.press careful
  | read count =>
    dsimp only at taken
    by_cases positive : 0 < count
    · rw [if_pos positive] at taken
      cases taken
      refine sound.readers (by simp [held]) fun r there => ?_
      rcases mem_append.mp there with there | there
      · exact sound.short r there
      cases mem_singleton.mp there
      exact positive
    · rw [if_neg positive] at taken
      contradiction
  | turn i =>
    rcases at_i : s.readers[i]? with _ | _ | r
    · simp [at_i] at taken
    · simp [at_i] at taken
    · simp only [at_i] at taken
      exact sound.turn at_i careful taken
  | interrupt i =>
    rcases at_i : s.readers[i]? with _ | _ | r
    · simp [at_i] at taken
    · simp [at_i] at taken
    simp only [at_i,Option.ite_none_right_eq_some,Option.some.injEq] at taken
    obtain ⟨none_read,rfl⟩ := taken
    refine sound.readers (flatMap_replace at_i none_read.symm) fun r there => ?_
    grind [short]

theorem Sound.sleeps (sound : Sound s) (sleeps : blocked s = true) : s.discipline.lines = [] := by
  simp only [blocked,Bool.and_eq_true,Bool.not_eq_true',List.isEmpty_iff] at sleeps
  obtain ⟨⟨⟨_,none_read⟩,queue⟩,waits⟩ := sleeps
  have content := sound.content
  rw [got,flatMap_idle none_read,queue] at content
  have shaped := sound.shaped
  rw [waits] at shaped
  rcases lines : s.discipline.lines with _ | ⟨line,later⟩
  · rfl
  obtain ⟨body,rfl,_⟩ := shaped.complete line (by simp [lines])
  simp [lines] at content

/-- In orderly runs every read at a canonical terminal returns what the line
    discipline gives, and reads sleep only where there is no line. -/
theorem reads_follow_lines {tty : Tty} (canonical : tty.termios.ICANON = true) (echo : tty.termios.ECHO = true)
    {labels : List Label} {s : System} (run : Run Careful (first tty) labels s) :
    (∀ e ∈ s.log, e.expected = some e.bytes) ∧ (blocked s = true → s.discipline.lines = []) := by
  have sound : Sound s := run.invariant (fun _ _ _ sound taken => Sound.step sound taken) (Sound.init canonical echo)
  exact ⟨sound.kept,sound.sleeps⟩

def console : Tty :=
  ⟨⟨false,true,false,true,true,true,true,true,3,26,4,127,21,23,1,0⟩,[],false,⟨[],no_output⟩,false,[],0⟩
def typed (received : List UInt8) (labels : List Label) : List Label := received.map .type ++ labels

/-- A line is typed, corrected, completed and read in two parts, then an end of file. -/
theorem reads_follow_lines_corrected :
    ∃ labels s, Run Careful (first console) labels s ∧ s.log.map Entry.bytes = [[97],[98,10],[]] ∧
      (∀ e ∈ s.log, e.expected = some e.bytes) ∧ (blocked s = true → s.discipline.lines = []) := by
  have found : ((typed [97,99,127,98,10,4]
      [.read 1,.turn 0,.read 9,.turn 1,.turn 1,.read 9,.turn 2]).foldlM
      (fun s l => if orderly s l then step s l else none) (first console)).any
      (fun s : System => s.log.map Entry.bytes = [[97],[98,10],[]]) = true := by decide +kernel
  obtain ⟨s,run,held⟩ := Run.ends_checked found
  exact ⟨_,s,run,by simpa using held,reads_follow_lines rfl rfl run⟩

/-- A read returns two characters of an incomplete line; an end of file is found after
    the next line; one of two is lost; two reads share a line. -/
theorem lines_not_followed :
    (∃ labels s, Run Step (first console) labels s ∧ s.log.map Entry.bytes = [[97,98]] ∧
      s.log.map Entry.expected = [none]) ∧
    (∃ labels s, Run Step (first console) labels s ∧ s.log.map Entry.bytes = [[97,98,10],[]] ∧
      s.log.map Entry.expected = [some [97],some [98,10]]) ∧
    (∃ labels s, Run Step (first console) labels s ∧ s.log.map Entry.bytes = [[]] ∧ blocked s = true ∧
      s.discipline.lines = [[]]) ∧
    (∃ labels s, Run Step (first console) labels s ∧ s.log.map Entry.bytes = [[98,10],[97]] ∧
      s.log.map Entry.expected = [some [97,98,10],none]) := by
  refine ⟨?_,?_,?_,?_⟩
  · have found : ((typed [97,98] [.read 9,.turn 0,.turn 0,.turn 0]).foldlM step (first console)).any
        (fun s : System => s.log.map Entry.bytes = [[97,98]] ∧ s.log.map Entry.expected = [none]) = true := by decide +kernel
    obtain ⟨s,run,held⟩ := Run.ends found
    exact ⟨_,s,run,by simpa using held⟩
  · have found : ((typed [97,4,98,10] [.read 9,.turn 0,.turn 0,.turn 0,.read 9,.turn 1]).foldlM
        step (first console)).any
        (fun s : System => s.log.map Entry.bytes = [[97,98,10],[]] ∧
        s.log.map Entry.expected = [some [97],some [98,10]]) = true := by
      decide +kernel
    obtain ⟨s,run,held⟩ := Run.ends found
    exact ⟨_,s,run,by simpa using held⟩
  · have found : ((typed [4,4] [.read 9,.turn 0,.read 9]).foldlM step (first console)).any
        (fun s : System => s.log.map Entry.bytes = [[]] ∧ blocked s = true ∧
            s.discipline.lines = [[]]) = true := by decide +kernel
    obtain ⟨s,run,held⟩ := Run.ends found
    exact ⟨_,s,run,by simpa using held⟩
  have found : ((typed [97,98,10] [.read 9,.read 9,.turn 0,.turn 1,.turn 1,.turn 0]).foldlM
      step (first console)).any
      (fun s : System => s.log.map Entry.bytes = [[98,10],[97]] ∧
      s.log.map Entry.expected = [some [97,98,10],none]) = true := by
    decide +kernel
  obtain ⟨s,run,held⟩ := Run.ends found
  exact ⟨_,s,run,by simpa using held⟩

end ArmOS.LineDiscipline

