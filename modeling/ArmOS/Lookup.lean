import ArmOS.Paths

/-!
What a lookup reaches. Along a walk the text of the path and the inode belong
together: walking the text again leads to the inode. A symlink starts a new walk one
level deeper, so a lookup always ends.
-/
namespace ArmOS.Lookup
open Tokens Paths List

variable {Inode : Type} {tree : Vfs Inode}

/-- The inode at the end of components without dots or symlinks. -/
def plain_walk (tree : Vfs Inode) : Inode → List (List Char) → List (List Char) → Option Inode
  | current, _, [] => some current
  | current, gone, token :: rest =>
    if tree.mode current ≠ .dir ∨ MAX_PATH ≤ (render '/' (gone ++ [token])).length then none
    else
      match tree.next current (render '/' (gone ++ [token])) token with
      | none => none
      | some next => plain_walk tree next (gone ++ [token]) rest

/-- The inode stands at the end of the components. -/
structure Stands (tree : Vfs Inode) (current : Inode) (components : List (List Char)) : Prop where
  all : ∀ c ∈ components, Component c
  reached : plain_walk tree tree.root_inode [] components = some current
theorem Stands.root (tree : Vfs Inode) : Stands tree tree.root_inode [] := ⟨by simp,rfl⟩

theorem plain_walk_append (current : Inode) (gone first second : List (List Char)) :
    plain_walk tree current gone (first ++ second) =
      (plain_walk tree current gone first).bind (fun next => plain_walk tree next (gone ++ first) second) := by
  induction first generalizing current gone with
  | nil => simp [plain_walk]
  | cons token rest ih =>
    simp only [cons_append,plain_walk]
    split
    · rfl
    split
    · rfl
    rw [ih]
    simp

variable {current : Inode} {components : List (List Char)}
variable {gone rest : List (List Char)} {token : List Char} {node : Inode}

theorem plain_walk_cons (reached : plain_walk tree current gone (token :: rest) = some node) :
    tree.mode current = .dir ∧ (render '/' (gone ++ [token])).length < MAX_PATH ∧
      ∃ next, tree.next current (render '/' (gone ++ [token])) token = some next ∧
        plain_walk tree next (gone ++ [token]) rest = some node := by
  unfold plain_walk at reached
  split at reached
  · cases reached
  rename_i passed
  split at reached
  · cases reached
  · grind

theorem Stands.step {next : Inode} (stands : Stands tree current components) (component : Component token)
    (directory : tree.mode current = .dir) (fits : (render '/' (components ++ [token])).length < MAX_PATH)
    (found : tree.next current (render '/' (components ++ [token])) token = some next) :
    Stands tree next (components ++ [token]) := by
  constructor
  · exact forall_mem_append.mpr ⟨stands.all,forall_mem_singleton.mpr component⟩
  rw [plain_walk_append,stands.reached]
  simp only [Option.bind_some,nil_append,plain_walk]
  rw [if_neg (by rintro (other | long); exacts [other directory,by omega]),found]

theorem Stands.before {first second : List (List Char)} (stands : Stands tree current (first ++ second))
    (more : second ≠ []) : ∃ parent, Stands tree parent first ∧ tree.mode parent = .dir := by
  obtain ⟨token,rest,rfl⟩ := exists_cons_of_ne_nil more
  have reached := stands.reached
  rw [plain_walk_append] at reached
  obtain ⟨parent,first_part,second_part⟩ := Option.bind_eq_some_iff.mp reached
  exact ⟨parent,⟨(forall_mem_append.mp stands.all).1,first_part⟩,
    (plain_walk_cons second_part).1⟩

theorem Stands.parent (stands : Stands tree current components) (directory : tree.mode current = .dir) :
    ∃ parent, Stands tree parent components.dropLast ∧ tree.mode parent = .dir := by
  rcases eq_nil_or_concat components with rfl | ⟨before,last,rfl⟩
  · exact ⟨current,stands,directory⟩
  rw [concat_eq_append] at stands ⊢
  rw [dropLast_concat]
  exact stands.before (by simp)

variable {current_path : List Char}

theorem deliver_writes (writes : Writes current_path components) (resolved : Option Nat) :
    deliver current current_path resolved = match resolved with
      | none => .found current (path_of components)
      | some size =>
        if size < (path_of components).length + 1 then .too_long else .found current (path_of components) := by
  cases resolved with
  | none | some size => rw [deliver,or_root_writes writes]

def Room (resolved : Option Nat) (path : List Char) : Prop := ∀ size, resolved = some size → path.length < size

section
variable {again : List Char → Bool → Nat → Option Nat → Outcome Inode} {follow : Bool} {depth : Nat}
  {resolved : Option Nat}

theorem walk_plain (gone_components : ∀ c ∈ gone, Component c) (components : ∀ c ∈ rest, Component c)
    (writes : Writes current_path gone) (reached : plain_walk tree current gone rest = some node)
    (final : tree.mode node = .link → follow = false ∨ rest = []) (room : Room resolved (path_of (gone ++ rest))) :
    walk tree again follow depth resolved current current_path rest = .found node (path_of (gone ++ rest)) := by
  induction rest generalizing current current_path gone with
  | nil =>
    cases reached
    rw [walk,deliver_writes writes,append_nil]
    cases resolved with
    | none => rfl
    | some size =>
      have := room size rfl
      rw [append_nil] at this
      exact if_neg (by omega)
  | cons token rest ih =>
    obtain ⟨directory,fits,next,found,later⟩ := plain_walk_cons reached
    have component := components token (mem_cons_self ..)
    have onward : ¬ (tree.mode next = .link ∧ (rest ≠ [] ∨ follow = true)) := by
      rintro ⟨link,more | followed⟩
      · obtain ⟨second,others,rfl⟩ := exists_cons_of_ne_nil more
        have := (plain_walk_cons later).1
        rw [link] at this
        cases this
      cases rest with
      | nil =>
        cases later
        rcases final link with no | none_left
        · rw [no] at followed
          cases followed
        · cases none_left
      | cons second others =>
        have := (plain_walk_cons later).1
        rw [link] at this
        cases this
    unfold walk
    rw [if_neg (by simpa using directory),if_neg component.2.1,if_neg component.2.2,append_writes gone_components writes,
      if_pos fits]
    dsimp only
    rw [found]
    dsimp only
    rw [if_neg onward,show gone ++ token :: rest = (gone ++ [token]) ++ rest by simp]
    refine ih ?_ (forall_mem_cons.mp components).2 (.inl rfl) later ?_ ?_
    · exact forall_mem_append.mpr ⟨gone_components,forall_mem_singleton.mpr component⟩
    · intro link
      rcases final link with no | none_left
      · exact .inl no
      · cases none_left
    rw [append_assoc]
    exact room

theorem lookup_plain (stands : Stands tree node components)
    (final : tree.mode node = .link → follow = false ∨ components = []) (shallow : depth ≤ MAX_SYMLINK_DEPTH)
    (room : Room resolved (path_of components)) (calls : Nat) :
    path_lookup_internal tree (calls + 1) (path_of components) follow depth resolved =
      .found node (path_of components) := by
  unfold path_lookup_internal
  rw [if_neg (by simp [path_of_head]),if_neg (by omega)]
  by_cases root : components = []
  · subst root
    cases stands.reached
    rw [if_pos (by rfl)]
    cases resolved with
    | none => rfl
    | some size => exact congrArg _ (if_pos (room size rfl))
  rw [if_neg (fun same => root ((path_of_root_iff stands.all).mp same)),tokens_path_of stands.all]
  exact walk_plain (by simp) stands.all (.inl rfl) stands.reached final room

theorem lookup_directory (stands : Stands tree node components) (directory : tree.mode node = .dir)
    (shallow : depth ≤ MAX_SYMLINK_DEPTH) (calls : Nat) :
    path_lookup_internal tree (calls + 1) (path_of components) true depth none = .found node (path_of components) :=
  lookup_plain stands (by simp [directory]) shallow (by simp [Room]) calls

/-! ### Every lookup ends -/

/-- A resolved inode comes with its place, and is no symlink that was to be followed. -/
structure Sound (tree : Vfs Inode) (follow : Bool) (resolved : Option Nat) (outcome : Outcome Inode) : Prop where
  ends : outcome ≠ .starved
  stands : ∀ inode path, outcome = .found inode path → ∃ components, Stands tree inode components ∧
    path = path_of components ∧ (tree.mode inode = .link → follow = false ∨ components = []) ∧ Room resolved path
theorem Sound.fails {outcome : Outcome Inode} (ends : outcome ≠ .starved)
    (fails : ∀ inode path, outcome ≠ .found inode path) : Sound tree follow resolved outcome :=
  ⟨ends,fun inode path found => absurd found (fails inode path)⟩

variable {calls : Nat}

/-- The loop keeps inode and text together. -/
theorem walk_sound (shallow : depth ≤ MAX_SYMLINK_DEPTH)
    (restarts : ∀ path, Sound tree follow resolved (path_lookup_internal tree (calls + 1) path follow (depth + 1) resolved))
    (stands : Stands tree current components) (writes : Writes current_path components)
    (final : tree.mode current = .link → follow = false ∨ components = []) (cut : ∀ token ∈ rest, Token '/' token) :
    Sound tree follow resolved
      (walk tree (path_lookup_internal tree (calls + 1)) follow depth resolved current current_path rest) := by
  induction rest generalizing current current_path components with
  | nil =>
    rw [walk,deliver_writes writes]
    cases resolved with
    | none =>
      refine ⟨by simp,?_⟩
      rintro inode path ⟨⟩
      exact ⟨components,stands,rfl,final,nofun⟩
    | some size =>
      dsimp only
      split
      · exact .fails (by simp) (by simp)
      rename_i fits
      refine ⟨by simp,?_⟩
      rintro inode path ⟨⟩
      refine ⟨components,stands,rfl,final,?_⟩
      rintro size ⟨⟩
      omega
  | cons token rest ih =>
    have later : ∀ t ∈ rest, Token '/' t := (forall_mem_cons.mp cut).2
    unfold walk
    split
    · exact .fails (by simp) (by simp)
    rename_i directory
    have directory : tree.mode current = .dir := by simpa using directory
    split
    · exact ih stands writes final later
    rename_i not_dot
    split
    · -- the walk to the parent is a plain one
      obtain ⟨parent,above,parent_directory⟩ := stands.parent directory
      have removed := remove_writes stands.all writes
      rw [or_root_writes removed,lookup_directory above parent_directory shallow]
      refine ih above removed ?_ later
      rw [parent_directory]
      rintro ⟨⟩
    rename_i not_dots
    rw [append_writes stands.all writes]
    split
    · exact .fails (by simp) (by simp)
    rename_i path appended
    have fits : (render '/' (components ++ [token])).length < MAX_PATH := by
      by_contra long
      rw [if_neg long] at appended
      cases appended
    rw [if_pos fits] at appended
    cases appended
    split
    · exact .fails (by simp) (by simp)
    rename_i next found
    split
    · unfold follow_link
      split
      · exact .fails (by simp) (by simp)
      split
      · exact .fails (by simp) (by simp)
      split
      · exact .fails (by simp) (by simp)
      dsimp only
      split
      · exact .fails (by simp) (by simp)
      · exact restarts _
    rename_i onward
    refine ih (stands.step ⟨cut token (mem_cons_self ..),not_dot,not_dots⟩ directory fits found)
      (.inl rfl) ?_ later
    intro link
    refine .inl ?_
    by_contra followed
    exact onward ⟨link,.inr (by simpa using followed)⟩

/-- Enough calls for the symlinks left are enough. -/
theorem lookup_sound (wide : ∀ size, resolved = some size → 1 < size)
    (enough : MAX_SYMLINK_DEPTH + 2 ≤ calls + depth) (shallow : depth ≤ MAX_SYMLINK_DEPTH + 1) (path : List Char) :
    Sound tree follow resolved (path_lookup_internal tree calls path follow depth resolved) := by
  induction calls generalizing depth path with
  | zero => omega
  | succ calls ih =>
    unfold path_lookup_internal
    split
    · exact .fails (by simp) (by simp)
    split
    · exact .fails (by simp) (by simp)
    rename_i below
    split
    · refine ⟨by cases resolved <;> simp,?_⟩
      intro inode path found
      refine ⟨[],?_⟩
      cases resolved with
      | none =>
        cases found
        exact ⟨.root tree,rfl,fun _ => .inr rfl,nofun⟩
      | some size =>
        have room := wide size rfl
        dsimp only at found
        rw [if_pos room] at found
        cases found
        refine ⟨.root tree,rfl,fun _ => .inr rfl,?_⟩
        rintro size ⟨⟩
        exact room
    obtain ⟨fewer,rfl⟩ : ∃ fewer, calls = fewer + 1 := ⟨calls - 1,by omega⟩
    exact walk_sound (by omega) (ih (by omega) (by omega)) (.root tree) (.inl rfl) (fun _ => .inr rfl)
      (fun token member => tokens_mem member)

theorem walk_stable (shallow : depth ≤ MAX_SYMLINK_DEPTH)
    (restarts : ∀ path, path_lookup_internal tree (calls + 2) path follow (depth + 1) resolved =
      path_lookup_internal tree (calls + 1) path follow (depth + 1) resolved)
    (stands : Stands tree current components) (writes : Writes current_path components)
    (cut : ∀ token ∈ rest, Token '/' token) :
    walk tree (path_lookup_internal tree (calls + 2)) follow depth resolved current current_path rest =
      walk tree (path_lookup_internal tree (calls + 1)) follow depth resolved current current_path rest := by
  induction rest generalizing current current_path components with
  | nil => rfl
  | cons token rest ih =>
    have later : ∀ t ∈ rest, Token '/' t := (forall_mem_cons.mp cut).2
    unfold walk
    by_cases directory : tree.mode current = .dir
    · simp only [ne_eq,directory,not_true_eq_false,if_false]
      by_cases is_dot : token = dot
      · simp only [if_pos is_dot]
        exact ih stands writes later
      simp only [if_neg is_dot]
      by_cases is_dots : token = dot_dot
      · simp only [if_pos is_dots]
        obtain ⟨parent,above,parent_directory⟩ := stands.parent directory
        have removed := remove_writes stands.all writes
        rw [or_root_writes removed,lookup_directory above parent_directory shallow,
          lookup_directory above parent_directory shallow]
        exact ih above removed later
      simp only [if_neg is_dots,append_writes stands.all writes]
      by_cases fits : (render '/' (components ++ [token])).length < MAX_PATH
      · simp only [if_pos fits]
        split
        · rfl
        rename_i next found
        simp only [restarts]
        rw [ih (stands.step ⟨cut token (mem_cons_self ..),is_dot,is_dots⟩ directory fits found) (.inl rfl) later]
      · simp only [if_neg fits]
    · simp only [ne_eq,directory,not_false_eq_true,if_true]

theorem lookup_stable (enough : MAX_SYMLINK_DEPTH + 2 ≤ calls + depth)
    (shallow : depth ≤ MAX_SYMLINK_DEPTH + 1) (path : List Char) :
    path_lookup_internal tree (calls + 1) path follow depth resolved =
      path_lookup_internal tree calls path follow depth resolved := by
  induction calls generalizing depth path with
  | zero => omega
  | succ calls ih =>
    unfold path_lookup_internal
    by_cases deep : MAX_SYMLINK_DEPTH < depth
    · simp only [if_pos deep]
    simp only [if_neg deep]
    obtain ⟨fewer,rfl⟩ : ∃ fewer, calls = fewer + 1 := ⟨calls - 1,by omega⟩
    have walked : walk tree (path_lookup_internal tree (fewer + 2)) follow depth resolved tree.root_inode []
          (tokens '/' path) =
        walk tree (path_lookup_internal tree (fewer + 1)) follow depth resolved tree.root_inode [] (tokens '/' path) :=
      walk_stable (by omega) (ih (by omega) (by omega)) (.root tree) (.inl rfl) (fun token member => tokens_mem member)
    rw [walked]

end

/-- A lookup ends, and the path it resolves is absolute and plain, leads through
    directories only, and leads to the same inode again. -/
theorem resolved_path_canonical (tree : Vfs Inode) (path : List Char) (follow : Bool) {size : Nat} (room : 1 < size) :
    (∀ more, path_lookup_internal tree (LOOKUP_CALLS + more) path follow 0 (some size) =
        path_lookup_resolved tree path follow size) ∧
      path_lookup_resolved tree path follow size ≠ .starved ∧
      ∀ inode resolved, path_lookup_resolved tree path follow size = .found inode resolved →
        (∃ components, resolved = path_of components ∧ (∀ c ∈ components, Component c) ∧
          ∀ before after, components = before ++ after → after ≠ [] →
            ∃ directory, tree.mode directory = .dir ∧
              path_lookup_resolved tree (path_of before) false size = .found directory (path_of before)) ∧
        path_lookup_resolved tree resolved follow size = .found inode resolved := by
  have positive : size ≠ 0 := by omega
  have lookup : ∀ path follow, path_lookup_resolved tree path follow size =
      path_lookup_internal tree LOOKUP_CALLS path follow 0 (some size) := fun path follow => if_neg positive
  have sound : Sound tree follow (some size) (path_lookup_internal tree LOOKUP_CALLS path follow 0 (some size)) :=
    lookup_sound (fun _ same => Option.some.inj same ▸ room) (by unfold LOOKUP_CALLS; omega) (Nat.zero_le _) path
  simp only [lookup]
  refine ⟨?_,sound.ends,?_⟩
  · intro more
    induction more with
    | zero => rfl
    | succ more ih => rw [← Nat.add_assoc,lookup_stable (by unfold LOOKUP_CALLS; omega) (Nat.zero_le _),ih]
  intro inode resolved found
  obtain ⟨components,stands,rfl,final,fits⟩ := sound.stands inode resolved found
  refine ⟨⟨components,rfl,stands.all,?_⟩,lookup_plain stands final (Nat.zero_le _) fits _⟩
  rintro before after rfl more
  obtain ⟨directory,above,mode⟩ := stands.before more
  refine ⟨directory,mode,lookup_plain above (fun _ => .inl rfl) (Nat.zero_le _) ?_ _⟩
  rintro size ⟨⟩
  exact lt_of_le_of_lt (path_of_length_le before after) (fits size rfl)

/-- `/a`, `/a/b`, and `/link`, a symlink to the second. -/
def sample_tree : Vfs Nat where
  mode := fun inode => if inode = 3 then .link else .dir
  lookup := fun inode name =>
    if inode = 0 ∧ name = ['a'] then some 1
    else if inode = 1 ∧ name = ['b'] then some 2
    else if inode = 0 ∧ name = "link".toList then some 3
    else none
  readlink := fun inode => if inode = 3 then some "/a/b".toList else none
  root_inode := 0
  mount_table := []

theorem resolved_path_canonical_sample :
    path_lookup_resolved sample_tree "/link/../b/.".toList true MAX_PATH = .found 2 "/a/b".toList ∧
      path_lookup_resolved sample_tree "/a/b".toList true MAX_PATH = .found 2 "/a/b".toList := by
  have found : path_lookup_resolved sample_tree "/link/../b/.".toList true MAX_PATH = .found 2 "/a/b".toList := by decide
  exact ⟨found,((resolved_path_canonical sample_tree _ true (by decide)).2.2 _ _ found).2⟩

end ArmOS.Lookup

