import ArmOS.Access

/-!
Which directories on the way to a file the check of `open` covers: up to the first
symlink those that the lookup searches, but for the root; behind it none need be.
-/
namespace ArmOS.SearchRights
open Tokens Paths Lookup Access List
open Canonical (resolve_path_at)

variable {Inode : Type} {tree : Vfs Inode} {rights : Rights Inode} {caller : Caller}

/-! ### Before the first symlink -/

variable {rest gone components before : List (List Char)} {p : Nat × Inode} {follow : Bool} {depth : Nat}
  {path token : List Char} {directory node : Inode} {opened : Opened Inode}

theorem link_searched_mem {again : List Char → List (Nat × Inode)} {parent_path : List Char} {link : Inode}
    (member : p ∈ link_searched tree again parent_path link rest) : ∃ path, p ∈ again path := by
  unfold link_searched at member
  split at member
  · cases member
  · grind

variable {again : List Char → Bool → Nat → Option Nat → Outcome Inode} {current_path : List Char} {current : Inode}

theorem walk_searched_depth
    {again_searched : List Char → Bool → Nat → List (Nat × Inode)}
    (deeper : ∀ path follow depth, ∀ p ∈ again_searched path follow depth, depth ≤ p.1)
    (member : p ∈ walk_searched tree again again_searched follow depth current current_path rest) : depth ≤ p.1 := by
  induction rest generalizing current current_path with
  | nil => cases member
  | cons token rest ih =>
    unfold walk_searched at member
    split at member
    · cases member
    split at member
    · rcases mem_cons.mp member with rfl | later
      · exact le_rfl
      · exact ih later
    split at member
    · grind
    split at member
    · cases member
    rcases mem_cons.mp member with rfl | later
    · exact le_rfl
    split at later
    · cases later
    split at later
    · obtain ⟨path,inside⟩ := link_searched_mem later
      exact Nat.le_of_succ_le (deeper _ _ _ p inside)
    · exact ih later

variable {calls : Nat}

theorem searched_depth (member : p ∈ searched tree calls path follow depth) : depth ≤ p.1 := by
  induction calls generalizing path follow depth p with
  | zero => cases member
  | succ calls ih =>
    unfold searched at member
    split at member
    · cases member
    split at member
    · cases member
    split at member
    · cases member
    · exact walk_searched_depth (fun _ _ _ _ inside => ih inside) member

/-- Before a symlink, the walk searches the prefixes. -/
theorem walk_searched_prefix (stands : Stands tree current gone)
    (writes : Writes current_path gone) (components : ∀ c ∈ rest, Component c)
    (member : (depth,directory) ∈ walk_searched tree again (searched tree calls) follow depth current current_path rest) :
    tree.mode directory = .dir ∧
      ∃ before after, rest = before ++ after ∧ after ≠ [] ∧ Stands tree directory (gone ++ before) := by
  induction rest generalizing current current_path gone with
  | nil => cases member
  | cons token rest ih =>
    have component := components token mem_cons_self
    unfold walk_searched at member
    split at member
    · cases member
    rename_i is_dir
    have is_dir : tree.mode current = .dir := by simpa using is_dir
    rw [if_neg component.2.1,if_neg component.2.2,append_writes stands.all writes] at member
    split at member
    · cases member
    rename_i path appended
    have fits : (render '/' (gone ++ [token])).length < MAX_PATH := by
      by_contra long
      rw [if_neg long] at appended
      cases appended
    rw [if_pos fits] at appended
    cases appended
    rcases mem_cons.mp member with here | later
    · cases here
      exact ⟨is_dir,[],token :: rest,rfl,by simp,by simpa using stands⟩
    split at later
    · cases later
    rename_i next found
    split at later
    · obtain ⟨path,inside⟩ := link_searched_mem later
      exact absurd (searched_depth inside) (Nat.not_succ_le_self depth)
    have further := stands.step component is_dir fits found
    obtain ⟨mode,before,after,rfl,more,place⟩ :=
      ih further (.inl rfl) (forall_mem_cons.mp components).2 later
    exact ⟨mode,token :: before,after,rfl,more,by simpa using place⟩

theorem lookup_searched_prefix (all : ∀ c ∈ components, Component c)
    (member : (0,directory) ∈ lookup_searched tree (path_of components) follow) :
    tree.mode directory = .dir ∧
      ∃ before after, components = before ++ after ∧ after ≠ [] ∧ Stands tree directory before := by
  unfold lookup_searched LOOKUP_CALLS searched at member
  rw [if_neg (by simp [path_of_head]),if_neg (by decide),tokens_path_of all] at member
  split at member
  · cases member
  · simpa using walk_searched_prefix (.root tree) (.inl rfl) all member

/-! ### What the check covers -/

section
variable (stands : Stands tree node (gone ++ token :: before))
include stands

theorem Stands.fits : (render '/' (gone ++ [token])).length < MAX_PATH := by
  have reached := stands.reached
  rw [plain_walk_append] at reached
  obtain ⟨parent,_,second_part⟩ := Option.bind_eq_some_iff.mp reached
  simpa using (plain_walk_cons second_part).2.1

/-- The lookup of the check at a component. -/
theorem Stands.checked (is_dir : tree.mode node = .dir) :
    ∃ directory, Stands tree directory (gone ++ [token]) ∧ tree.mode directory = .dir ∧
      (before = [] → directory = node) ∧
      path_lookup_ex tree (render '/' (gone ++ [token])) true = .found directory (render '/' (gone ++ [token])) := by
  obtain ⟨directory,above,mode,last⟩ : ∃ directory, Stands tree directory (gone ++ [token]) ∧ tree.mode directory = .dir ∧
      (before = [] → directory = node) := by
    cases before with
    | nil => exact ⟨node,stands,is_dir,fun _ => rfl⟩
    | cons second rest =>
      have split : gone ++ token :: second :: rest = (gone ++ [token]) ++ (second :: rest) := by simp
      rw [split] at stands
      obtain ⟨directory,above,mode⟩ := stands.before (by simp)
      exact ⟨directory,above,mode,by simp⟩
  have text : path_of (gone ++ [token]) = render '/' (gone ++ [token]) := by
    rw [path_of,or_root,if_neg (by simp [render_eq_nil])]
  have looked : path_lookup_ex tree (path_of (gone ++ [token])) true = .found directory (path_of (gone ++ [token])) :=
    lookup_directory above mode (Nat.zero_le _) (MAX_SYMLINK_DEPTH + 1)
  rw [text] at looked
  exact ⟨directory,above,mode,last,looked⟩

theorem check_loop_step (is_dir : tree.mode node = .dir) (more : rest ≠ [])
    (passed : check_loop tree rights caller false (render '/' gone) (token :: rest) = .ok ()) :
    (before = [] → may_search rights caller node = true) ∧
      check_loop tree rights caller false (render '/' (gone ++ [token])) rest = .ok () := by
  have fits := Stands.fits stands
  obtain ⟨directory,_,mode,last,looked⟩ := Stands.checked stands is_dir
  have after : render '/' (gone ++ [token]) = render '/' gone ++ '/' :: token := by rw [render_append,render_single]
  have text : (if render '/' gone = [] then ('/' :: token).take (MAX_PATH - 1) else render '/' gone ++ '/' :: token) =
      render '/' (gone ++ [token]) := by
    split
    · grind [take_of_length_le]
    · exact after.symm
  have room : ¬ (render '/' gone ≠ [] ∧ MAX_PATH ≤ (render '/' gone).length + 1 + token.length) := by
    rintro ⟨_,long⟩
    rw [after,length_append,length_cons] at fits
    omega
  grind [check_loop]

end

variable {after : List (List Char)}

/-- A directory before the last passes only if it may be searched. -/
theorem check_loop_covers (stands : Stands tree directory (gone ++ token :: before))
    (is_dir : tree.mode directory = .dir) (more : after ≠ [])
    (passed : check_loop tree rights caller false (render '/' gone) (token :: (before ++ after)) = .ok ()) :
    may_search rights caller directory = true := by
  obtain ⟨here,later⟩ := check_loop_step stands is_dir (by simp [more]) passed
  induction before generalizing gone token with
  | nil => exact here rfl
  | cons second before ih =>
    have further : Stands tree directory ((gone ++ [token]) ++ second :: before) := by simpa using stands
    obtain ⟨here',later'⟩ := check_loop_step further is_dir (by simp [more]) later
    exact ih further later here' later'

/-- With the root, the check covers all before a symlink. -/
theorem check_covers (all : ∀ c ∈ components, Component c) (user : caller.uid ≠ 0)
    (root : may_search rights caller tree.root_inode = true)
    (passed : vfs_check_search_permission tree rights caller (path_of components) false = .ok ())
    (split : components = before ++ after) (more : after ≠ []) (is_dir : tree.mode directory = .dir)
    (stands : Stands tree directory before) :
    may_search rights caller directory = true := by
  cases before with
  | nil =>
    obtain rfl : tree.root_inode = directory := Option.some.inj stands.reached
    exact root
  | cons token before =>
    subst split
    unfold vfs_check_search_permission at passed
    rw [if_neg (by simp [path_of_head]),if_neg user,if_neg (by simp [root]),
      if_neg (fun same => by simpa using (path_of_root_iff all).mp same),tokens_path_of all] at passed
    exact @check_loop_covers _ _ _ _ [] _ _ _ _ stands is_dir more passed

/-! ### The calls -/

theorem path_of_resolved {base : Except Canonical.Errno (List Char)} {full : List Char}
    (resolved : resolve_path_at base path = .ok full) (absolute : full.head? = some '/') :
    ∃ components, full = path_of components ∧ ∀ c ∈ components, Component c := by
  obtain ⟨text,nonempty,rfl⟩ : ∃ text : List Char, text ≠ [] ∧ full = Canonical.path_canonicalize text := by
    unfold resolve_path_at Canonical.resolve_path_at_internal at resolved
    dsimp only at resolved
    split at resolved
    · cases resolved
    · grind
  have first : text.head? = some '/' := by
    cases text with
    | nil => exact absurd rfl nonempty
    | cons c rest => simpa [Canonical.path_canonicalize] using absolute
  exact ⟨_,Canonical.canonicalize_absolute first,Canonical.canonical_components fun _ inside => tokens_mem inside⟩

/-- The first part of a split path is its parent. -/
theorem split_path_parent (all : ∀ c ∈ components, Component c) :
    (split_path (path_of components)).1 = path_of components.dropLast := by
  rcases eq_nil_or_concat components with rfl | ⟨before,last,rfl⟩
  · rfl
  rw [concat_eq_append] at all ⊢
  have last_token : Component last := all last (by simp)
  have text : path_of (before ++ [last]) = render '/' before ++ '/' :: last := by
    rw [path_of,or_root,if_neg (by simp [render_eq_nil]),render_append,render_single]
  have scanned : (path_of (before ++ [last])).reverse.dropWhile (fun c => decide (c ≠ '/')) =
      '/' :: (render '/' before).reverse := by
    rw [text,reverse_append,reverse_cons,append_assoc,dropWhile_append_of_pos]
    · simp
    intro c member
    simp only [ne_eq,decide_eq_true_eq]
    rintro rfl
    exact last_token.1.2 (mem_reverse.mp member)
  unfold split_path
  dsimp only
  rw [scanned,drop_one,tail_cons,reverse_reverse,dropLast_concat]
  rfl

variable {flags : Flags} {streams devices : List (List Char)}

/-- What an open searches before a symlink may be searched. -/
theorem open_covers (all : ∀ c ∈ components, Component c) (user : caller.uid ≠ 0)
    (root : may_search rights caller tree.root_inode = true)
    (success : sys_open_resolved tree rights streams devices caller (path_of components) flags = .ok opened)
    (member : (0,directory) ∈ open_searched tree streams devices (path_of components) flags) :
    may_search rights caller directory = true := by
  unfold open_searched at member
  split at member
  · cases member
  rename_i ordinary
  unfold sys_open_resolved at success
  rw [if_neg fun stream => ordinary (.inl stream)] at success
  split at success
  · cases success
  rename_i passed
  rw [if_neg fun device => ordinary (.inr device)] at success
  have covered : ∀ {before after : List (List Char)}, components = before ++ after → after ≠ [] →
      tree.mode directory = .dir → Stands tree directory before → may_search rights caller directory = true :=
    fun split more is_dir stands => check_covers all user root passed split more is_dir stands
  rcases mem_append.mp member with first | created
  · obtain ⟨is_dir,before,after,split,more,stands⟩ := lookup_searched_prefix all first
    exact covered split more is_dir stands
  unfold kernel_open at success
  split at created
  · cases created
  rename_i missing
  split at success
  · rename_i inode path found
    exact absurd found (missing inode path)
  split at success
  · cases success
  split at success
  · cases success
  rcases mem_append.mp created with second | last
  · rw [split_path_parent all] at second
    obtain ⟨is_dir,before,after,split,more,stands⟩ :=
      lookup_searched_prefix (fun c inside => all c (dropLast_subset _ inside)) second
    have whole : components = before ++ (after ++ components.getLast?.toList) := by
      rw [← append_assoc,← split]
      cases components using List.reverseRecOn with
      | nil => rfl
      | append_singleton front last => simp
    exact covered whole (by simp [more]) is_dir stands
  split at last
  · rename_i found
    obtain ⟨_,rfl⟩ := Prod.mk.inj (mem_singleton.mp last)
    unfold open_created at success
    rw [found] at success
    dsimp only at success
    split at success
    · cases success
    split at success
    · cases success
    unfold may_search inode_permission granted at *
    grind
  · cases last

/-- A call that succeeds searched an absolute path, or nothing. -/
theorem run_absolute {call : Call} (success : call.run tree rights streams devices caller path = .ok opened) :
    path.head? = some '/' ∨ call.searched tree streams devices path = [] := by
  by_cases absolute : path.head? = some '/'
  · exact .inl absolute
  right
  cases call with
  | «open» flags =>
    change sys_open_resolved tree rights streams devices caller path flags = .ok opened at success
    change open_searched tree streams devices path flags = []
    unfold sys_open_resolved vfs_check_search_permission at success
    split at success
    · rename_i stream
      exact if_pos (.inl stream)
    · cases success
  | exec => simp [Call.searched,lookup_searched,LOOKUP_CALLS,Access.searched,absolute]

/-- A file is opened or executed only with search rights on all directories searched,
    exactly where the caller has those that the call does not check. -/
theorem search_rights (tree : Vfs Inode) (rights : Rights Inode) (streams devices : List (List Char)) {caller : Caller}
    (user : caller.uid ≠ 0) {base : Except Canonical.Errno (List Char)} {path full : List Char}
    (resolved : resolve_path_at base path = .ok full) {call : Call} {opened : Opened Inode}
    (success : call.run tree rights streams devices caller full = .ok opened) :
    (may_search rights caller tree.root_inode = true ∧
        ∀ p ∈ call.searched tree streams devices full, may_search rights caller p.2 = true) ↔
      may_search rights caller tree.root_inode = true ∧
        ∀ p ∈ call.unchecked tree streams devices full, may_search rights caller p.2 = true := by
  refine and_congr_right fun root => ?_
  cases call with
  | exec => exact Iff.rfl
  | «open» flags =>
    constructor
    · exact fun every p member => every p (mem_of_mem_filter member)
    rintro unchecked ⟨depth,directory⟩ member
    cases depth with
    | succ depth => exact unchecked _ (mem_filter.mpr ⟨member,by simp⟩)
    | zero =>
      rcases run_absolute success with absolute | nothing
      · obtain ⟨components,rfl,all⟩ := path_of_resolved resolved absolute
        exact open_covers all user root success member
      rw [nothing] at member
      cases member

/-- `/a` and `/b`, each with a file `x`, and `/link` to `/a/x`. -/
def homes : Vfs Nat where
  mode := fun inode => if inode < 3 then .dir else if inode = 5 then .link else .other
  lookup := fun inode name =>
    if inode = 0 ∧ name = ['a'] then some 1
    else if inode = 0 ∧ name = ['b'] then some 2
    else if inode = 0 ∧ name = "link".toList then some 5
    else if inode = 1 ∧ name = ['x'] then some 3
    else if inode = 2 ∧ name = ['x'] then some 4
    else none
  readlink := fun inode => if inode = 5 then some "/a/x".toList else none
  root_inode := 0
  mount_table := []

/-- All belongs to the superuser, who alone may search `/a`. -/
def homes_rights (root : Nat) : Rights Nat where
  uid := fun _ => 0
  gid := fun _ => 0
  mode := fun inode => if inode = 0 then root else if inode = 1 then 0o700 else 0o755
  regular := fun inode => inode = 3 ∨ inode = 4
  create := fun _ _ => none

def for_reading : Flags := ⟨.O_RDONLY,false,false,false,false,false⟩

theorem search_rights_homes :
    (Call.open for_reading).run homes (homes_rights 0o755) [] [] ⟨1000,1000⟩ "/b/x".toList = .ok (.existing 4) ∧
      (may_search (homes_rights 0o755) ⟨1000,1000⟩ homes.root_inode = true ∧
        ∀ p ∈ (Call.open for_reading).searched homes [] [] "/b/x".toList,
          may_search (homes_rights 0o755) ⟨1000,1000⟩ p.2 = true) := by
  have success : (Call.open for_reading).run homes (homes_rights 0o755) [] [] ⟨1000,1000⟩ "/b/x".toList =
      .ok (.existing 4) := by rfl
  have resolved : resolve_path_at (.error .EBADF) "/b/x".toList = .ok "/b/x".toList := by decide
  exact ⟨success,(search_rights homes (homes_rights 0o755) [] [] (by decide) resolved success).mpr (by decide)⟩

/-- A file is executed, and one opened by a symlink, in a directory not to be searched; one
    under such a root. -/
theorem opened_without_search :
    (Call.exec.run homes (homes_rights 0o755) [] [] ⟨1000,1000⟩ "/a/x".toList = .ok (.existing 3) ∧
        (0,1) ∈ Call.exec.searched homes [] [] "/a/x".toList ∧
        may_search (homes_rights 0o755) ⟨1000,1000⟩ 1 = false) ∧
      ((Call.open for_reading).run homes (homes_rights 0o755) [] [] ⟨1000,1000⟩ "/link".toList = .ok (.existing 3) ∧
        (1,1) ∈ (Call.open for_reading).searched homes [] [] "/link".toList) ∧
      (Call.open for_reading).run homes (homes_rights 0o700) [] [] ⟨1000,1000⟩ "/b/x".toList = .ok (.existing 4) ∧
        may_search (homes_rights 0o700) ⟨1000,1000⟩ homes.root_inode = false := by
  refine ⟨⟨rfl,?_,?_⟩,⟨rfl,?_⟩,rfl,?_⟩ <;> decide

end ArmOS.SearchRights

