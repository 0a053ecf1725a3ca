import ArmOS.Tokens

/-!
Path lookup in `kernel/fs/vfs.c`: component by component from the root, through
mount points and symlinks, with the text of the path reached. The file systems are a
tree with `lookup` and `readlink`; references and memory are left out.
-/
namespace ArmOS.Paths
open Tokens List

/-- `ARMOS_RESOLVED_PATH_MAX`, the size of a path buffer. -/
def MAX_PATH : Nat := 1280
def MAX_SYMLINK_DEPTH : Nat := 8

/-- What `S_ISDIR` and `S_ISLNK` tell of a mode. -/
inductive Mode
  | dir
  | link
  | other
deriving DecidableEq, Repr

/-- Inodes with operations, root and mounts; a text is a list of characters. -/
structure Vfs (Inode : Type) where
  mode : Inode → Mode
  lookup : Inode → List Char → Option Inode
  readlink : Inode → Option (List Char)
  root_inode : Inode
  mount_table : List (List Char × Inode)

def dot : List Char := ['.']
def dot_dot : List Char := ['.','.']

/-- `vfs_append_component`; `none` where the buffer is too small. -/
def vfs_append_component (path : List Char) (path_size : Nat) (component : List Char) : Option (List Char) :=
  let after := if path = [] then '/' :: component else if path = ['/'] then '/' :: component else path ++ '/' :: component
  if after.length < path_size then some after else none

def vfs_remove_last_component (path : List Char) : List Char :=
  if path = [] ∨ path = ['/'] then path
  else
    let before := ((path.reverse.dropWhile (fun c => c ≠ '/')).drop 1).reverse
    if before = [] then ['/'] else before

/-- What a lookup comes to; `NULL` is `missing` or `too_long`, `starved` out of fuel. -/
inductive Outcome (Inode : Type)
  | starved
  | too_long
  | missing
  | found (inode : Inode) (resolved : List Char)
deriving DecidableEq, Repr

variable {Inode : Type}

def Outcome.inode : Outcome Inode → Option Inode
  | .found inode _ => some inode
  | _ => none

/-- The mount whose path is the text, if there is one. -/
def Vfs.mounted (tree : Vfs Inode) (path : List Char) : Option Inode :=
  (tree.mount_table.find? (fun mount => mount.1 = path)).map Prod.snd

/-- The inode a component leads to; a mount point wins. -/
def Vfs.next (tree : Vfs Inode) (current : Inode) (current_path token : List Char) : Option Inode :=
  match tree.mounted current_path with
  | some root => some root
  | none => tree.lookup current token

/-- The loop of `path_lookup_internal` that writes the components after a symlink. -/
def append_components : List Char → List (List Char) → Option (List Char)
  | remaining, [] => some remaining
  | remaining, token :: rest =>
    match vfs_append_component remaining MAX_PATH token with
    | none => none
    | some remaining => append_components remaining rest

/-- The path that takes the place of a symlink. -/
def link_path (parent_path target remaining : List Char) : List Char :=
  if target.head? = some '/' then target ++ remaining
  else if parent_path = ['/'] then '/' :: target ++ remaining
  else parent_path ++ '/' :: target ++ remaining

/-- The text of a path that may not have been written yet. -/
def or_root (path : List Char) : List Char := if path = [] then ['/'] else path

/-- The end of `path_lookup_internal`: the path for the caller. -/
def deliver (current : Inode) (current_path : List Char) : Option Nat → Outcome Inode
  | none => .found current (or_root current_path)
  | some resolved_size =>
    if resolved_size < (or_root current_path).length + 1 then .too_long else .found current (or_root current_path)

/-- A symlink: its target and the rest are looked up instead. -/
def follow_link (tree : Vfs Inode) (again : List Char → Outcome Inode) (parent_path : List Char) (link : Inode)
    (rest : List (List Char)) : Outcome Inode :=
  match tree.readlink link with
  | none => .missing
  | some bytes =>
    if MAX_PATH ≤ bytes.length then .missing
    else
      match append_components [] rest with
      | none => .too_long
      | some remaining =>
        let new_path := link_path parent_path (bytes.takeWhile (fun c => c ≠ '\x00')) remaining
        if MAX_PATH ≤ new_path.length then .too_long else again new_path

/-- The loop of `path_lookup_internal`, with the lookup it calls. -/
def walk (tree : Vfs Inode) (again : List Char → Bool → Nat → Option Nat → Outcome Inode)
    (follow_final_symlink : Bool) (depth : Nat) (resolved : Option Nat) :
    Inode → List Char → List (List Char) → Outcome Inode
  | current, current_path, [] => deliver current current_path resolved
  | current, current_path, token :: rest =>
    if tree.mode current ≠ .dir then .missing
    else if token = dot then walk tree again follow_final_symlink depth resolved current current_path rest
    else if token = dot_dot then
      match again (or_root (vfs_remove_last_component current_path)) true depth none with
      | .found parent _ =>
        walk tree again follow_final_symlink depth resolved parent (vfs_remove_last_component current_path) rest
      | .starved => .starved
      | .too_long => .too_long
      | .missing => .missing
    else
      match vfs_append_component current_path MAX_PATH token with
      | none => .too_long
      | some path =>
        match tree.next current path token with
        | none => .missing
        | some next =>
          if tree.mode next = .link ∧ (rest ≠ [] ∨ follow_final_symlink) then
            follow_link tree (fun new_path => again new_path follow_final_symlink (depth + 1) resolved)
              (or_root current_path) next rest
          else walk tree again follow_final_symlink depth resolved next path rest

/-- `path_lookup_internal`; the fuel bounds nested calls. -/
def path_lookup_internal (tree : Vfs Inode) : Nat → List Char → Bool → Nat → Option Nat → Outcome Inode
  | 0, _, _, _, _ => .starved
  | calls + 1, path, follow_final_symlink, depth, resolved =>
    if path.head? ≠ some '/' then .missing
    else if MAX_SYMLINK_DEPTH < depth then .missing
    else if path = ['/'] then
      match resolved with
      | none => .found tree.root_inode ['/']
      | some resolved_size => .found tree.root_inode (if 1 < resolved_size then ['/'] else [])
    else
      walk tree (path_lookup_internal tree calls) follow_final_symlink depth resolved tree.root_inode [] (tokens '/' path)

/-- The number of calls inside each other that a lookup can need. -/
def LOOKUP_CALLS : Nat := MAX_SYMLINK_DEPTH + 2
def path_lookup_ex (tree : Vfs Inode) (path : List Char) (follow_final_symlink : Bool) : Outcome Inode :=
  path_lookup_internal tree LOOKUP_CALLS path follow_final_symlink 0 none
def path_lookup_resolved (tree : Vfs Inode) (path : List Char) (follow_final_symlink : Bool) (resolved_size : Nat) :
    Outcome Inode :=
  if resolved_size = 0 then .missing
  else path_lookup_internal tree LOOKUP_CALLS path follow_final_symlink 0 (some resolved_size)

/-! ### Texts of paths -/

/-- A component of a path that the walk appends. -/
def Component (token : List Char) : Prop := Token '/' token ∧ token ≠ dot ∧ token ≠ dot_dot
def path_of (components : List (List Char)) : List Char := or_root (render '/' components)

/-- The buffer `current_path` after the components. -/
def Writes (current_path : List Char) (components : List (List Char)) : Prop :=
  current_path = render '/' components ∨ components = [] ∧ current_path = ['/']

variable {components : List (List Char)} {current_path : List Char}

theorem render_eq_nil : render '/' components = [] ↔ components = [] := by
  cases components with
  | nil => simp
  | cons first rest => simp [render]
theorem Component.token {token : List Char} (component : Component token) : Token '/' token := component.1

variable {pieces : List (List Char)}

theorem render_ne_root (all : ∀ c ∈ pieces, Token '/' c) : render '/' pieces ≠ ['/'] := by
  cases pieces with
  | nil => simp
  | cons first rest =>
    intro same
    rw [render_cons] at same
    have empty : first ++ render '/' rest = [] := by simpa using same
    exact (all first (mem_cons_self ..)).1 (append_eq_nil_iff.mp empty).1

theorem append_render (all : ∀ c ∈ pieces, Token '/' c) (size : Nat) (token : List Char) :
    vfs_append_component (render '/' pieces) size token =
      if (render '/' (pieces ++ [token])).length < size then some (render '/' (pieces ++ [token])) else none := by
  have after : render '/' (pieces ++ [token]) = render '/' pieces ++ '/' :: token := by
    rw [render_append,render_single]
  unfold vfs_append_component
  rw [after]
  by_cases empty : render '/' pieces = []
  · simp [empty]
  · simp [empty,render_ne_root all]

theorem or_root_writes (writes : Writes current_path components) : or_root current_path = path_of components := by
  rcases writes with rfl | ⟨rfl,rfl⟩
  · rfl
  · rfl

section
variable (all : ∀ c ∈ components, Component c)
include all

theorem append_writes {token : List Char} {size : Nat} (writes : Writes current_path components) :
    vfs_append_component current_path size token =
      if (render '/' (components ++ [token])).length < size then some (render '/' (components ++ [token])) else none := by
  rcases writes with rfl | ⟨rfl,rfl⟩
  · exact append_render (fun c member => (all c member).token) size token
  · simp [vfs_append_component,render]

theorem remove_writes (writes : Writes current_path components) :
    Writes (vfs_remove_last_component current_path) components.dropLast := by
  rcases writes with rfl | ⟨rfl,rfl⟩
  · rcases eq_nil_or_concat components with rfl | ⟨before,last,rfl⟩
    · exact .inl rfl
    have last_token : Component last := all last (by simp)
    have nonempty : render '/' (before ++ [last]) ≠ [] := by simp [render]
    have text : render '/' (before ++ [last]) = render '/' before ++ '/' :: last := by
      rw [render_append,render_single]
    have scanned : (render '/' (before ++ [last])).reverse.dropWhile (fun c => decide (c ≠ '/')) =
        '/' :: (render '/' before).reverse := by
      rw [text,reverse_append,reverse_cons,append_assoc,dropWhile_append_of_pos]
      · simp
      intro c member
      simp only [ne_eq,decide_eq_true_eq]
      rintro rfl
      exact last_token.1.2 (mem_reverse.mp member)
    rw [concat_eq_append] at *
    unfold vfs_remove_last_component
    rw [if_neg (by rintro (empty | root); exacts [nonempty empty,render_ne_root (fun c member => (all c member).token) root])]
    dsimp only
    rw [scanned,drop_one,tail_cons,reverse_reverse,dropLast_concat]
    split
    · rename_i empty
      exact .inr ⟨render_eq_nil.mp empty,rfl⟩
    · exact .inl rfl
  · exact .inr ⟨rfl,rfl⟩

theorem tokens_path_of : tokens '/' (path_of components) = components := by
  unfold path_of or_root
  split
  · rename_i empty
    rw [render_eq_nil.mp empty]
    decide
  · exact tokens_append_render [] (fun c member => (all c member).1)

end

theorem path_of_head (components : List (List Char)) : (path_of components).head? = some '/' := by
  unfold path_of or_root
  cases components with
  | nil => rfl
  | cons first rest => simp [render_cons]

theorem path_of_length_le (before after : List (List Char)) :
    (path_of before).length ≤ (path_of (before ++ after)).length := by
  unfold path_of or_root
  cases before with
  | nil =>
    cases after with
    | nil => simp
    | cons first rest => simp [render_cons]
  | cons first rest => simp [render_cons,render_append]

theorem path_of_root_iff (all : ∀ c ∈ components, Component c) : path_of components = ['/'] ↔ components = [] := by
  constructor
  · intro root
    by_contra some_component
    unfold path_of or_root at root
    rw [if_neg (fun empty => some_component (render_eq_nil.mp empty))] at root
    exact render_ne_root (fun c member => (all c member).token) root
  rintro rfl
  rfl

end ArmOS.Paths

