import ArmOS.Canonical

/-!
Permissions on the way to a file. `open` checks the directories that the text of the
path names before it looks the path up; `execve` looks it up unchecked. The
directories that a lookup searches are listed with the number of symlinks followed
before.
-/
namespace ArmOS.Access
open Tokens Paths

variable {Inode : Type}

/-- Owners, groups, modes, regular files, and the file that creating a name makes. -/
structure Rights (Inode : Type) where
  uid : Inode → Nat
  gid : Inode → Nat
  mode : Inode → Nat
  regular : Inode → Bool
  create : Inode → List Char → Option Inode

structure Caller where
  (uid gid : Nat)

/-- `MAY_READ`, `MAY_WRITE` and `MAY_EXEC`. -/
structure Mask where
  (read write exec : Bool)

/-- The three bits of a mode from `shift` on allow it. -/
def granted (mode shift : Nat) (mask : Mask) : Bool :=
  (!mask.read || mode.testBit (shift + 2)) && (!mask.write || mode.testBit (shift + 1)) && (!mask.exec || mode.testBit shift)

def inode_permission (rights : Rights Inode) (caller : Caller) (inode : Inode) (mask : Mask) : Bool :=
  if caller.uid = 0 then true
  else if caller.uid = rights.uid inode then granted (rights.mode inode) 6 mask
  else if caller.gid = rights.gid inode then granted (rights.mode inode) 3 mask
  else granted (rights.mode inode) 0 mask

def may_search (rights : Rights Inode) (caller : Caller) (inode : Inode) : Bool :=
  inode_permission rights caller inode ⟨false,false,true⟩
inductive Errno
  | EINVAL | ENOENT | EACCES | ENOTDIR | ELOOP | EEXIST | EROFS | EIO
  deriving DecidableEq, Repr

/-! ### The check over the text of the path -/

section
variable (tree : Vfs Inode) (rights : Rights Inode) (caller : Caller)

/-- The loop of `vfs_check_search_permission`. -/
def check_loop (include_final : Bool) : List Char → List (List Char) → Except Errno Unit
  | _, [] => .ok ()
  | current_path, token :: rest =>
    if rest = [] ∧ include_final = false then .ok ()
    else if current_path ≠ [] ∧ MAX_PATH ≤ current_path.length + 1 + token.length then .error .EINVAL
    else
      let path := if current_path = [] then ('/' :: token).take (MAX_PATH - 1) else current_path ++ '/' :: token
      match path_lookup_ex tree path true with
      | .found inode _ =>
        if tree.mode inode ≠ .dir then .error .ENOTDIR
        else if may_search rights caller inode = false then .error .EACCES
        else check_loop include_final path rest
      | _ => .error .ENOENT

/-- Where the root may not be searched, nothing else is looked at. -/
def vfs_check_search_permission (path : List Char) (include_final : Bool) : Except Errno Unit :=
  if path.head? ≠ some '/' then .error .EINVAL
  else if caller.uid = 0 then .ok ()
  else if may_search rights caller tree.root_inode = false then (if include_final then .error .EACCES else .ok ())
  else if path = ['/'] then .ok ()
  else check_loop tree rights caller include_final [] (tokens '/' path)

/-! ### Opening and executing -/

inductive OpenMode
  | O_RDONLY | O_WRONLY | O_RDWR | O_ACCMODE
  deriving DecidableEq, Repr
structure Flags where
  access : OpenMode
  (creat excl trunc nofollow directory : Bool)

def check_file_permission (rights : Rights Inode) (caller : Caller) (inode : Inode) (flags : Flags) : Bool :=
  match flags.access with
  | .O_RDONLY => inode_permission rights caller inode ⟨true,flags.trunc,false⟩
  | .O_WRONLY => inode_permission rights caller inode ⟨false,true,false⟩
  | .O_RDWR => inode_permission rights caller inode ⟨true,true,false⟩
  | .O_ACCMODE => false

inductive Opened (Inode : Type)
  /-- A device or standard stream that the text of the path names. -/
  | device
  | existing (inode : Inode)
  | created (parent inode : Inode)

/-- The checks on the inode itself. -/
def open_inode (flags : Flags) (inode : Inode) : Except Errno Unit :=
  if check_file_permission rights caller inode flags = false then .error .EACCES
  else if flags.directory ∧ tree.mode inode ≠ .dir then .error .ENOTDIR
  else .ok ()

/-- The branch of `kernel_open` for a missing file. -/
def open_created (flags : Flags) (parent_path filename : List Char) : Except Errno (Opened Inode) :=
  match path_lookup_ex tree parent_path true with
  | .found parent _ =>
    if tree.mode parent ≠ .dir then .error .ENOTDIR
    else if inode_permission rights caller parent ⟨false,true,true⟩ = false then .error .EACCES
    else if filename = [] ∨ filename = dot ∨ filename = dot_dot then .error .EINVAL
    else
      match rights.create parent filename with
      | none => .error Errno.EIO
      | some inode => (open_inode tree rights caller flags inode).map fun _ => .created parent inode
  | _ => .error .ENOENT

/-- The text before the last slash (or the slash) and behind it. -/
def split_path (path : List Char) : List Char × List Char :=
  (or_root ((path.reverse.dropWhile (fun c => c ≠ '/')).drop 1).reverse,
    (path.reverse.takeWhile (fun c => c ≠ '/')).reverse)

/-- `kernel_open`, or `kernel_open_existing`, up to the truncation and the descriptor. -/
def kernel_open (path : List Char) (flags : Flags) : Except Errno (Opened Inode) :=
  match path_lookup_ex tree path (!flags.nofollow) with
  | .found inode _ =>
    if flags.nofollow ∧ tree.mode inode = .link then .error .ELOOP
    else if flags.creat ∧ flags.excl then .error .EEXIST
    else (open_inode tree rights caller flags inode).map fun _ => .existing inode
  | _ =>
    if flags.creat = false then .error .ENOENT
    else if flags.directory then .error .EINVAL
    else open_created tree rights caller flags (split_path path).1 (split_path path).2

/-- `sys_open_resolved`; the devices it knows by path are a parameter. -/
def sys_open_resolved (tree : Vfs Inode) (rights : Rights Inode) (streams devices : List (List Char)) (caller : Caller)
    (path : List Char) (flags : Flags) : Except Errno (Opened Inode) :=
  if path ∈ streams then .ok .device
  else
    match vfs_check_search_permission tree rights caller path false with
    | .error errno => .error errno
    | .ok _ => if path ∈ devices then .ok .device else kernel_open tree rights caller path flags

/-- The checks of `sys_execve` before the image is loaded. -/
def sys_execve (path : List Char) : Except Errno Inode :=
  match path_lookup_ex tree path true with
  | .found inode _ =>
    if inode_permission rights caller inode ⟨false,false,true⟩ = false then .error .EACCES
    else if rights.regular inode = false then .error .EACCES
    else .ok inode
  | _ => .error .ENOENT

end

/-! ### The directories that a lookup searches -/

/-- Those behind a symlink. -/
def link_searched (tree : Vfs Inode) (again : List Char → List (Nat × Inode)) (parent_path : List Char) (link : Inode)
    (rest : List (List Char)) : List (Nat × Inode) :=
  match tree.readlink link with
  | none => []
  | some bytes =>
    if MAX_PATH ≤ bytes.length then []
    else
      match append_components [] rest with
      | none => []
      | some remaining =>
        let new_path := link_path parent_path (bytes.takeWhile (fun c => c ≠ '\x00')) remaining
        if MAX_PATH ≤ new_path.length then [] else again new_path

/-- Those of the loop of `path_lookup_internal`, and of its own lookups. -/
def walk_searched (tree : Vfs Inode) (again : List Char → Bool → Nat → Option Nat → Outcome Inode)
    (again_searched : List Char → Bool → Nat → List (Nat × Inode)) (follow_final_symlink : Bool) (depth : Nat) :
    Inode → List Char → List (List Char) → List (Nat × Inode)
  | _, _, [] => []
  | current, current_path, token :: rest =>
    if tree.mode current ≠ .dir then []
    else if token = dot then
      (depth,current) :: walk_searched tree again again_searched follow_final_symlink depth current current_path rest
    else if token = dot_dot then
      (depth,current) :: again_searched (or_root (vfs_remove_last_component current_path)) true depth ++
        match again (or_root (vfs_remove_last_component current_path)) true depth none with
        | .found parent _ =>
          walk_searched tree again again_searched follow_final_symlink depth parent
            (vfs_remove_last_component current_path) rest
        | _ => []
    else
      match vfs_append_component current_path MAX_PATH token with
      | none => []
      | some path =>
        (depth,current) ::
          match tree.next current path token with
          | none => []
          | some next =>
            if tree.mode next = .link ∧ (rest ≠ [] ∨ follow_final_symlink) then
              link_searched tree (fun new_path => again_searched new_path follow_final_symlink (depth + 1))
                (or_root current_path) next rest
            else walk_searched tree again again_searched follow_final_symlink depth next path rest

/-- Those of `path_lookup_internal`. -/
def searched (tree : Vfs Inode) : Nat → List Char → Bool → Nat → List (Nat × Inode)
  | 0, _, _, _ => []
  | calls + 1, path, follow_final_symlink, depth =>
    if path.head? ≠ some '/' then []
    else if MAX_SYMLINK_DEPTH < depth then []
    else if path = ['/'] then []
    else
      walk_searched tree (path_lookup_internal tree calls) (searched tree calls) follow_final_symlink depth
        tree.root_inode [] (tokens '/' path)

/-- Those of `path_lookup_ex`. -/
def lookup_searched (tree : Vfs Inode) (path : List Char) (follow_final_symlink : Bool) : List (Nat × Inode) :=
  searched tree LOOKUP_CALLS path follow_final_symlink 0

/-- Those of an open: none for a device, up to the parent for a missing file. -/
def open_searched (tree : Vfs Inode) (streams devices : List (List Char)) (path : List Char) (flags : Flags) :
    List (Nat × Inode) :=
  if path ∈ streams ∨ path ∈ devices then []
  else
    lookup_searched tree path (!flags.nofollow) ++
      match path_lookup_ex tree path (!flags.nofollow) with
      | .found _ _ => []
      | _ =>
        lookup_searched tree (split_path path).1 true ++
          match path_lookup_ex tree (split_path path).1 true with
          | .found parent _ => [(0,parent)]
          | _ => []

inductive Call
  | open (flags : Flags)
  | exec
def Call.run (tree : Vfs Inode) (rights : Rights Inode) (streams devices : List (List Char)) (caller : Caller)
    (path : List Char) : Call → Except Errno (Opened Inode)
  | .open flags => sys_open_resolved tree rights streams devices caller path flags
  | .exec => (sys_execve tree rights caller path).map Opened.existing

/-- The directories that a call searches. -/
def Call.searched (tree : Vfs Inode) (streams devices : List (List Char)) (path : List Char) : Call → List (Nat × Inode)
  | .open flags => open_searched tree streams devices path flags
  | .exec => lookup_searched tree path true

/-- Those not checked: after a symlink for an open, all for an exec. -/
def Call.unchecked (tree : Vfs Inode) (streams devices : List (List Char)) (path : List Char) : Call → List (Nat × Inode)
  | .open flags => (open_searched tree streams devices path flags).filter fun p => 0 < p.1
  | .exec => lookup_searched tree path true

end ArmOS.Access

