import ArmOS.Lookup
import Mathlib

/-!
The textual canonicalisation of `kernel/syscalls/file.c`. It takes a component and a
`..` behind it out of the text, which is the same as walking both exactly where the
component is a directory and no symlink.
-/
namespace ArmOS.Canonical
open Tokens Paths Lookup List

variable {Inode : Type} {tree : Vfs Inode}

/-- What a segment does to the segments kept so far in `path_canonicalize`. -/
def canonical_step (segs : List (List Char)) (seg : List Char) : List (List Char) :=
  if seg = [] ∨ seg = dot then segs
  else if seg = dot_dot then segs.dropLast
  else segs ++ [seg]
def canonical (components : List (List Char)) : List (List Char) := components.foldl canonical_step []

/-- `path_canonicalize`: the text of the segments that are kept. -/
def path_canonicalize (path : List Char) : List Char :=
  path.take 1 ++ List.intercalate ['/'] (canonical ((path.drop 1).splitOnP (fun c => c == '/')))
inductive Errno
  | ENOENT | ENAMETOOLONG | EBADF | ENOTDIR
deriving DecidableEq, Repr

/-- `resolve_path_at_internal` from a directory. -/
def resolve_path_at_internal (base : Except Errno (List Char)) (path : List Char) (canonicalize : Bool) :
    Except Errno (List Char) :=
  let finish (full_path : List Char) := if canonicalize then path_canonicalize full_path else full_path
  if path = [] then .error .ENOENT
  else if path.head? = some '/' then
    if MAX_PATH ≤ path.length then .error .ENAMETOOLONG else .ok (finish path)
  else
    match base with
    | .error errno => .error errno
    | .ok base =>
      let full_path := if base = [] ∨ base.getLast? ≠ some '/' then base ++ '/' :: path else base ++ path
      if MAX_PATH < full_path.length + 1 then .error .ENAMETOOLONG else .ok (finish full_path)

def resolve_path_at (base : Except Errno (List Char)) (path : List Char) : Except Errno (List Char) :=
  resolve_path_at_internal base path true
def resolve_path_at_raw (base : Except Errno (List Char)) (path : List Char) : Except Errno (List Char) :=
  resolve_path_at_internal base path false
def names_directory (tree : Vfs Inode) (path : List Char) (follow : Bool) : Bool :=
  match path_lookup_ex tree path follow with
  | .found inode _ => tree.mode inode = .dir
  | _ => false
def names_other (tree : Vfs Inode) (path : List Char) (follow : Bool) : Bool :=
  match path_lookup_ex tree path follow with
  | .found inode _ => tree.mode inode ≠ .dir
  | _ => false

/-- Every `..` takes back a directory that is no symlink; no file before a last dot. -/
structure Straight (tree : Vfs Inode) (path : List Char) (follow : Bool) : Prop where
  back : ∀ i < (tokens '/' path).length, (tokens '/' path).getD i [] = dot_dot →
    canonical ((tokens '/' path).take i) ≠ [] →
    names_directory tree (path_of (canonical ((tokens '/' path).take i))) false = true
  last : (tokens '/' path).getLast? = some dot ∨ (tokens '/' path).getLast? = some dot_dot →
    names_other tree (path_of (canonical (tokens '/' path))) follow = false

/-! ### Texts -/

theorem canonical_filter (segments : List (List Char)) :
    canonical (segments.filter (fun piece => !piece.isEmpty)) = canonical segments := by
  have step : ∀ segs : List (List Char), (segments.filter (fun piece => !piece.isEmpty)).foldl canonical_step segs =
      segments.foldl canonical_step segs := by
    induction segments with
    | nil => simp
    | cons first rest ih => grind [canonical_step]
  exact step []

variable {components rest : List (List Char)} {path : List Char}
  {again : List Char → Bool → Nat → Option Nat → Outcome Inode} {current : Inode}

theorem canonical_components (cut : ∀ c ∈ components, Token '/' c) : ∀ c ∈ canonical components, Component c := by
  have step : ∀ segs : List (List Char), (∀ c ∈ segs, Component c) →
      ∀ c ∈ components.foldl canonical_step segs, Component c := by
    induction components with
    | nil => exact fun segs kept => kept
    | cons first rest ih =>
      intro segs kept
      refine ih (forall_mem_cons.mp cut).2 _ ?_
      unfold canonical_step
      split
      · exact kept
      rename_i not_dot
      split
      · exact fun c member => kept c (dropLast_subset _ member)
      rename_i not_dots
      exact forall_mem_append.mpr ⟨kept,forall_mem_singleton.mpr
        ⟨cut first (mem_cons_self ..),fun same => not_dot (.inr same),not_dots⟩⟩
  exact step [] (by simp)

theorem intercalate_render (pieces : List (List Char)) : '/' :: intercalate ['/'] pieces = path_of pieces := by
  cases pieces with
  | nil => rfl
  | cons first rest =>
    have joined : ∀ first : List Char, intercalate ['/'] (first :: rest) = first ++ render '/' rest := by
      induction rest with
      | nil => simp
      | cons second more ih =>
        intro first
        rw [intercalate_cons_cons,ih second,render_cons]
        simp
    rw [joined first]
    simp [path_of,or_root,render_cons]

theorem canonicalize_absolute (absolute : path.head? = some '/') :
    path_canonicalize path = path_of (canonical (tokens '/' path)) := by
  cases path with
  | nil => cases absolute
  | cons c rest =>
    cases absolute
    rw [tokens_separator,tokens,canonical_filter]
    exact intercalate_render _

/-! ### Taking a detour out of a walk -/

variable {gone : List (List Char)}

theorem append_components_render (gone_cut : ∀ c ∈ gone, Token '/' c)
    (cut : ∀ c ∈ rest, Token '/' c) (some_rest : rest ≠ []) :
    append_components (render '/' gone) rest =
      if (render '/' (gone ++ rest)).length < MAX_PATH then some (render '/' (gone ++ rest)) else none := by
  induction rest generalizing gone with
  | nil => exact absurd rfl some_rest
  | cons token rest ih =>
    have split_off : gone ++ token :: rest = (gone ++ [token]) ++ rest := by simp
    rw [append_components,append_render gone_cut,split_off]
    by_cases more : rest = []
    · subst more
      rw [append_nil]
      by_cases fits : (render '/' (gone ++ [token])).length < MAX_PATH
      · rw [if_pos fits]
        rfl
      · rw [if_neg fits]
    have longer : (render '/' (gone ++ [token])).length ≤ (render '/' ((gone ++ [token]) ++ rest)).length := by
      rw [render_append (gone ++ [token]) rest,length_append]
      omega
    by_cases fits : (render '/' (gone ++ [token])).length < MAX_PATH
    · rw [if_pos fits]
      refine ih ?_ (forall_mem_cons.mp cut).2 more
      exact forall_mem_append.mpr ⟨gone_cut,forall_mem_singleton.mpr (cut token (mem_cons_self ..))⟩
    · rw [if_neg fits,if_neg (by omega)]

theorem append_components_cut (cut : ∀ c ∈ rest, Token '/' c) :
    append_components [] rest =
      if (render '/' rest).length < MAX_PATH then some (render '/' rest) else none := by
  by_cases some_rest : rest = []
  · subst some_rest
    rfl
  have from_empty : append_components (render '/' []) rest =
      if (render '/' ([] ++ rest)).length < MAX_PATH then some (render '/' ([] ++ rest)) else none :=
    append_components_render (by simp) cut some_rest
  exact from_empty

/-- The path of a symlink ends in the rest's components. -/
theorem link_path_append (parent_path target remaining : List Char) :
    link_path parent_path target remaining = link_path parent_path target [] ++ remaining := by
  unfold link_path
  split
  · simp
  split
  · simp
  · simp

variable {parent_path : List Char}

theorem link_path_head (absolute : parent_path.head? = some '/') (target remaining : List Char) :
    (link_path parent_path target remaining).head? = some '/' := by
  unfold link_path
  split
  · rename_i rooted
    cases target with
    | nil => cases rooted
    | cons c rest => simpa using rooted
  · grind

variable {follow : Bool} {calls depth : Nat}

theorem lookup_eq_walk (absolute : path.head? = some '/') (shallow : depth ≤ MAX_SYMLINK_DEPTH) :
    path_lookup_internal tree (calls + 1) path follow depth none =
      walk tree (path_lookup_internal tree calls) follow depth none tree.root_inode [] (tokens '/' path) := by
  unfold path_lookup_internal
  rw [if_neg (by simpa using absolute),if_neg (by omega)]
  split
  · rename_i root
    rw [root]
    rfl
  · rfl

theorem lookup_deep (deep : MAX_SYMLINK_DEPTH < depth) :
    path_lookup_internal tree (calls + 1) path follow depth none = .missing := by
  unfold path_lookup_internal
  split
  · rfl
  · rfl

variable {depth : Nat}

theorem walk_writes
    {resolved : Option Nat} {first second : List Char} (all : ∀ c ∈ components, Component c)
    (one : Writes first components) (other : Writes second components) :
    walk tree again follow depth resolved current first rest =
      walk tree again follow depth resolved current second rest := by
  induction rest generalizing current first second components with
  | nil => rw [walk,walk,deliver_writes one,deliver_writes other]
  | cons token rest ih =>
    have above : ∀ c ∈ components.dropLast, Component c := fun c member => all c (dropLast_subset _ member)
    have one_above := remove_writes all one
    have other_above := remove_writes all other
    unfold walk
    rw [or_root_writes one_above,or_root_writes other_above,append_writes all one,append_writes all other,
      or_root_writes one,or_root_writes other,ih all one other]
    simp only [ih above one_above other_above]

/-- A symlink leads nowhere, or on to its target and the rest. -/
theorem follow_link_cases (tree : Vfs Inode) (absolute : parent_path.head? = some '/') (link : Inode) :
    (∀ restart rest, follow_link tree restart parent_path link rest = .missing) ∨
      ∃ target : List Char, target.head? = some '/' ∧ ∀ restart rest, (∀ c ∈ rest, Token '/' c) →
        follow_link tree restart parent_path link rest =
          if MAX_PATH ≤ (target ++ render '/' rest).length then .too_long else restart (target ++ render '/' rest) := by
  cases read : tree.readlink link with
  | none =>
    refine .inl (fun restart rest => ?_)
    rw [follow_link,read]
  | some bytes =>
    by_cases long : MAX_PATH ≤ bytes.length
    · refine .inl (fun restart rest => ?_)
      rw [follow_link,read]
      exact if_pos long
    refine .inr ⟨link_path parent_path (bytes.takeWhile (fun c => c ≠ '\x00')) [],link_path_head absolute _ _,?_⟩
    intro restart rest cut
    rw [follow_link,read]
    dsimp only
    rw [if_neg long,append_components_cut cut]
    by_cases fits : (render '/' rest).length < MAX_PATH
    · rw [if_pos fits]
      dsimp only
      rw [link_path_append]
    · rw [if_neg fits,length_append,if_pos (by omega)]

/-- The same outcome, or a path too long for a buffer. -/
def Agrees (first second : Outcome Inode) : Prop := first = .too_long ∨ first = second
theorem Agrees.refl (outcome : Outcome Inode) : Agrees outcome outcome := .inr rfl

theorem Agrees.trans {first second third : Outcome Inode} (one : Agrees first second) (two : Agrees second third) :
    Agrees first third := by
  rcases one with long | rfl
  · exact .inl long
  · exact two

/-- A dot, or into a directory and back. -/
def Detour (tree : Vfs Inode) (again : List Char → Bool → Nat → Option Nat → Outcome Inode) (depth : Nat)
    (current : Inode) (current_path : List Char) (before detour : List (List Char)) : Prop :=
  detour = [dot] ∨ ∃ component node text, detour = [component,dot_dot] ∧ Component component ∧
    walk tree again false depth none current current_path (before ++ [component]) = .found node text ∧
    tree.mode node = .dir

variable {current_path : List Char} {before detour : List (List Char)}

theorem Detour.cut (out : Detour tree again depth current current_path before detour) : ∀ c ∈ detour, Token '/' c := by
  have dots : Token '/' dot ∧ Token '/' dot_dot := by unfold Token; decide
  rcases out with rfl | ⟨component,_,_,rfl,valid,_⟩
  · intro c member
    rw [mem_singleton.mp member]
    exact dots.1
  exact forall_mem_cons.mpr ⟨valid.token,forall_mem_singleton.mpr dots.2⟩

theorem Detour.ne_nil (out : Detour tree again depth current current_path before detour) : detour ≠ [] := by
  rcases out with rfl | ⟨component,_,_,rfl,_⟩
  · simp
  · simp

section
variable {calls depth : Nat} {follow : Bool}

/-- The lookups inside a walk. -/
abbrev inner (tree : Vfs Inode) (calls : Nat) := path_lookup_internal tree (calls + 1)

section
variable (shallow : depth ≤ MAX_SYMLINK_DEPTH) (stands : Stands tree current components)
  (writes : Writes current_path components)
include shallow stands writes

/-- What one component does to a walk, whatever comes after it. -/
theorem walk_component {token : List Char} (cut : Token '/' token) :
    (∃ failure : Outcome Inode, ∀ follow rest,
      walk tree (inner tree calls) follow depth none current current_path (token :: rest) = failure) ∨
    (∃ next path after, Stands tree next after ∧ Writes path after ∧ ∀ follow rest,
      walk tree (inner tree calls) follow depth none current current_path (token :: rest) =
        walk tree (inner tree calls) follow depth none next path rest) ∨
    ∃ link path, tree.mode link = .link ∧ ∀ follow rest,
      walk tree (inner tree calls) follow depth none current current_path (token :: rest) =
        if rest ≠ [] ∨ follow = true then
          follow_link tree (fun path => path_lookup_internal tree (calls + 1) path follow (depth + 1) none)
            (or_root current_path) link rest
        else .found link path := by
  by_cases directory : tree.mode current = .dir
  · by_cases is_dot : token = dot
    · grind [walk]
    by_cases is_dots : token = dot_dot
    · obtain ⟨parent,above,parent_directory⟩ := stands.parent directory
      have removed := remove_writes stands.all writes
      refine .inr (.inl ⟨parent,_,_,above,removed,fun follow rest => ?_⟩)
      rw [walk,if_neg (by simpa using directory),if_neg is_dot,if_pos is_dots,or_root_writes removed,
        inner,lookup_directory above parent_directory shallow]
    by_cases fits : (render '/' (components ++ [token])).length < MAX_PATH
    · cases found : tree.next current (render '/' (components ++ [token])) token with
      | none =>
        refine .inl ⟨.missing,fun follow rest => ?_⟩
        rw [walk,if_neg (by simpa using directory),if_neg is_dot,if_neg is_dots,append_writes stands.all writes,
          if_pos fits]
        dsimp only
        rw [found]
      | some next =>
        have reached := stands.step ⟨cut,is_dot,is_dots⟩ directory fits found
        have taken : ∀ follow rest, walk tree (inner tree calls) follow depth none current
            current_path (token :: rest) =
            if tree.mode next = .link ∧ (rest ≠ [] ∨ follow = true) then
              follow_link tree (fun path => path_lookup_internal tree (calls + 1) path follow (depth + 1) none)
                (or_root current_path) next rest
            else walk tree (inner tree calls) follow depth none next
              (render '/' (components ++ [token])) rest := by
          intro follow rest
          rw [walk,if_neg (by simpa using directory),if_neg is_dot,if_neg is_dots,append_writes stands.all writes,
            if_pos fits]
          dsimp only
          rw [found]
        by_cases is_link : tree.mode next = .link
        · refine .inr (.inr ⟨next,path_of (components ++ [token]),is_link,fun follow rest => ?_⟩)
          rw [taken]
          by_cases more : rest ≠ [] ∨ follow = true
          · rw [if_pos ⟨is_link,more⟩,if_pos more]
          have none_left : rest = [] := by
            by_contra some_left
            exact more (.inl some_left)
          rw [if_neg (fun both => more both.2),if_neg more,none_left]
          rfl
        refine .inr (.inl ⟨next,_,_,reached,.inl rfl,fun follow rest => ?_⟩)
        rw [taken,if_neg (fun both => is_link both.1)]
    refine .inl ⟨.too_long,fun follow rest => ?_⟩
    rw [walk,if_neg (by simpa using directory),if_neg is_dot,if_neg is_dots,append_writes stands.all writes,
      if_neg fits]
  refine .inl ⟨.missing,fun follow rest => ?_⟩
  rw [walk,if_pos directory]

theorem walk_detour_here
    (out : Detour tree (inner tree calls) depth current current_path [] detour)
    (last : rest = [] → ∀ inode text,
      walk tree (inner tree calls) follow depth none current current_path [] = .found inode text →
        tree.mode inode = .dir) :
    walk tree (inner tree calls) follow depth none current current_path (detour ++ rest) =
      walk tree (inner tree calls) follow depth none current current_path rest := by
  rcases out with rfl | ⟨component,node,text,rfl,valid,probed,node_directory⟩
  · rw [singleton_append,walk]
    by_cases directory : tree.mode current = .dir
    · rw [if_neg (by simpa using directory),if_pos rfl]
    rw [if_pos directory]
    cases rest with
    | nil => exact absurd (last rfl current _ rfl) directory
    | cons token more => rw [walk,if_pos directory]
  rw [nil_append,walk] at probed
  by_cases directory : tree.mode current = .dir
  · rw [if_neg (by simpa using directory),if_neg valid.2.1,if_neg valid.2.2,append_writes stands.all writes] at probed
    by_cases fits : (render '/' (components ++ [component])).length < MAX_PATH
    · rw [if_pos fits] at probed
      dsimp only at probed
      cases found : tree.next current (render '/' (components ++ [component])) component with
      | none =>
        rw [found] at probed
        cases probed
      | some next =>
        rw [found] at probed
        dsimp only at probed
        rw [if_neg (by simp)] at probed
        cases probed
        have inside := stands.step valid directory fits found
        have returned : Writes (vfs_remove_last_component (render '/' (components ++ [component]))) components := by
          have removed := remove_writes inside.all (.inl rfl)
          rwa [dropLast_concat] at removed
        have onward : ¬ (tree.mode node = .link ∧ ((dot_dot :: rest) ≠ [] ∨ follow = true)) := by
          rw [node_directory]
          rintro ⟨⟨⟩,_⟩
        rw [cons_append,singleton_append,walk,if_neg (by simpa using directory),if_neg valid.2.1,
          if_neg valid.2.2,append_writes stands.all writes,if_pos fits]
        dsimp only
        rw [found]
        dsimp only
        rw [if_neg onward,walk,if_neg (by simpa using node_directory),if_neg (by decide),if_pos rfl,
          or_root_writes returned,inner,lookup_directory stands directory shallow]
        exact walk_writes stands.all returned writes
    rw [if_neg fits] at probed
    cases probed
  rw [if_pos directory] at probed
  cases probed

end

/-- A walk with a detour ends where it does without. -/
theorem walk_detour (enough : MAX_SYMLINK_DEPTH + 1 ≤ calls + depth) (shallow : depth ≤ MAX_SYMLINK_DEPTH)
    (stands : Stands tree current components) (writes : Writes current_path components)
    (before_cut : ∀ c ∈ before, Token '/' c) (rest_cut : ∀ c ∈ rest, Token '/' c)
    (out : Detour tree (path_lookup_internal tree calls) depth current current_path before detour)
    (last : rest = [] → ∀ inode text,
      walk tree (path_lookup_internal tree calls) follow depth none current current_path before = .found inode text →
        tree.mode inode = .dir) :
    Agrees (walk tree (path_lookup_internal tree calls) follow depth none current current_path (before ++ detour ++ rest))
      (walk tree (path_lookup_internal tree calls) follow depth none current current_path (before ++ rest)) := by
  induction calls generalizing depth current current_path components before with
  | zero => omega
  | succ calls deeper =>
    induction before generalizing current current_path components with
    | nil => exact .inr (walk_detour_here shallow stands writes out last)
    | cons token before ih =>
      have later : ∀ c ∈ before, Token '/' c := (forall_mem_cons.mp before_cut).2
      simp only [cons_append]
      rcases walk_component shallow stands writes (before_cut token (mem_cons_self ..)) with
        ⟨failure,fails⟩ | ⟨next,path,after,reached,written,goes⟩ | ⟨link,path,is_link,leads⟩
      · rw [fails,fails]
        exact .refl _
      · rw [goes,goes]
        refine ih reached written later ?_ ?_
        · refine out.imp_right ?_
          grind
        intro none_left inode text found
        exact last none_left inode text (by rwa [goes])
      have all_cut : ∀ c ∈ before ++ detour ++ rest, Token '/' c :=
        forall_mem_append.mpr ⟨forall_mem_append.mpr ⟨later,out.cut⟩,rest_cut⟩
      have short_cut : ∀ c ∈ before ++ rest, Token '/' c := forall_mem_append.mpr ⟨later,rest_cut⟩
      have more : before ++ detour ++ rest ≠ [] := by simp [out.ne_nil]
      have followed : before ++ rest ≠ [] ∨ follow = true := by
        by_contra final
        have none_left : before = [] ∧ rest = [] := by simpa using fun some_left => final (.inl some_left)
        have here : walk tree (inner tree calls) follow depth none current current_path
            (token :: before) = .found link path := by
          rw [leads,if_neg (by rw [none_left.1]; rintro (absurd_nil | yes); exacts [absurd_nil rfl,final (.inr yes)])]
        have := last none_left.2 link path here
        rw [is_link] at this
        cases this
      rw [leads,leads,if_pos (.inl more),if_pos followed]
      have absolute : (or_root current_path).head? = some '/' := by
        rw [or_root_writes writes]
        exact path_of_head _
      rcases follow_link_cases tree absolute link with nowhere | ⟨target,rooted,onward⟩
      · rw [nowhere,nowhere]
        exact .refl _
      rw [onward _ _ all_cut,onward _ _ short_cut]
      by_cases long : MAX_PATH ≤ (target ++ render '/' (before ++ detour ++ rest)).length
      · rw [if_pos long]
        exact .inl rfl
      have short : ¬ MAX_PATH ≤ (target ++ render '/' (before ++ rest)).length := by
        simp only [render_append,length_append] at long ⊢
        omega
      rw [if_neg long,if_neg short]
      have head : ∀ rest, (target ++ rest).head? = some '/' := by
        intro rest
        rw [head?_append,rooted]
        rfl
      by_cases deep : MAX_SYMLINK_DEPTH < depth + 1
      · rw [lookup_deep deep,lookup_deep deep]
        exact .refl _
      have again : ∀ follow pieces, (∀ c ∈ pieces, Token '/' c) →
          path_lookup_internal tree (calls + 1) (target ++ render '/' pieces) follow (depth + 1) none =
            walk tree (path_lookup_internal tree calls) follow (depth + 1) none tree.root_inode []
              (tokens '/' target ++ pieces) := by
        intro follow pieces cut
        rw [lookup_eq_walk (head _) (by omega),tokens_append_render _ cut]
      rw [again _ _ all_cut,again _ _ short_cut,← append_assoc,← append_assoc,← append_assoc]
      refine deeper (by omega) (by omega) (.root tree) (.inl rfl) ?_ ?_ ?_
      · exact forall_mem_append.mpr ⟨fun c => tokens_mem,later⟩
      · refine out.imp_right ?_
        rintro ⟨component,node,text,same,valid,probed,directory⟩
        have probe_cut : ∀ c ∈ before ++ [component], Token '/' c :=
          forall_mem_append.mpr ⟨later,forall_mem_singleton.mpr valid.token⟩
        refine ⟨component,node,text,same,valid,?_,directory⟩
        rw [cons_append,leads,if_pos (.inl (by simp)),onward _ _ probe_cut] at probed
        split at probed
        · cases probed
        · rwa [again _ _ probe_cut,← append_assoc] at probed
      intro none_left inode text found
      subst none_left
      rw [append_nil] at followed short
      refine last rfl inode text ?_
      rwa [leads,if_pos followed,onward _ _ later,if_neg short,again _ _ later]

theorem walk_root_up (last : rest = [] → tree.mode tree.root_inode = .dir) :
    walk tree (inner tree calls) follow 0 none tree.root_inode [] (dot_dot :: rest) =
      walk tree (inner tree calls) follow 0 none tree.root_inode [] rest := by
  by_cases directory : tree.mode tree.root_inode = .dir
  · have up : path_lookup_internal tree (calls + 1) (path_of []) true 0 none = .found tree.root_inode (path_of []) :=
      lookup_directory (.root tree) directory (Nat.zero_le _) calls
    rw [walk,if_neg (by simpa using directory),if_neg (by decide),if_pos rfl]
    have cut : vfs_remove_last_component [] = [] := rfl
    have root : or_root [] = path_of [] := rfl
    rw [cut,root,inner,up]
  cases rest with
  | nil => exact absurd (last rfl) directory
  | cons token more => rw [walk,walk,if_pos directory,if_pos directory]

end

theorem canonical_append (components : List (List Char)) (token : List Char) :
    canonical (components ++ [token]) = canonical_step (canonical components) token := by
  unfold canonical
  rw [foldl_append]
  rfl

theorem lookup_ex_eq_walk (absolute : path.head? = some '/') (follow : Bool) :
    path_lookup_ex tree path follow =
      walk tree (path_lookup_internal tree (MAX_SYMLINK_DEPTH + 1)) follow 0 none tree.root_inode [] (tokens '/' path) :=
  lookup_eq_walk absolute (Nat.zero_le _)
theorem lookup_ex_path_of (all : ∀ c ∈ components, Component c) (follow : Bool) :
    path_lookup_ex tree (path_of components) follow =
      walk tree (path_lookup_internal tree (MAX_SYMLINK_DEPTH + 1)) follow 0 none tree.root_inode [] components := by
  rw [lookup_ex_eq_walk (path_of_head _),tokens_path_of all]

/-- What is kept and the rest lead where all that is kept leads. -/
theorem canonical_agrees (straight : Straight tree path follow) (whole : tokens '/' path = gone ++ rest) : Agrees
      (walk tree (path_lookup_internal tree (MAX_SYMLINK_DEPTH + 1)) follow 0 none tree.root_inode []
        (canonical gone ++ rest))
      (path_lookup_ex tree (path_of (canonical (tokens '/' path))) follow) := by
  have cut : ∀ c ∈ gone ++ rest, Token '/' c := fun c member => tokens_mem (whole ▸ member)
  have kept : ∀ c ∈ canonical gone, Component c :=
    canonical_components (forall_mem_append.mp cut).1
  induction rest generalizing gone with
  | nil =>
    rw [whole,append_nil,append_nil,lookup_ex_path_of kept]
    exact .refl _
  | cons token rest ih =>
    have next : tokens '/' path = (gone ++ [token]) ++ rest := by rw [whole]; simp
    have rest_cut : ∀ c ∈ rest, Token '/' c := fun c member =>
      cut c (mem_append_right _ (mem_cons_of_mem _ member))
    have next_cut : ∀ c ∈ (gone ++ [token]) ++ rest, Token '/' c := fun c member => tokens_mem (next ▸ member)
    have next_kept : ∀ c ∈ canonical (gone ++ [token]), Component c :=
      canonical_components (forall_mem_append.mp next_cut).1
    have onward := ih next next_cut next_kept
    -- where the path ends here in dots, what is kept names a directory
    have ends : token = dot ∨ token = dot_dot → rest = [] → ∀ inode text,
        walk tree (path_lookup_internal tree (MAX_SYMLINK_DEPTH + 1)) follow 0 none tree.root_inode []
          (canonical (gone ++ [token])) = .found inode text → tree.mode inode = .dir := by
      rintro dots rfl inode text found
      rw [append_nil] at next
      have last : (tokens '/' path).getLast? = some token := by rw [next]; simp
      have none_other := straight.last (by rw [last]; exact dots.imp (congrArg some) (congrArg some))
      rw [next] at none_other
      unfold names_other at none_other
      rw [lookup_ex_path_of next_kept,found] at none_other
      simpa using none_other
    by_cases is_dot : token = dot
    · have same : canonical (gone ++ [token]) = canonical gone := by
        rw [canonical_append,canonical_step,if_pos (.inr is_dot)]
      rw [same] at onward ends
      subst is_dot
      refine Agrees.trans ?_ onward
      rw [show canonical gone ++ dot :: rest = canonical gone ++ [dot] ++ rest by simp]
      exact walk_detour (by omega) (Nat.zero_le _) (.root tree) (.inl rfl) (fun c member => (kept c member).token) rest_cut
        (.inl rfl) (fun none_left => ends (.inl rfl) none_left)
    by_cases is_dots : token = dot_dot
    · subst is_dots
      have same : canonical (gone ++ [dot_dot]) = (canonical gone).dropLast := by
        rw [canonical_append,canonical_step,if_neg (by decide),if_pos rfl]
      rw [same] at onward ends
      rcases eq_nil_or_concat (canonical gone) with empty | ⟨before,component,concat⟩
      · rw [empty] at onward ends ⊢
        rw [nil_append,walk_root_up (fun none_left => ends (.inr rfl) none_left _ _ rfl)]
        exact onward
      rw [concat_eq_append] at concat
      rw [concat,dropLast_concat] at onward ends
      have position : gone.length < (tokens '/' path).length := by rw [whole]; simp
      have directory := straight.back gone.length position (by rw [whole]; simp)
        (by rw [whole,take_left,concat]; simp)
      rw [whole,take_left] at directory
      unfold names_directory at directory
      rw [lookup_ex_path_of kept,concat] at directory
      split at directory
      · rename_i node text probed
        have valid : Component component := kept component (by rw [concat]; simp)
        have early : ∀ c ∈ before, Token '/' c := fun c member => (kept c (by rw [concat]; simp [member])).token
        refine Agrees.trans ?_ onward
        rw [concat,show before ++ [component] ++ dot_dot :: rest = before ++ [component,dot_dot] ++ rest by simp]
        exact walk_detour (by omega) (Nat.zero_le _) (.root tree) (.inl rfl) early rest_cut
          (.inr ⟨component,node,text,rfl,valid,probed,by simpa using directory⟩)
          (fun none_left => ends (.inr rfl) none_left)
      · cases directory
    have same : canonical (gone ++ [token]) = canonical gone ++ [token] := by
      have some_token : token ≠ [] := (cut token (by simp)).1
      rw [canonical_append,canonical_step,if_neg (by rintro (none_left | one); exacts [some_token none_left,is_dot one]),
        if_neg is_dots]
    rw [same,append_assoc] at onward
    exact onward

/-- The canonical path leads where the raw path leads, if every `..` takes back a
    directory and the raw path fits. -/
theorem canonical_path_same_inode (tree : Vfs Inode) {base : Except Errno (List Char)} {path raw : List Char}
    {follow : Bool} (resolved : resolve_path_at_raw base path = .ok raw) (straight : Straight tree raw follow)
    (fits : path_lookup_ex tree raw follow ≠ .too_long) :
    ∃ full, resolve_path_at base path = .ok full ∧
      (path_lookup_ex tree full follow).inode = (path_lookup_ex tree raw follow).inode := by
  have canonicalized : resolve_path_at base path = .ok (path_canonicalize raw) := by
    unfold resolve_path_at_raw resolve_path_at_internal at resolved
    unfold resolve_path_at resolve_path_at_internal
    dsimp only at resolved ⊢
    split
    · rename_i empty
      rw [if_pos empty] at resolved
      cases resolved
    rename_i some_path
    rw [if_neg some_path] at resolved
    split
    · grind
    rename_i relative
    rw [if_neg relative] at resolved
    cases base with
    | error errno => cases resolved
    | ok base => grind
  refine ⟨_,canonicalized,?_⟩
  by_cases absolute : raw.head? = some '/'
  · rw [canonicalize_absolute absolute]
    have agrees := canonical_agrees straight (nil_append (tokens '/' raw)).symm
    change Agrees (walk tree _ follow 0 none tree.root_inode [] (tokens '/' raw)) _ at agrees
    rw [← lookup_ex_eq_walk absolute] at agrees
    rcases agrees with long | same
    · exact absurd long fits
    · rw [same]
  -- a path that does not start at the root is not looked up at all
  have nowhere : ∀ path : List Char, path.head? ≠ some '/' → path_lookup_ex tree path follow = .missing := by
    intro path relative
    unfold path_lookup_ex LOOKUP_CALLS path_lookup_internal
    rw [if_pos relative]
  rw [nowhere raw absolute,nowhere _ ?_]
  unfold path_canonicalize
  cases raw with
  | nil => simp [canonical,canonical_step]
  | cons c rest => simpa using absolute

theorem canonical_path_same_inode_sample :
    ∃ full, resolve_path_at (.ok "/a".toList) "b/../../link/.".toList = .ok full ∧
      (path_lookup_ex sample_tree full true).inode =
        (path_lookup_ex sample_tree "/a/b/../../link/.".toList true).inode := by
  refine canonical_path_same_inode sample_tree (by decide) ⟨?_,?_⟩ (by decide)
  · decide
  · decide

/-- The parent of a directory behind a symlink: the canonical path is the root. -/
theorem canonical_path_skips_symlink :
    ∃ full, resolve_path_at (.error .EBADF) "/link/..".toList = .ok full ∧
      resolve_path_at_raw (.error .EBADF) "/link/..".toList = .ok "/link/..".toList ∧
      (path_lookup_ex sample_tree full true).inode = some 0 ∧
      (path_lookup_ex sample_tree "/link/..".toList true).inode = some 1 :=
  ⟨['/'],by decide,by decide,by decide,by decide⟩

end ArmOS.Canonical

