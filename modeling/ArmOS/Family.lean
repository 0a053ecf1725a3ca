import ArmOS.Links
import ArmOS.Sleepers

/-!
The tree of processes. A process names its parent and its first child, and each
child the next sibling. Forks link a child in, exits hand children to init, and
`waitpid` and the scan for discarded children unlink a zombie. Each section under
`task_lock` is one step; the address of a freed process can be given out again.
-/
namespace ArmOS.Family
open Links Runs Function List Option
open Sleepers (MAX_TASKS)

/-- How far a process has come: `sys_exit` hands its children over before it is a zombie. -/
inductive Stage
  | live | exiting | zombie | gone
  deriving DecidableEq, Repr

structure System where
  init : Nat
  /-- The processes whose structures are not freed. -/
  tasks : List Nat
  stage : Nat → Stage
  parent : Nat → Option Nat
  children : Nat → Option Nat
  sibling_next : Nat → Option Nat
  /-- The zombie that its `waitpid` has found and not reaped. -/
  found : Nat → Option Nat

def System.boot (init : Nat) : System :=
  ⟨init,[init],update (fun _ => .gone) init .live,fun _ => none,fun _ => none,fun _ => none,fun _ => none⟩

/-- The fields that `task_create_copy` gives a new process. -/
def task_create_copy (parent child : Nat) (s : System) : System :=
  { s with
    tasks := child :: s.tasks
    stage := update s.stage child .live
    parent := update s.parent child (some parent)
    children := update s.children child none
    sibling_next := update s.sibling_next child none
    found := update s.found child none }

/-- The section of `sys_fork` that links the child in. -/
def link_child (parent child : Nat) (s : System) : System :=
  { s with
    parent := update s.parent child (some parent)
    sibling_next := update s.sibling_next child (s.children parent)
    children := update s.children parent (some child) }

def sys_fork (parent child : Nat) (s : System) : System := link_child parent child (task_create_copy parent child s)

/-- Takes the child out of the parent's list, if it is found. -/
def unlink_child (fuel parent child : Nat) (s : System) : Option System :=
  if s.children parent = some child then
    some { s with children := update s.children parent (s.sibling_next child) }
  else
    (find_before s.sibling_next child fuel (s.children parent)).map fun prev =>
      { s with sibling_next := update s.sibling_next prev (s.sibling_next child) }

def destroy_process (child : Nat) (s : System) : System :=
  { s with tasks := s.tasks.erase child, stage := update s.stage child .gone }

/-- No list has more siblings than there are processes. -/
def cleanup_failed_fork_child (parent child : Nat) (s : System) : System :=
  destroy_process child ((unlink_child s.tasks.length parent child s).getD s)

def remove_child_from_parent_locked (parent child : Nat) (s : System) : System × Bool :=
  match unlink_child MAX_TASKS parent child s with
  | some unlinked =>
    ({ unlinked with
        sibling_next := update unlinked.sibling_next child none, parent := update unlinked.parent child none },true)
  | none => (s,false)

/-- The loop of `orphan_children` from this child on. -/
def orphan_loop (init : Nat) : Nat → Option Nat → System → System
  | 0, _, s => s
  | _+1, none, s => s
  | n+1, some child, s =>
    orphan_loop init n (s.sibling_next child)
      { s with
        parent := update s.parent child (some init)
        sibling_next := update s.sibling_next child (s.children init)
        children := update s.children init (some child) }

/-- `find_process_by_pid(1)`. -/
def find_init (s : System) : Option Nat := if s.init ∈ s.tasks then some s.init else none

def orphan_children (proc : Nat) (s : System) : System :=
  match find_init s with
  | none => s
  | some init =>
    let moved := orphan_loop init s.tasks.length (s.children proc) s
    { moved with children := update moved.children proc none }

/-- The search of `waitpid`; `ready` says whether a zombie matches. -/
def find_zombie_child_locked (ready : Nat → Bool) (parent : Nat) (s : System) : Option Nat :=
  find_first s.sibling_next (fun c => decide (s.stage c = .zombie) && ready c) s.tasks.length (s.children parent)

inductive Label
  | fork (parent child : Nat)
  | fork_failed (parent child : Nat)
  | orphan (proc : Nat)
  | exit (proc : Nat)
  | find (parent child : Nat)
  | reap (parent child : Nat)
  | discard (child : Nat)

inductive Step (s : System) : Label → System → Prop
  | fork {parent child : Nat} :
      s.stage parent = .live → s.found parent = none → child ∉ s.tasks →
      Step s (.fork parent child) (sys_fork parent child s)
  | fork_failed {parent child : Nat} :
      s.stage parent = .live → s.found parent = none → child ∉ s.tasks →
      Step s (.fork_failed parent child) (cleanup_failed_fork_child parent child (task_create_copy parent child s))
  | orphan {proc : Nat} :
      s.stage proc = .live → s.found proc = none →
      Step s (.orphan proc) { orphan_children proc s with stage := update s.stage proc .exiting }
  | exit {proc : Nat} :
      s.stage proc = .exiting → Step s (.exit proc) { s with stage := update s.stage proc .zombie }
  | find {parent child : Nat} {ready : Nat → Bool} :
      s.stage parent = .live → s.found parent = none → find_zombie_child_locked ready parent s = some child →
      Step s (.find parent child) { s with found := update s.found parent (some child) }
  /-- The zombie is not looked at again: if it is discarded by now, it is freed a second
      time, or whoever has its address is. -/
  | reap {parent child : Nat} :
      s.stage parent = .live → s.found parent = some child →
      Step s (.reap parent child)
        { destroy_process child (remove_child_from_parent_locked parent child s).1 with
          found := update s.found parent none }
  /-- The scan detaches a zombie whose parent ignores SIGCHLD. -/
  | discard {removed : System} {parent child : Nat} :
      child ∈ s.tasks → s.stage child = .zombie → s.parent child = some parent →
      remove_child_from_parent_locked parent child s = (removed,true) →
      Step s (.discard child) (destroy_process child removed)

/-- A fork has room for its child, and a zombie that is reaped is still the caller's. -/
def Intact (s : System) : Label → Prop
  | .fork _ _ => s.tasks.length < MAX_TASKS
  | .reap parent child => child ∈ s.tasks ∧ s.stage child = .zombie ∧ s.parent child = some parent
  | _ => True
def Careful (s : System) (l : Label) (t : System) : Prop := Intact s l ∧ Step s l t

/-! ### The invariant -/

/-- The children lists are `list`; those an exiting init leaves are on none. -/
structure Tree (s : System) (list : Nat → List Nat) : Prop where
  chain : ∀ p, Chain s.sibling_next (s.children p) (list p)
  child : ∀ p, ∀ c ∈ list p, c ∈ s.tasks ∧ s.parent c = some p
  listed : ∀ p, ∀ c ∈ s.tasks, s.parent c = some p → c ∈ list p ∨ (p = s.init ∧ s.stage p ≠ .live)
  empty : ∀ p, s.stage p ≠ .live → p ≠ s.init → list p = []
  init : s.init ∈ s.tasks ∧ s.parent s.init = none
  distinct : s.tasks.Nodup
  few : s.tasks.length ≤ MAX_TASKS
  fresh : ∀ p, p ∉ s.tasks → s.stage p = .gone

variable {s : System} {list : Nat → List Nat} {p q c parent child proc : Nat}

theorem Tree.same_list (tree : Tree s list) (first : c ∈ list p) (second : c ∈ list q) : p = q :=
  some.inj ((tree.child p c first).2.symm.trans (tree.child q c second).2)
theorem Tree.list_length (tree : Tree s list) (p : Nat) : (list p).length ≤ s.tasks.length :=
  ((tree.chain p).nodup.subperm fun c member => (tree.child p c member).1).length_le

theorem Tree.init_unlisted (tree : Tree s list) (p : Nat) : s.init ∉ list p := by
  intro member
  have up := (tree.child p _ member).2
  rw [tree.init.2] at up
  cases up

theorem Tree.first (init : Nat) : Tree (System.boot init) fun _ => [] where
  chain := fun _ => rfl
  child := nofun
  listed := fun _ _ _ => nofun
  empty := fun _ _ _ => rfl
  init := ⟨mem_singleton_self _,rfl⟩
  distinct := nodup_singleton _
  few := Nat.succ_le_of_lt (by decide)
  fresh := by simp_all [Family.System.boot]

variable {stage : Nat → Stage}

theorem Tree.restage (tree : Tree s list) (same : ∀ q, stage q = .live ↔ s.stage q = .live)
    (fresh : ∀ q, q ∉ s.tasks → stage q = .gone) : Tree { s with stage := stage } list := by
  constructor
  case listed => exact fun q c known up => (tree.listed q c known up).imp_right (And.imp_right (mt (same q).mp))
  case empty => exact fun q dead => tree.empty q (mt (same q).mpr dead)
  case fresh => exact fresh
  all_goals first | exact tree.chain | exact tree.child | exact tree.init | exact tree.distinct | exact tree.few

theorem update_live {new : Stage} (dead : stage proc ≠ .live) (still : new ≠ .live) (q : Nat) :
    update stage proc new q = .live ↔ stage q = .live := by
  by_cases same : q = proc
  · subst same
    simp [dead,still]
  · simp [same]

/-- The tree does not depend on what `waitpid` has found. -/
theorem Tree.refound (tree : Tree s list) {found : Nat → Option Nat} : Tree { s with found := found } list := { tree with }

/-! ### Forks -/

/-- A process that is not linked is on no list and has none. -/
theorem Tree.unknown (tree : Tree s list) (absent : child ∉ s.tasks) :
    child ≠ s.init ∧ list child = [] ∧ (∀ c ∈ s.tasks, s.parent c ≠ some child) ∧ ∀ p, child ∉ list p := by
  have apart : child ≠ s.init := fun same => absent (same ▸ tree.init.1)
  have none_yet := tree.empty child (by rw [tree.fresh child absent]; nofun) apart
  refine ⟨apart,none_yet,?_,fun p member => absent (tree.child p child member).1⟩
  intro c known up
  rcases tree.listed child c known up with member | ⟨same,_⟩
  · rw [none_yet] at member
    cases member
  · exact apart same

theorem Tree.forked (tree : Tree s list) (live : s.stage parent = .live) (absent : child ∉ s.tasks)
    (room : s.tasks.length < MAX_TASKS) : Tree (sys_fork parent child s) (update list parent (child :: list parent)) := by
  obtain ⟨apart,empty,childless,unlisted⟩ := tree.unknown absent
  have other : parent ≠ child := by
    rintro rfl
    rw [tree.fresh parent absent] at live
    cases live
  have kept : ∀ q c, c ∈ list q → c ∈ update list parent (child :: list parent) q := by
    intro q c member
    by_cases same : q = parent
    · subst same
      simp [member]
    · rwa [update_of_ne same]
  simp only [sys_fork,link_child,task_create_copy,update_of_ne other]
  constructor
  case chain =>
    intro q
    by_cases same : q = parent
    · subst same
      simpa using (tree.chain q).push (unlisted q)
    by_cases new : q = child
    · subst new
      simp [same,empty]
    · simpa [same,new] using (tree.chain q).update (unlisted q) _
  case child => grind [child]
  case listed =>
    intro q c known up
    by_cases new : c = child
    · subst new
      simp only [update_self,some.injEq] at up
      subst up
      simp
    simp only [mem_cons,new,false_or,ne_eq,not_false_eq_true,update_of_ne] at known up
    grind [listed]
  case empty =>
    intro q dead others
    have old : q ≠ child := by
      rintro rfl
      simp at dead
    simp only [update_of_ne old] at dead
    have childless : q ≠ parent := fun same => dead (same ▸ live)
    rw [update_of_ne childless]
    exact tree.empty q dead others
  case init => simpa [Ne.symm apart] using tree.init
  case distinct => exact nodup_cons.mpr ⟨absent,tree.distinct⟩
  case few => exact room
  case fresh =>
    intro q unknown
    simp only [mem_cons,not_or] at unknown
    simpa [unknown.1] using tree.fresh q unknown.2

variable {heads : List Nat}

/-- A child that was never linked is searched for in vain. -/
theorem unlink_child_absent (chain : Chain s.sibling_next (s.children parent) heads)
    (outside : child ∉ heads) (fuel : Nat) : unlink_child fuel parent child s = none := by
  have not_first : s.children parent ≠ some child := by
    intro first
    cases heads with
    | nil => exact absurd (first.symm.trans chain) nofun
    | cons b rest =>
      have same : child = b := some.inj (first.symm.trans chain.1)
      exact outside (by simp [same])
  rw [unlink_child,if_neg not_first,find_before_absent chain outside,map_none]

theorem Tree.fork_failed (tree : Tree s list) (live : s.stage parent = .live) (absent : child ∉ s.tasks) :
    Tree (cleanup_failed_fork_child parent child (task_create_copy parent child s)) list := by
  obtain ⟨apart,empty,childless,unlisted⟩ := tree.unknown absent
  have other : parent ≠ child := by
    rintro rfl
    rw [tree.fresh parent absent] at live
    cases live
  have chain : ∀ q, Chain (update s.sibling_next child none) (update s.children child none q) (list q) := by
    intro q
    by_cases new : q = child
    · subst new
      simp [empty]
    · simpa [new] using (tree.chain q).update (unlisted q) none
  have same_stage : update (update s.stage child .live) child .gone = s.stage := by
    rw [update_idem,← tree.fresh child absent,update_eq_self]
  rw [cleanup_failed_fork_child,unlink_child_absent (chain parent) (unlisted parent),getD_none]
  simp only [task_create_copy,destroy_process,erase_cons_head,same_stage]
  constructor
  case chain => exact chain
  case child => grind [child]
  case listed => grind [listed]
  case empty => exact tree.empty
  case init => simpa [Ne.symm apart] using tree.init
  case distinct => exact tree.distinct
  case few => exact tree.few
  case fresh => exact tree.fresh

/-! ### Reaping -/

theorem unlink_child_present {fuel : Nat} (chain : Chain s.sibling_next (s.children parent) heads)
    (member : child ∈ heads) (enough : heads.length ≤ fuel) :
    ∃ children' next', unlink_child fuel parent child s = some { s with children := children', sibling_next := next' } ∧
      Chain next' (children' parent) (heads.erase child) ∧ (∀ q, q ≠ parent → children' q = s.children q) ∧
      ∀ c, c ∉ heads → next' c = s.sibling_next c := by
  obtain ⟨before,after,rfl⟩ := append_of_mem member
  have unique : child ∉ before := by
    intro again
    exact (nodup_append.mp chain.nodup).2.2 child again child mem_cons_self rfl
  rw [erase_append_right _ unique,erase_cons_head]
  rcases eq_nil_or_concat before with rfl | ⟨before,prev,rfl⟩
  · simp_all [unlink_child]
  simp only [concat_eq_append,append_assoc,singleton_append] at chain enough unique ⊢
  refine ⟨s.children,update s.sibling_next prev (s.sibling_next child),?_,chain.unlink,fun _ _ => rfl,?_⟩
  · have not_first : s.children parent ≠ some child := by
      intro first
      cases before with
      | nil => exact unique (by simpa using (some.inj (first.symm.trans chain.1)))
      | cons b rest => exact unique (by simp [some.inj (first.symm.trans chain.1)])
    have found := find_before_present chain (n := fuel) (by simp at enough; omega)
    rw [unlink_child,if_neg not_first,found,map_some]
  intro c outside
  exact update_of_ne (fun same => outside (by simp [same])) _ _

theorem Tree.detach (tree : Tree s list) (member : child ∈ list parent) (dead : s.stage child ≠ .live) :
    ∃ removed, remove_child_from_parent_locked parent child s = (removed,true) ∧
      Tree (destroy_process child removed) (update list parent ((list parent).erase child)) := by
  have chain := tree.chain parent
  have enough : (list parent).length ≤ MAX_TASKS := le_trans (tree.list_length parent) tree.few
  obtain ⟨children',next',unlinked,shorter,others,outside⟩ := unlink_child_present chain member enough
  have known := (tree.child parent child member).1
  have apart : child ≠ s.init := fun same => tree.init_unlisted parent (same ▸ member)
  have left : ∀ c, c ∈ (list parent).erase child ↔ c ≠ child ∧ c ∈ list parent := fun c => chain.nodup.mem_erase_iff
  have kept : ∀ q c, c ∈ update list parent ((list parent).erase child) q ↔ c ≠ child ∧ c ∈ list q := by
    intro q c
    by_cases same : q = parent
    · subst same
      simp [left]
    rw [update_of_ne same]
    refine ⟨fun inside => ⟨fun gone => same (tree.same_list (gone ▸ inside) member),inside⟩,And.right⟩
  have taken : remove_child_from_parent_locked parent child s =
      ({ s with
          children := children', sibling_next := update next' child none, parent := update s.parent child none },true) := by
    rw [remove_child_from_parent_locked,unlinked]
  refine ⟨_,taken,?_⟩
  have still := update_live dead (nofun : Stage.gone ≠ .live)
  simp only [destroy_process]
  constructor
  case chain =>
    intro q
    by_cases same : q = parent
    · subst same
      simpa using shorter.update (a := child) (by simp [left]) none
    have elsewhere : ∀ c ∈ list q, c ∉ list parent := fun c here there => same (tree.same_list here there)
    rw [update_of_ne same]
    dsimp only
    rw [others q same]
    refine ((tree.chain q).frame fun c here => outside c (elsewhere c here)).update ?_ none
    exact fun here => elsewhere child here member
  case child =>
    intro q c inside
    obtain ⟨other,inside⟩ := (kept q c).mp inside
    obtain ⟨old,up⟩ := tree.child q c inside
    simp [mem_erase_of_ne other,other,old,up]
  case listed =>
    intro q c old up
    rw [ne_eq,still]
    clear still
    simp_all [update_apply,listed]
  case empty =>
    intro q gone others
    have none_left := tree.empty q (mt (still q).mpr gone) others
    grind
  case init => simpa [mem_erase_of_ne (Ne.symm apart),Ne.symm apart] using tree.init
  case distinct => exact tree.distinct.erase _
  case few => exact length_erase_le.trans tree.few
  case fresh =>
    intro q unknown
    by_cases same : q = child
    · simp [same]
    · simpa [same] using tree.fresh q fun old => unknown ((mem_erase_of_ne same).mpr old)

/-! ### Orphans -/

/-- The loop hands its children over one by one, each in front. -/
theorem orphan_loop_spec (init : Nat) {n : Nat} {head : Option Nat} {nodes : List Nat}
    (chain : Chain s.sibling_next head nodes) (enough : nodes.length ≤ n) :
    ∃ parent' children' next', orphan_loop init n head s =
        { s with parent := parent', children := children', sibling_next := next' } ∧
      (∀ c ∈ nodes, parent' c = some init) ∧ (∀ c, c ∉ nodes → parent' c = s.parent c ∧ next' c = s.sibling_next c) ∧
      (∀ q, q ≠ init → children' q = s.children q) ∧
      ∀ heirs, Chain s.sibling_next (s.children init) heirs → (∀ c ∈ nodes, c ∉ heirs) →
        Chain next' (children' init) (nodes.reverse ++ heirs) := by
  -- by induction on the list; the child at its head goes to init and the rest follows
  induction nodes generalizing s head n with
  | nil =>
    obtain rfl : head = none := chain
    refine ⟨s.parent,s.children,s.sibling_next,by cases n <;> rfl,nofun,fun _ _ => ⟨rfl,rfl⟩,fun _ _ => rfl,?_⟩
    exact fun heirs there _ => there
  | cons c rest ih =>
    obtain ⟨n,rfl⟩ := Nat.exists_eq_succ_of_ne_zero (n := n) (by rintro rfl; simp at enough)
    have once := (nodup_cons.mp chain.nodup).1
    let moved : System :=
      { s with
        parent := update s.parent c (some init)
        sibling_next := update s.sibling_next c (s.children init)
        children := update s.children init (some c) }
    have tail : Chain moved.sibling_next (s.sibling_next c) rest := chain.2.update once _
    obtain ⟨parent',children',next',run,went,stayed,heads,joined⟩ := ih tail (by simpa using enough)
    refine ⟨parent',children',next',by rw [chain.1,orphan_loop]; exact run,?_,?_,?_,?_⟩
    · grind
    · grind
    · intro q other
      rw [heads q other]
      simp [moved,other]
    intro heirs there apart
    have pushed := there.push (apart c mem_cons_self)
    grind

/-- The lists after `orphan_children`. -/
def handed_over (s : System) (list : Nat → List Nat) (proc : Nat) : Nat → List Nat :=
  update (update list s.init ((list proc).reverse ++ list s.init)) proc []

theorem Tree.orphaned (tree : Tree s list) (live : s.stage proc = .live) (idle : s.found proc = none) :
    Tree { orphan_children proc s with stage := update s.stage proc .exiting } (handed_over s list proc) ∧
      ∀ c ∈ list proc, (orphan_children proc s).parent c = some s.init := by
  obtain ⟨parent',children',next',run,went,stayed,heads,joined⟩ :=
    orphan_loop_spec s.init (tree.chain proc) (tree.list_length proc)
  have result : orphan_children proc s =
      { s with parent := parent', children := update children' proc none, sibling_next := next' } := by
    simp [orphan_children,find_init,tree.init.1,run]
  have elsewhere : ∀ q, q ≠ proc → ∀ c ∈ list q, c ∉ list proc := fun q other c here there =>
    other (tree.same_list here there)
  have lists : ∀ q, q ≠ proc → handed_over s list proc q = if q = s.init then (list proc).reverse ++ list q else list q := by
    intro q other
    by_cases heir : q = s.init
    · subst heir
      simp [handed_over,other]
    · simp [handed_over,other,heir]
  have kept : ∀ q, q ≠ proc → ∀ c ∈ list q, c ∈ handed_over s list proc q := by
    intro q other c here
    rw [lists q other]
    split <;> simp [here]
  rw [result]
  refine ⟨?_,went⟩
  constructor
  case chain =>
    intro q
    by_cases same : q = proc
    · subst same
      simp [handed_over]
    rw [lists q same]
    simp only [update_of_ne same]
    by_cases heir : q = s.init
    · grind [chain]
    rw [if_neg heir,heads q heir]
    exact (tree.chain q).frame fun c here => (stayed c (elsewhere q same c here)).2
  case child =>
    intro q c here
    by_cases same : q = proc
    · subst same
      simp [handed_over] at here
    rw [lists q same] at here
    by_cases moved : c ∈ list proc
    · have heir : q = s.init := by
        by_contra other
        rw [if_neg other] at here
        exact elsewhere q same c here moved
      exact ⟨(tree.child proc c moved).1,by rw [heir]; exact went c moved⟩
    have old : c ∈ list q := by
      split at here
      · simpa [moved] using here
      · exact here
    obtain ⟨known,up⟩ := tree.child q c old
    exact ⟨known,(stayed c moved).1.trans up⟩
  case listed =>
    intro q c known up
    by_cases moved : c ∈ list proc
    · grind
    have old := up
    simp only [(stayed c moved).1] at old
    grind [listed]
  case empty =>
    intro q gone others
    by_cases same : q = proc
    · simp [handed_over,same]
    rw [lists q same,if_neg others]
    exact tree.empty q (by simpa [same] using gone) others
  case init => exact ⟨tree.init.1,(stayed _ (tree.init_unlisted proc)).1.trans tree.init.2⟩
  case distinct => exact tree.distinct
  case few => exact tree.few
  case fresh =>
    intro q unknown
    have other : q ≠ proc := by
      rintro rfl
      rw [tree.fresh q unknown] at live
      cases live
    simpa [other] using tree.fresh q unknown

/-! ### Runs -/

theorem Tree.step (tree : Tree s list) {l : Label} {next : System} (taken : Careful s l next) :
    ∃ list', Tree next list' := by
  obtain ⟨intact,taken⟩ := taken
  cases taken with
  | fork live _ absent => exact ⟨_,tree.forked live absent intact⟩
  | fork_failed live _ absent => exact ⟨_,tree.fork_failed live absent⟩
  | orphan live idle => exact ⟨_,(tree.orphaned live idle).1⟩
  | @exit proc exiting =>
    refine ⟨list,tree.restage (update_live (by rw [exiting]; nofun) nofun) ?_⟩
    intro q unknown
    have other : q ≠ proc := by
      rintro rfl
      rw [tree.fresh q unknown] at exiting
      cases exiting
    rw [update_of_ne other]
    exact tree.fresh q unknown
  | find => exact ⟨list,tree.refound⟩
  | @reap q c live found =>
    obtain ⟨known,zombie,up⟩ := intact
    have member := (tree.listed q c known up).resolve_right fun gone => gone.2 live
    obtain ⟨removed,taken,after⟩ := tree.detach member (by rw [zombie]; nofun)
    rw [taken]
    exact ⟨_,after.refound⟩
  | @discard removed q c known zombie up taken =>
    have dead : s.stage c ≠ .live := by
      rw [zombie]
      nofun
    have member : c ∈ list q := by
      by_contra outside
      rw [remove_child_from_parent_locked,unlink_child_absent (tree.chain q) outside] at taken
      cases taken
    obtain ⟨_,taken',after⟩ := tree.detach member dead
    obtain rfl := (Prod.mk.inj (taken.symm.trans taken')).1
    exact ⟨_,after⟩

theorem tree_reachable {init : Nat} (reached : Reachable Careful (System.boot init) s) : ∃ list, Tree s list := by
  have kept : ∀ s l t, (∃ list, Tree s list) → Careful s l t → ∃ list, Tree t list := by
    rintro s l t ⟨_,tree⟩ taken
    exact tree.step taken
  exact reached.invariant kept ⟨_,.first init⟩

/-- In every state the lists of children end and are disjoint, hold exactly the
    children of live processes, and are handed to init by an exit. -/
theorem family_tree (init : Nat) (s : System) (reached : Reachable Careful (System.boot init) s) :
    (∃ list : Nat → List Nat,
      (∀ p, Chain s.sibling_next (s.children p) (list p) ∧ (list p).Nodup) ∧
      (∀ p q c, c ∈ list p → c ∈ list q → p = q) ∧
      (∀ p, s.stage p = .live → ∀ c, c ∈ list p ↔ c ∈ s.tasks ∧ s.parent c = some p) ∧
      (∀ c, c ∉ s.tasks → ∀ p, c ∉ list p) ∧
      (∀ p, s.stage p ≠ .live → p ≠ s.init → list p = [] ∧ ∀ c ∈ s.tasks, s.parent c ≠ some p)) ∧
    (∀ proc t, Step s (.orphan proc) t → ∀ c ∈ s.tasks, s.parent c = some proc →
      t.parent c = some s.init ∧
      (proc ≠ s.init → ∃ heirs, Chain t.sibling_next (t.children s.init) heirs ∧ c ∈ heirs)) := by
  obtain ⟨list,tree⟩ := tree_reachable reached
  refine ⟨⟨list,?_,?_,?_,?_,?_⟩,?_⟩
  · exact fun p => ⟨tree.chain p,(tree.chain p).nodup⟩
  · exact fun p q c => tree.same_list
  · intro p live c
    refine ⟨tree.child p c,fun ⟨known,up⟩ => ?_⟩
    exact (tree.listed p c known up).resolve_right fun gone => gone.2 live
  · exact fun c freed p member => freed (tree.child p c member).1
  · intro p dead other
    have none_left := tree.empty p dead other
    refine ⟨none_left,fun c known up => ?_⟩
    rcases tree.listed p c known up with member | ⟨same,_⟩
    · rw [none_left] at member
      cases member
    · exact other same
  intro proc t taken c known up
  cases taken with
  | orphan live idle =>
    have member : c ∈ list proc := (tree.listed proc c known up).resolve_right fun gone => gone.2 live
    obtain ⟨after,moved⟩ := tree.orphaned live idle
    refine ⟨moved c member,fun other => ⟨_,after.chain s.init,?_⟩⟩
    simp [handed_over,Ne.symm other,member]

/-- A grandchild whose parent exits and is reaped goes to init. -/
theorem family_tree_grandchild :
    ∃ s, Reachable Careful (System.boot 1) s ∧ s.parent 3 = some 1 ∧
      ∃ list, Chain s.sibling_next (s.children 1) list ∧ 3 ∈ list ∧ 2 ∉ list := by
  have run : Run Careful (System.boot 1) [.fork 1 2,.fork 2 3,.orphan 2,.exit 2,.find 1 2,.reap 1 2] _ :=
    .next ⟨(by decide : 1 < MAX_TASKS),.fork rfl rfl (by decide)⟩
      (.next ⟨(by decide : 2 < MAX_TASKS),.fork rfl rfl (by decide)⟩
      (.next ⟨trivial,.orphan rfl rfl⟩
      (.next ⟨trivial,.exit rfl⟩
      (.next ⟨trivial,@Step.find _ 1 2 (fun _ => true) rfl rfl rfl⟩
      (.next ⟨⟨by decide,rfl,rfl⟩,.reap rfl rfl⟩ (.done _))))))
  obtain ⟨⟨list,chains,_,exactly,freed,_⟩,_⟩ := family_tree 1 _ ⟨_,run⟩
  exact ⟨_,⟨_,run⟩,rfl,list 1,(chains 1).1,(exactly 1 rfl 3).mpr ⟨by decide,rfl⟩,freed 2 (by decide) 1⟩

/-- While 2 reaps its zombie 3, the scan discards it and 1 gets the address for a child
    of its own: that child is freed, and stays on the list of 1. -/
theorem reap_frees_new_child :
    ∃ s, Reachable Step (System.boot 1) s ∧ s.stage 1 = .live ∧ s.children 1 = some 3 ∧ 3 ∉ s.tasks := by
  have run : Run Step (System.boot 1)
      [.fork 1 2,.fork 2 3,.orphan 3,.exit 3,.find 2 3,.discard 3,.fork 1 3,.reap 2 3] _ :=
    .next (.fork rfl rfl (by decide))
      (.next (.fork rfl rfl (by decide))
      (.next (.orphan rfl rfl)
      (.next (.exit rfl)
      (.next (@Step.find _ 2 3 (fun _ => true) rfl rfl rfl)
      (.next (@Step.discard _ _ 2 3 (by decide) rfl rfl rfl)
      (.next (.fork rfl rfl (by decide))
      (.next (.reap rfl rfl) (.done _))))))))
  exact ⟨_,⟨_,run⟩,rfl,rfl,by decide⟩

end ArmOS.Family

