import ArmOS.Areas
import ArmOS.Moves
import ArmOS.Outcomes

/-!
The lists of areas along a run. Every call but `brk` keeps a list in order; `brk`
does not look at the areas behind the heap, and moves over the second part of a heap
that was cut in two.
-/
namespace ArmOS.AreaRuns
open Words Vma Frames Vm Shm Fork Syscalls Processes Areas Outcomes Runs Moves List
open Physical (PAGE_SIZE)

/-- A space keeps its heap and the order of its list. -/
structure Keeps (s t : Space) : Prop where
  heap_start : t.heap_start = s.heap_start
  heap_end : t.heap_end = s.heap_end
  brk : t.brk = s.brk
  ordered : ∀ bound, Ordered bound s.vma_list → Ordered bound t.vma_list

theorem Keeps.refl (s : Space) : Keeps s s := ⟨rfl,rfl,rfl,fun _ ordered => ordered⟩

variable {s t : Space} {flags : Flags} {p q : Pool} {page count bound : Nat} {done : Bool} {vmas : List Area}

theorem Keeps.trans {r : Space} (first : Keeps s t) (second : Keeps t r) : Keeps s r :=
  ⟨second.heap_start.trans first.heap_start,second.heap_end.trans first.heap_end,second.brk.trans first.brk,
    fun bound ordered => second.ordered bound (first.ordered bound ordered)⟩
theorem SameAreas.keeps (same : SameAreas s t) : Keeps s t :=
  ⟨same.heap_start,same.heap_end,same.brk,fun _ ordered => same.vma_list ▸ ordered⟩
variable {after : List Area}

theorem create_keeps {start size shm_id : Nat} {node : Bool}
    (created : create_vma s.vma_list start size flags shm_id node = some after) : Keeps s { s with vma_list := after } :=
  ⟨rfl,rfl,rfl,fun _ ordered => create_vma_ordered ordered created⟩
theorem trimmed_keeps (trimmed : (∀ vma ∈ s.vma_list, vma.start < vma.stop) → Trimmed s.vma_list after) :
    Keeps s { s with vma_list := after } :=
  ⟨rfl,rfl,rfl,fun _ ordered => (trimmed ordered.nonempty).ordered ordered⟩
theorem remove_keeps (s : Space) (start stop : Nat) : Keeps s { s with vma_list := remove_vma s.vma_list start stop } :=
  trimmed_keeps (fun nonempty => remove_vma_trimmed nonempty start stop)

variable {r : Space}

open SameAreas (keeps)

theorem mapped_keeps {start size shm_id : Nat} {node : Bool}
    (created : create_vma s.vma_list start size flags shm_id node = some after)
    (same : SameAreas { s with vma_list := after } t) : Keeps s t := (create_keeps created).trans (keeps same)

theorem undone_keeps (mapped : Keeps s t) (same : SameAreas t r) (start stop : Nat) :
    Keeps s { r with vma_list := remove_vma r.vma_list start stop } :=
  (mapped.trans (keeps same)).trans (remove_keeps r start stop)

/-! ### Unmapping -/

theorem unmap_cut_areas (k : Kernel) (s : Space) (vma : Area) (cut_start cut_end : Nat) :
    SameAreas s (unmap_cut k s vma cut_start cut_end).2 := unmap_pages_areas ..

theorem cut_areas_trimmed {start stop : Nat} (nonempty_range : start < stop) (k : Kernel) (s : Space) (vmas : List Area)
    (nonempty : ∀ vma ∈ vmas, vma.start < vma.stop) : Trimmed vmas (cut_areas start stop k s vmas).2.2.1 := by
  induction vmas generalizing k s with
  | nil => exact .nil
  | cons vma rest ih =>
    obtain ⟨here,later⟩ := forall_mem_cons.mp nonempty
    unfold cut_areas
    dsimp only
    split
    · exact .keep here (ih _ _ later)
    split
    · exact .refl nonempty
    split
    · exact .keep here (ih _ _ later)
    rename_i cut
    split
    · rename_i inner
      split
      · exact .refl nonempty
      have two : Pieces vma [{ vma with stop := max start vma.start },{ vma with start := min stop vma.stop }] := by
        refine ⟨?_,by simpa using by omega⟩
        simp only [mem_cons,not_mem_nil,or_false]
        rintro piece (rfl | rfl)
        · exact ⟨le_rfl,inner.1,by dsimp only; omega⟩
        · exact ⟨by dsimp only; omega,inner.2,le_rfl⟩
      exact .cons two (ih _ _ later)
    split
    · exact .cons (.none vma) (ih _ _ later)
    rename_i not_inner not_whole
    split
    · rename_i front
      exact .cons (.one (by dsimp only; omega) (by dsimp only; omega) le_rfl) (ih _ _ later)
    · exact .cons (.one le_rfl (by dsimp only; omega) (by dsimp only; omega)) (ih _ _ later)

theorem cut_areas_areas (start stop : Nat) (k : Kernel) (s : Space) (vmas : List Area) :
    SameAreas s (cut_areas start stop k s vmas).2.1 := by
  induction vmas generalizing k s with
  | nil => exact .refl _
  | cons vma rest ih =>
    unfold cut_areas
    dsimp only
    split
    · exact ih _ _
    split
    · exact .refl _
    split
    · exact ih _ _
    split
    · split
      · exact .refl _
      · exact (unmap_cut_areas _ s vma _ _).trans (ih _ _)
    have unmapped := unmap_cut_areas k s vma (max start vma.start) (min stop vma.stop)
    split
    · exact unmapped.trans (ih _ _)
    split
    · exact unmapped.trans (ih _ _)
    · exact unmapped.trans (ih _ _)

theorem vm_unmap_range_keeps (k : Kernel) (s : Space) (start size : Nat) :
    Keeps s (vm_unmap_range k s start size).2.1 := by
  unfold vm_unmap_range
  dsimp only
  split
  · exact .refl _
  split
  · exact .refl _
  split
  · exact .refl _
  generalize ending : wrap (start + align_up size PAGE_SIZE) = stop at *
  have nonempty : start < stop := by omega
  have same := cut_areas_areas start stop k s s.vma_list
  have trimmed := cut_areas_trimmed nonempty k s s.vma_list
  generalize cut_areas start stop k s s.vma_list = cut at *
  exact (keeps same).trans (trimmed_keeps (same.vma_list ▸ trimmed))

theorem sys_munmap_keeps (k : Kernel) (s : Space) (addr length : Nat) : Keeps s (sys_munmap k s addr length).2.1 := by
  unfold sys_munmap
  dsimp only
  split
  · exact .refl _
  split
  · exact .refl _
  · exact vm_unmap_range_keeps ..

theorem sys_shm_unmap_keeps (k : Kernel) (s : Space) (addr size : Nat) : Keeps s (sys_shm_unmap k s addr size).2.1 := by
  unfold sys_shm_unmap
  dsimp only
  split
  · exact .refl _
  split
  · exact .refl _
  split
  · exact .refl _
  split
  · exact .refl _
  split
  · exact .refl _
  · exact undone_keeps (.refl s) (unmap_pages_same rfl) _ _

/-! ### Mapping -/

variable {frames : List Nat} {shared : Bool}

theorem map_object_pages_same {mapped : Nat} {vaddr : Nat} {outcome : Mapped}
    (result : map_object_pages shared flags mapped p s vaddr frames = (q,t,outcome)) : SameAreas s t := by
  induction frames generalizing mapped p s vaddr with
  | nil =>
    cases result
    exact .refl _
  | cons frame rest ih =>
    unfold map_object_pages at result
    split at result
    · cases result
      exact .refl _
    split at result
    · cases result
      exact .refl _
    rename_i mapped
    exact (map_user_page_areas mapped).trans (ih result)

theorem undo_object_pages_same {known : List (Option Nat)}
    (result : undo_object_pages p s page known = (q,t)) : SameAreas s t := by
  induction known generalizing p s page with
  | nil =>
    cases result
    exact .refl _
  | cons frame rest ih => exact (unmap_getD_areas s page).trans (ih result)

theorem map_device_pages_same {vaddr stopped : Nat}
    (result : map_device_pages flags p s vaddr frames = (q,t,stopped,done)) : SameAreas s t := by
  induction frames generalizing p s vaddr with
  | nil =>
    cases result
    exact .refl _
  | cons frame rest ih =>
    unfold map_device_pages at result
    split at result
    · cases result
      exact .refl _
    rename_i mapped
    exact (map_user_page_areas mapped).trans (ih result)

section
variable (k : Kernel)
include k

theorem map_object_keeps (s : Space) (i vaddr mapping_size : Nat) (flags : Flags) :
    Keeps s (map_object k s i vaddr mapping_size flags).2.1 := by
  unfold map_object
  dsimp only
  split
  · exact .refl _
  rename_i vmas created
  rcases result : map_object_pages flags.shared flags 0 (drawn k.pool) { s with vma_list := vmas } vaddr
      ((k.shm_objects i).phys.take (mapping_size / PAGE_SIZE)) with ⟨p,t,outcome⟩
  have mapped := mapped_keeps created (map_object_pages_same result)
  cases outcome with
  | done => exact mapped
  | no_frame n | no_table n => exact undone_keeps mapped (undo_object_pages_same rfl) _ _

theorem shm_map_fd_keeps (s : Space) (file : Option File) (addr size : Nat) (flags : Flags) :
    Keeps s (shm_map_fd k s file addr size flags).2.1 :=
  shm_map_fd_cases (P := fun r => Keeps s r.2.1) (fun _ => .refl _)
    (fun _ i vaddr mapping_size _ _ _ _ _ _ _ => map_object_keeps k s i vaddr mapping_size flags)

theorem sys_shm_map_keeps (s : Space) (file : Option File) (addr flags : Nat) :
    Keeps s (sys_shm_map k s file addr flags).2.1 := by
  unfold sys_shm_map
  split
  · exact .refl _
  · exact shm_map_fd_keeps ..

theorem framebuffer_map_fd_keeps (s : Space) (physical mapping_size addr length : Nat) (flags : Flags) :
    Keeps s (framebuffer_map_fd k s physical mapping_size addr length flags).2.1 := by
  unfold framebuffer_map_fd
  dsimp only
  split
  · exact .refl _
  split
  · exact .refl _
  split
  · exact .refl _
  generalize (if addr ≠ 0 then addr
    else vm_find_free_range s.vma_list 0 mapping_size USER_MMAP_START USER_MMAP_END) = vaddr
  split
  · exact .refl _
  split
  · exact .refl _
  rename_i vmas created
  split
  all_goals
    rename_i result
    have mapped := mapped_keeps created (map_device_pages_same result)
  · exact mapped
  · exact undone_keeps mapped (unmap_pages_same rfl) _ _

theorem armos_drm_map_fd_keeps (s : Space) (buffers : List Buffer) (hint length : Nat) (flags : Flags)
    (offset : Nat) : Keeps s (armos_drm_map_fd k s buffers hint length flags offset).2.1 := by
  unfold armos_drm_map_fd
  dsimp only
  split
  · exact .refl _
  split
  · exact .refl _
  split
  · exact .refl _
  split
  · exact .refl _
  split
  · exact .refl _
  split
  · exact .refl _
  rename_i vmas created
  split
  all_goals
    rename_i result
    have mapped := mapped_keeps created (map_device_pages_same result)
  · exact mapped
  · exact mapped.trans (vm_unmap_range_keeps (withPool k _) _ _ _)

theorem mmap_private_keeps (s : Space) (hint length : Nat) (flags : Flags) (is_anon : Bool)
    (file : Option File) : Keeps s (mmap_private k s hint length flags is_anon file).2.1 := by
  unfold mmap_private
  dsimp only
  split
  · exact .refl _
  split
  · exact .refl _
  rename_i vmas created
  split
  · exact create_keeps created
  split
  all_goals
    rename_i p t stopped result
    have mapped := mapped_keeps created (map_new_pages_same result)
    have undone := fun q => mapped.trans (vm_unmap_range_keeps (withPool k q) t
      (vm_find_free_range s.vma_list hint (align_up length PAGE_SIZE) USER_MMAP_START USER_MMAP_END)
      (align_up length PAGE_SIZE))
  · exact undone p
  split
  · exact mapped
  split
  · split
    · exact undone p
    split
    · exact undone _
    · exact mapped
  · exact undone p

theorem sys_mmap_keeps (s : Space) (addr length prot flags : Nat) (fd : Int) (file : Option File)
    (offset : Nat) : Keeps s (sys_mmap k s addr length prot flags fd file offset).2.1 := by
  unfold sys_mmap
  split
  · exact .refl _
  split
  · exact .refl _
  split
  · exact .refl _
  split
  · exact .refl _
  split
  · exact .refl _
  split
  · exact .refl _
  split
  · exact .refl _
  split
  · unfold mmap_shared
    split
    · exact .refl _
    split
    · exact armos_drm_map_fd_keeps ..
    split
    · exact .refl _
    split
    · exact framebuffer_map_fd_keeps ..
    · exact shm_map_fd_keeps ..
  split
  · exact .refl _
  split
  · exact shm_map_fd_keeps ..
  · exact mmap_private_keeps ..

end

theorem map_signal_stack_keeps (base size : Nat) (p : Pool) (s : Space) :
    Keeps s (map_signal_stack base size p s).2 := by
  unfold map_signal_stack
  split
  · exact .refl _
  rename_i vmas created
  split
  all_goals
    rename_i result
    have mapped := mapped_keeps created (map_new_pages_same result)
  · exact mapped
  · exact undone_keeps mapped (unmap_pages_same rfl) _ _

/-! ### Fork and `execve` -/

theorem set_readonly_areas {condition : Bool}
    (changed : (if condition then set_user_page_readonly s page else some s) = some t) : SameAreas s t := by
  cases condition with
  | true => exact protect_areas (by simpa [set_user_page_readonly] using changed)
  | false =>
    cases (by simpa using changed : s = t)
    exact .refl _

theorem set_writable_areas (s : Space) (page : Nat) : SameAreas s ((set_user_page_writable s page).getD s) := by
  cases changed : set_user_page_writable s page with
  | none => exact .refl _
  | some t => exact protect_areas changed

theorem clone_page_areas (p : Pool) (parent child : Space) (vma : Area) (page : Nat) :
    SameAreas parent (vm_clone_resident_page p parent child vma page).2.1 ∧
      SameAreas child (vm_clone_resident_page p parent child vma page).2.2.1 := by
  unfold vm_clone_resident_page
  dsimp only
  split
  · exact ⟨.refl _,.refl _⟩
  split
  · exact ⟨.refl _,.refl _⟩
  split
  · exact ⟨.refl _,.refl _⟩
  rename_i parent' protected_parent
  have same := set_readonly_areas protected_parent
  split
  · rename_i mapped
    refine ⟨same,?_⟩
    split at mapped
    · exact map_user_page_areas mapped
    · exact map_user_page_areas (by simpa [map_user_page_readonly] using mapped)
  split
  · exact ⟨same.trans (set_writable_areas ..),.refl _⟩
  · exact ⟨same,.refl _⟩

theorem clone_pages_areas (vma : Area) (p : Pool) (parent child : Space) (page count : Nat) :
    SameAreas parent (clone_pages vma p parent child page count).2.1 ∧
      SameAreas child (clone_pages vma p parent child page count).2.2.1 := by
  induction count generalizing p parent child page with
  | zero => exact ⟨.refl _,.refl _⟩
  | succ count ih =>
    have cloned := clone_page_areas p parent child vma page
    unfold clone_pages
    split
    · rename_i result
      rwa [result] at cloned
    rename_i p' parent' child' result
    rw [result] at cloned
    exact ⟨cloned.1.trans (ih p' parent' child' _).1,cloned.2.trans (ih p' parent' child' _).2⟩

theorem clone_pages_same {vma : Area} {parent child parent' child' : Space}
    (result : clone_pages vma p parent child page count = (q,parent',child',done)) :
    SameAreas parent parent' ∧ SameAreas child child' := by
  have same := clone_pages_areas vma p parent child page count
  rwa [result] at same

theorem clone_areas_areas (k : Kernel) (parent child : Space) (vmas : List Area) :
    SameAreas parent (clone_areas k parent child vmas).2.1 ∧
      Keeps child (clone_areas k parent child vmas).2.2.1 := by
  induction vmas generalizing k parent child with
  | nil => exact ⟨.refl _,.refl _⟩
  | cons source rest ih =>
    unfold clone_areas
    dsimp only
    split
    · exact ih _ _ _
    split
    · exact ⟨.refl _,.refl _⟩
    rename_i vmas created
    split
    · rename_i result
      have here := clone_pages_same result
      exact ⟨here.1,(create_keeps created).trans (keeps here.2)⟩
    rename_i p' parent' child' result
    have here := clone_pages_same result
    have inserted := (create_keeps created).trans (keeps here.2)
    exact ⟨here.1.trans (ih _ _ _).1,inserted.trans (ih _ _ _).2⟩

/-- A fork keeps the parent's areas and builds the child's by insertion. -/
theorem fork_vm_space_areas (k : Kernel) (parent : Space) :
    SameAreas parent (fork_vm_space k parent).2.1 ∧
      ∀ child, (fork_vm_space k parent).2.2 = some child →
        Ordered 0 child.vma_list ∧ child.heap_start = parent.heap_start ∧ child.heap_end = parent.heap_end ∧
          child.brk = parent.brk := by
  unfold fork_vm_space
  dsimp only
  split
  · exact ⟨.refl _,by simp⟩
  have cloned := clone_areas_areas { k with pool := drawn k.pool } parent Space.initial parent.vma_list
  split
  · rename_i result
    rw [result] at cloned
    exact ⟨cloned.1,by simp⟩
  rename_i k' parent' child' result
  rw [result] at cloned
  refine ⟨cloned.1,?_⟩
  rintro child same
  cases same
  exact ⟨cloned.2.ordered 0 (.nil 0),cloned.1.heap_start,cloned.1.heap_end,cloned.1.brk⟩

/-- The break of a space stays in the fixed range of the heap. -/
structure Layout (s : Space) : Prop where
  heap_start : s.heap_start = USER_HEAP_START
  heap_end : s.heap_end = USER_HEAP_END
  brk : s.heap_start ≤ s.brk
theorem SameAreas.layout (same : SameAreas s t) (layout : Layout s) : Layout t :=
  ⟨same.heap_start.trans layout.heap_start,same.heap_end.trans layout.heap_end,
    by rw [same.heap_start,same.brk]; exact layout.brk⟩
def Good (bound : Nat) (s : Space) : Prop := Layout s ∧ Ordered bound s.vma_list
theorem Good.same (good : Good bound s) (same : SameAreas s t) : Good bound t :=
  ⟨SameAreas.layout same good.1,same.vma_list ▸ good.2⟩
theorem Good.areas (good : Good bound s) (ordered : Ordered bound vmas) : Good bound { s with vma_list := vmas } :=
  ⟨⟨good.1.heap_start,good.1.heap_end,good.1.brk⟩,ordered⟩

theorem exec_map_segment_good (segment : Segment) (good : Good bound s) :
    Good bound (exec_map_segment p s segment).2.1 := by
  unfold exec_map_segment
  dsimp only
  split
  · exact good
  rename_i vmas created
  have inserted := good.areas (create_vma_ordered good.2 created)
  exact inserted.same (map_new_pages_areas ..)

theorem exec_load_image_good (segments : List Segment) (good : Good bound s) :
    Good bound (exec_load_image p s segments).2.1 := by
  induction segments generalizing p s with
  | nil => exact good
  | cons segment rest ih =>
    have mapped := exec_map_segment_good (p := p) segment good
    unfold exec_load_image
    split
    · exact good
    split
    · rename_i result
      rwa [result] at mapped
    rename_i result
    rw [result] at mapped
    exact ih mapped

theorem setup_user_stack_good (pages : Nat) (data : Nat → Buddy.Content)
    (good : Good bound s) : Good bound (setup_user_stack p s pages data).2.1 := by
  unfold setup_user_stack
  split
  · exact good
  rename_i vmas created
  have inserted := good.areas (create_vma_ordered good.2 created)
  split
  · exact inserted
  · exact inserted.same (map_new_pages_areas ..)

theorem exec_space_good {k k' : Kernel} {program : Program} (built : exec_space k program = (k',some s)) :
    Good 0 s := by
  have initial : Good 0 Space.initial := ⟨⟨rfl,rfl,le_rfl⟩,.nil 0⟩
  unfold exec_space at built
  dsimp only at built
  split at built
  · cases built
  have stacked := setup_user_stack_good (p := drawn k.pool) program.stack_pages program.stack initial
  split at built
  · cases built
  rename_i result
  rw [result] at stacked
  split at built
  · cases built
  rename_i p t _ _ _ loaded
  have image := exec_load_image_good (p := p) program.segments stacked
  rw [loaded] at image
  cases built
  exact image

/-! ### `brk` and `mprotect` -/

def MovesHeap (s : Space) (addr : Nat) : Prop :=
  addr ≠ 0 ∧ s.heap_start ≤ addr ∧ align_up addr PAGE_SIZE ≤ s.heap_end ∧ align_up addr PAGE_SIZE ≠ s.brk ∧
    (find_heap_vma s.vma_list s.heap_start).isSome = true

/-- No area behind the heap's start starts below the new break. -/
def HeapClear (s : Space) (addr : Nat) : Prop :=
  MovesHeap s addr → ∀ vma ∈ s.vma_list, s.heap_start < vma.start → align_up addr PAGE_SIZE ≤ vma.start

theorem shrink_heap_same (result : shrink_heap p s page count = (q,t,done)) : SameAreas s t := by
  induction count generalizing p s page with
  | zero =>
    cases result
    exact .refl _
  | succ count ih =>
    unfold shrink_heap at result
    dsimp only at result
    split at result
    · exact ih result
    split at result
    · cases result
      exact .refl _
    rename_i r unmapped
    obtain ⟨m,_,rfl⟩ := unmap_some unmapped
    refine .trans ?_ (ih result)
    rfl

theorem Layout.bounds (layout : Layout s) {addr : Nat} (above : s.heap_start ≤ addr)
    (below : addr ≤ s.heap_end) : s.heap_start ≤ align_up addr PAGE_SIZE ∧ s.heap_end ≤ USER_SPACE_END := by
  obtain ⟨start,stop,_⟩ := layout
  have fits : addr + PAGE_SIZE - 1 < wordCount := by
    have small : USER_HEAP_END + PAGE_SIZE - 1 < wordCount := by decide
    omega
  refine ⟨above.trans (le_align_up addr (by decide) fits),?_⟩
  rw [stop]
  decide

theorem moved_heap_good {new_brk : Nat} (layout : Layout s) (same : SameAreas s t) (above : s.heap_start ≤ new_brk)
    (ordered : Ordered bound vmas) : Good bound { t with vma_list := vmas, brk := new_brk } :=
  ⟨⟨same.heap_start.trans layout.heap_start,same.heap_end.trans layout.heap_end,same.heap_start ▸ above⟩,ordered⟩

theorem sys_brk_good (k : Kernel) (addr : Nat) (good : Good bound s)
    (clear : USER_HEAP_END ≤ bound ∨ bound = 0 ∧ HeapClear s addr) : Good bound (sys_brk k s addr).2.1 := by
  obtain ⟨layout,ordered⟩ := good
  have good : Good bound s := ⟨layout,ordered⟩
  have positive : 0 < s.heap_start := by rw [layout.heap_start]; decide
  have moved : ∀ new_brk, new_brk = align_up addr PAGE_SIZE → s.heap_start ≤ addr → addr ≤ s.heap_end →
      new_brk ≤ s.heap_end → new_brk ≠ s.brk → new_brk ≠ s.heap_start →
      (find_heap_vma s.vma_list s.heap_start).isSome = true →
      Ordered bound (set_heap_end s.vma_list s.heap_start new_brk) := by
    rintro new_brk rfl above below inside moves some_heap exists_heap
    obtain ⟨low,user⟩ := layout.bounds above below
    refine set_heap_end_ordered ordered (by omega) (by omega) ?_
    rcases clear with covered | ⟨zero,clear⟩
    · exact .inl (inside.trans (layout.heap_end ▸ covered))
    · exact .inr ⟨zero,clear ⟨by omega,above,inside,moves,exists_heap⟩⟩
  have bounds : s.heap_start ≤ addr → addr ≤ s.heap_end → s.heap_start ≤ align_up addr PAGE_SIZE :=
    fun above below => (layout.bounds above below).1
  unfold sys_brk
  dsimp only
  split
  · exact good
  split
  · exact good
  rename_i inside
  have above : s.heap_start ≤ addr := by omega
  have below : addr ≤ s.heap_end := by omega
  have low := bounds above below
  split
  · exact good
  rename_i fits
  have moved := moved _ rfl above below (not_lt.mp fits)
  generalize align_up addr PAGE_SIZE = new_brk at *
  split
  · unfold brk_down
    split
    · exact good
    rename_i found
    split
    all_goals
      rename_i result
      have same := shrink_heap_same result
    · exact good.same same
    refine moved_heap_good layout same low ?_
    rw [same.vma_list,same.heap_start]
    split
    · exact (remove_keeps s _ _).ordered bound ordered
    · exact moved (by omega) ‹_› (by rw [found]; rfl)
  split
  · have low : s.heap_start < new_brk := layout.brk.trans_lt ‹_›
    unfold brk_up
    split
    all_goals
      rename_i result
      have same := map_new_pages_same result
    · exact good.same (same.trans (unmap_pages_same rfl))
    split
    · rename_i found
      refine moved_heap_good layout same low.le ?_
      rw [same.vma_list]
      exact moved (by omega) (by omega) (by rw [found]; rfl)
    split
    · rename_i created
      exact moved_heap_good layout same low.le (create_vma_ordered (same.vma_list ▸ ordered) created)
    · exact good.same (same.trans (unmap_pages_same rfl))
  · exact good

/-! ### Protection -/

theorem set_vma_flags_trimmed (nonempty : ∀ vma ∈ vmas, vma.start < vma.stop) (flags : Flags)
    (address : Nat) : Trimmed vmas (set_vma_flags flags address vmas) := by
  induction vmas with
  | nil => exact .nil
  | cons vma rest ih =>
    obtain ⟨here,later⟩ := forall_mem_cons.mp nonempty
    unfold set_vma_flags
    split
    · have pieces : Pieces vma [{ vma with flags := flags }] := .one le_rfl here le_rfl
      exact .cons pieces (.refl later)
    · exact .keep here (ih later)

theorem protect_pages_same {writable : Bool} (result : protect_pages writable s page count = (t,done)) :
    SameAreas s t := by
  induction count generalizing s page with
  | zero =>
    cases result
    exact .refl _
  | succ count ih =>
    unfold protect_pages at result
    split at result
    · exact ih result
    split at result
    · cases result
      exact .refl _
    rename_i r changed
    refine .trans ?_ (ih result)
    cases writable with
    | true => exact protect_areas (by simpa [set_user_page_writable] using changed)
    | false => exact protect_areas (by simpa [set_user_page_readonly] using changed)

theorem sys_mprotect_keeps (s : Space) (addr length prot : Nat) : Keeps s (sys_mprotect s addr length prot).1 := by
  unfold sys_mprotect
  dsimp only
  split
  · exact .refl s
  split
  · exact .refl s
  split
  · exact .refl s
  split
  · exact .refl s
  split
  · exact .refl s
  split
  · rename_i result
    exact keeps (protect_pages_same result)
  rename_i result
  exact (keeps (protect_pages_same result)).trans
    (trimmed_keeps (fun nonempty => set_vma_flags_trimmed nonempty _ _))

theorem user_read_same (p : Pool) (s : Space) (address : Nat) : SameAreas s (user_read p s address).2 := by
  unfold user_read
  split
  · exact .refl s
  split
  · exact .refl s
  rename_i resolved
  exact translation_fault_areas resolved

/-! ### Runs -/

theorem Good.keeps (good : Good bound s) (keeps : Keeps s t) : Good bound t := by
  refine ⟨⟨keeps.heap_start.trans good.1.heap_start,keeps.heap_end.trans good.1.heap_end,?_⟩,
    keeps.ordered bound good.2⟩
  rw [keeps.heap_start,keeps.brk]
  exact good.1.brk

theorem Good.mono {low high : Nat} (le : low ≤ high) (good : Good low s) : Good high s :=
  ⟨good.1,good.2.mono le⟩

theorem fork_vm_space_good {k : Kernel} (good : Good bound s) :
    Good bound (fork_vm_space k s).2.1 ∧ ∀ child ∈ (fork_vm_space k s).2.2, Good bound child := by
  obtain ⟨same,children⟩ := fork_vm_space_areas k s
  refine ⟨good.same same,?_⟩
  intro child forked
  obtain ⟨ordered,heap_start,heap_end,brk⟩ := children child forked
  refine ⟨⟨heap_start.trans good.1.heap_start,heap_end.trans good.1.heap_end,?_⟩,ordered.mono (Nat.zero_le bound)⟩
  rw [heap_start,brk]
  exact good.1.brk

/-- `brk`, if it is called, finds nothing in its way. -/
def HeapStaysClear (sys : System) (move : Move) : Prop :=
  ∀ pid addr proc, move.1 = .op pid (.brk addr) → sys.process pid = some proc → HeapClear proc.vm addr

theorem run_op_good {sys : System} {pid : Nat} {proc : Process} {op : Op}
    (found : sys.process pid = some proc) (all : Spaces (Good bound) sys)
    (clear : USER_HEAP_END ≤ bound ∨ bound = 0 ∧ ∀ addr, op = .brk addr → HeapClear proc.vm addr) :
    Spaces (Good bound) (run_op sys proc op) := by
  have good := all proc (process_mem found)
  cases op with
  | fork => exact all.sys_fork proc (fork_vm_space_good good)
  | exit => exact all.sys_exit proc
  | execve program =>
    exact all.sys_execve proc program (fun k' s built => (exec_space_good built).mono (Nat.zero_le bound))
  | signal_stack => exact all.update _ _ (good.keeps (map_signal_stack_keeps ..))
  | user_write address byte => exact all.update _ _ (good.same (user_write_areas ..))
  | user_read address => exact all.update _ _ (good.same (user_read_same ..))
  | copy_to_user address bytes => exact all.update _ _ (good.same (copy_to_user_areas ..))
  | mmap addr length prot flags fd offset => exact all.update _ _ (good.keeps (sys_mmap_keeps ..))
  | munmap addr length => exact all.update _ _ (good.keeps (sys_munmap_keeps ..))
  | mprotect addr length prot => exact all.update _ _ (good.keeps (sys_mprotect_keeps ..))
  | brk addr => exact all.update _ _ (sys_brk_good _ addr good (clear.imp_right (fun clear => ⟨clear.1,clear.2 addr rfl⟩)))
  | shm_open name size flags => exact all.sys_shm_open good name size flags
  | shm_unlink name | ftruncate fd length => exact all
  | shm_map fd addr flags => exact all.update _ _ (good.keeps (sys_shm_map_keeps ..))
  | shm_unmap addr size => exact all.update _ _ (good.keeps (sys_shm_unmap_keeps ..))
  | close fd => exact all.close_fds _ _ _
  | dup fd => exact all.sys_dup good fd

/-- Every step keeps the order above the heap, and any order with free room. -/
theorem step_good {sys next : System} {move : Move} (all : Spaces (Good bound) sys)
    (clear : USER_HEAP_END ≤ bound ∨ bound = 0 ∧ HeapStaysClear sys move) (taken : Step sys move next) :
    Spaces (Good bound) next := by
  obtain ⟨label,fate⟩ := move
  subst taken
  have fated : Spaces (Good bound)
      { sys with kernel := { sys.kernel with pool := { sys.kernel.pool with fate := fate } } } := all
  unfold step
  dsimp only
  cases label with
  | spawn program limit =>
    exact fated.spawn program limit (fun k' s built => (exec_space_good built).mono (Nat.zero_le bound))
  | open_file pid file =>
    dsimp only
    split
    · exact fated
    · rename_i proc found
      exact fated.open_file (fated proc (process_mem found)) file
  | op pid op =>
    dsimp only
    split
    · exact fated
    rename_i proc found
    refine run_op_good found fated (clear.imp_right (fun clear => ⟨clear.1,?_⟩))
    rintro addr rfl
    exact clear.2 pid addr proc rfl found

/-- A step in which the heap moves into free room only. -/
def ClearStep (sys : System) (move : Move) (next : System) : Prop := HeapStaysClear sys move ∧ Step sys move next

/-- Where no `brk` moves over another area, the lists stay sorted and disjoint. -/
theorem areas_stay_sorted {image : Image} {device : Nat → Bool} {content : Nat → Buddy.Content} {moves : List Move}
    {sys : System} (run : Run ClearStep (boot image device content) moves sys) :
    ∀ proc ∈ sys.processes, Sorted proc.vm.vma_list := by
  have kept : ∀ s move t, Spaces (Good 0) s → ClearStep s move t → Spaces (Good 0) t := by
    rintro s move t all ⟨clear,taken⟩
    exact step_good all (.inr ⟨rfl,clear⟩) taken
  have none_at_boot : Spaces (Good 0) (boot image device content) := by
    intro proc member
    cases member
  intro proc member
  exact (run.invariant kept none_at_boot proc member).2.sorted

def sample_heap : Move :=
  (.op 0 (.brk (USER_HEAP_START + 4 * PAGE_SIZE)),[0x50002000,1,0x50003000,1,0x50004000,1,0x50005000,1,1])

theorem areas_stay_sorted_sample :
    Spaces (fun vm => Sorted vm.vma_list) (run_moves sample_boot [sample_spawn,sample_heap]) := by
  have first : HeapStaysClear sample_boot sample_spawn := by rintro pid addr proc ⟨⟩
  have second : HeapStaysClear (step sample_boot sample_spawn.1 sample_spawn.2) sample_heap := by
    rintro pid addr proc ⟨⟩ found ⟨_,_,_,_,heap⟩
    -- the new process has no heap area yet
    have absent : ((step sample_boot sample_spawn.1 sample_spawn.2).process 0).map
        (fun proc => (find_heap_vma proc.vm.vma_list proc.vm.heap_start).isSome) = some false := by decide
    rw [found] at absent
    cases heap.symm.trans (Option.some.inj absent)
  have run : Run ClearStep sample_boot [sample_spawn,sample_heap] (run_moves sample_boot [sample_spawn,sample_heap]) :=
    .next ⟨first,rfl⟩ (.next ⟨second,rfl⟩ (.done _))
  exact areas_stay_sorted run

/-- The heap's second page is unmapped, and the break moves over the rest. -/
def sample_overlap : List Move :=
  [sample_spawn,sample_heap,(.op 0 (.munmap (USER_HEAP_START + PAGE_SIZE) PAGE_SIZE),[1]),
    (.op 0 (.brk (USER_HEAP_START + 5 * PAGE_SIZE)),[0x50006000,1])]

theorem heap_grows_over_area :
    ∃ moves sys, Run Step sample_boot moves sys ∧ ∃ proc ∈ sys.processes, ¬ Sorted proc.vm.vma_list := by
  refine ⟨sample_overlap,run_moves sample_boot sample_overlap,run_moves_run _ _,?_⟩
  have areas : (run_moves sample_boot sample_overlap).processes.map (fun proc => proc.vm.vma_list) =
      [[⟨0x100000000,0x100001000,⟨true,false,true,false,false,false,false,false⟩,0⟩,
        ⟨USER_HEAP_START,USER_HEAP_START + 5 * PAGE_SIZE,Flags.read_write,0⟩,
        ⟨USER_HEAP_START + 2 * PAGE_SIZE,USER_HEAP_START + 4 * PAGE_SIZE,Flags.read_write,0⟩,
        ⟨USER_STACK_BOTTOM + PAGE_SIZE,USER_STACK_TOP,Flags.read_write,0⟩]] := by decide
  obtain ⟨proc,member,areas⟩ := List.mem_map.mp (areas ▸ mem_singleton_self _)
  refine ⟨proc,member,fun sorted => ?_⟩
  have disjoint := sorted.disjoint
  rw [areas] at disjoint
  have heap := (pairwise_cons.mp (pairwise_cons.mp disjoint).2).1
  exact heap _ (mem_cons_self ..) (USER_HEAP_START + 2 * PAGE_SIZE) (by decide)

/-- In every run areas are not empty, end in user space and are apart above the heap. -/
theorem areas_apart_above_heap {image : Image} {device : Nat → Bool} {content : Nat → Buddy.Content} {sys : System}
    (reached : Reachable Step (boot image device content) sys) :
    Spaces (fun vm => Layout vm ∧ Ordered USER_HEAP_END vm.vma_list) sys := by
  have none_at_boot : Spaces (Good USER_HEAP_END) (boot image device content) := by rintro proc ⟨⟩
  exact reached.invariant (fun _ _ _ all taken => step_good all (.inl le_rfl) taken) none_at_boot

theorem areas_apart_above_heap_sample : Spaces Layout (run_moves sample_boot sample_overlap) :=
  fun proc member => (areas_apart_above_heap ⟨_,run_moves_run sample_boot sample_overlap⟩ proc member).1

end ArmOS.AreaRuns
