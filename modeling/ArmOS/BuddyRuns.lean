import ArmOS.Buddy

/-!
Runs of the page allocator from the state `init_memory` leaves: the used pages
are the live blocks, and no page is lost from the count.
-/
namespace ArmOS.Buddy
open Words Spans Runs Nat
open Kmalloc (Heap bootHeap)
open Physical (PAGE_SIZE Platform Memory init_memory samplePlatform samplePlatform_accepted sizeof_page_info)

structure State where
  arena : Arena
  live : List Span

inductive Op
  | buddy_alloc (num_block : Nat)
  | page_ref_inc (page_addr : Nat)
  | page_ref_dec (page_addr : Nat)
  | free_page (page_addr : Nat)
  | buddy_free (ptr : Nat)
deriving DecidableEq, Repr

def stillHeld (b : Arena) (live : List Span) : List Span := live.filter (fun k => (b.infos k.first).used)

def step (s : State) : Op → State
  | .buddy_alloc n =>
    match buddy_alloc s.arena n with
    | none => s
    | some (b,addr) => ⟨b,⟨(addr - b.buddy_base) / PAGE_SIZE,n⟩ :: s.live⟩
  | .page_ref_inc addr => ⟨(page_ref_inc s.arena addr).1,s.live⟩
  | .page_ref_dec addr => ⟨(page_ref_dec s.arena addr).1,s.live⟩
  | .free_page addr => ⟨free_page s.arena addr,stillHeld (free_page s.arena addr) s.live⟩
  | .buddy_free addr => ⟨buddy_free s.arena addr,stillHeld (buddy_free s.arena addr) s.live⟩

/-- Every page of the arena has a record that can be reached. -/
def Recorded (b : Arena) : Prop :=
  b.buddy_base ≤ b.ram_end ∧ (b.ram_end - b.buddy_base + PAGE_SIZE - 1) / PAGE_SIZE ≤ b.phys_alloc.free_pages ∧
    page_info_array b = true

theorem start_sound {p : Platform} {h : Heap} {m : Memory} (accepted : init_memory p h = some m)
    {mmu_enabled : Bool} {direct_map_size : Nat} {stale : Nat → PageInfo} {content : Nat → Content}
    (recorded : Recorded (start p m mmu_enabled direct_map_size stale content)) :
    Sound (start p m mmu_enabled direct_map_size stale content) [] m.phys_alloc.free_pages := by
  obtain ⟨placed,allocator,records,base⟩ := Physical.init_memory_eq accepted
  obtain ⟨_,free,total,_,_⟩ := Physical.reserved_fields p
  have few := placed.managedEnd_bounds.2.2
  obtain ⟨below,covers,reached⟩ := recorded
  have nonzero : m.page_infos ≠ 0 := by
    unfold page_info_array at reached
    rw [Bool.and_eq_true] at reached
    exact of_decide_eq_true reached.1
  set b := start p m mmu_enabled direct_map_size stale content with bIs
  have baseIs : b.buddy_base = m.buddy_base := rfl
  have endIs : b.ram_end = p.ram_end := rfl
  have freeIs : b.phys_alloc.free_pages = m.phys_alloc.free_pages := rfl
  have freeFew : m.phys_alloc.free_pages ≤ Physical.managedPages p := by
    rw [allocator,free]
    exact sub_le _ _
  have cleared : ∀ i, b.buddy_base + i * PAGE_SIZE < b.ram_end → b.infos i = .zero := by
    intro i low
    have first : i < m.phys_alloc.free_pages := by
      have : i < (b.ram_end - b.buddy_base + PAGE_SIZE - 1) / PAGE_SIZE := by
        rw [lt_iff_add_one_le,le_div_iff_mul_le (by decide),add_mul]
        omega
      omega
    simp [bIs,start,first]
  have pages : (b.ram_end - b.buddy_base) / PAGE_SIZE ≤ m.phys_alloc.free_pages :=
    (Nat.div_le_div_right (by unfold PAGE_SIZE; omega)).trans covers
  have distance : wrap (b.ram_end + (wordCount - b.buddy_base)) = b.ram_end - b.buddy_base := by
    have addresses : b.ram_end ≤ 2 ^ 52 := p.ram_fits
    unfold wrap wordCount
    omega
  have maxIs : max_pages b = (b.ram_end - b.buddy_base) / PAGE_SIZE := by
    rw [max_pages,distance,wrap32_of_lt (by omega)]
  have inRam : ∀ i, i < max_pages b → b.buddy_base + i * PAGE_SIZE < b.ram_end := by
    intro i low
    rw [maxIs,lt_iff_add_one_le,le_div_iff_mul_le (by decide),add_mul] at low
    unfold PAGE_SIZE at *
    omega
  have unused : ∀ i, i < max_pages b → (b.infos i).used = false := by
    intro i low
    rw [cleared i (inRam i low)]
    rfl
  refine ⟨reached,?_,?_,below,p.ram_fits,by omega,?_,by simp,?_,?_,?_,by omega,?_⟩
  · rw [baseIs,base,← records]
    omega
  · rw [baseIs,base]
    refine dvd_add ?_ (align_up_dvd _ _)
    exact (dvd_mod_iff (by decide)).mpr (Physical.bootBase_aligned placed)
  · refine ⟨by simp,by simp,.nil,?_⟩
    intro i low
    simp [unused i low]
  · intro i low _
    rw [cleared i low]
    rfl
  · intro i low
    rw [cleared i (inRam i low)]
    rfl
  · rw [takenCount_zero unused]
    rfl
  have totalIs : b.phys_alloc.total_pages = Physical.managedPages p := by
    show m.phys_alloc.total_pages = _
    rw [allocator,total]
  omega

section
variable {b : Arena} {live : List Span} {sum : Nat}

theorem stillHeld_keep {b' : Arena} (sound : Sound b live sum)
    (same : ∀ i, (b'.infos i).used = (b.infos i).used) : stillHeld b' live = live :=
  (sound.partition.keep (fun i _ => same i)).2

theorem setRefcount_used (b : Arena) (index refcount i : Nat) :
    ((setRefcount b index refcount).infos i).used = (b.infos i).used := by
  unfold setRefcount
  by_cases own : i = index
  · subst own
    simp
  · simp [Function.update_of_ne own]

theorem used_page_or_none (b : Arena) (addr : Nat) :
    (∃ i, i < max_pages b ∧ addr = b.buddy_base + i * PAGE_SIZE ∧ (b.infos i).used = true) ∨
      ∀ i, i < max_pages b → addr = b.buddy_base + i * PAGE_SIZE → (b.infos i).used = false := by
  by_cases used : ∃ i, i < max_pages b ∧ addr = b.buddy_base + i * PAGE_SIZE ∧ (b.infos i).used = true
  · exact .inl used
  · grind

theorem Sound.buddy_free (sound : Sound b live sum) (addr : Nat) :
    Sound (buddy_free b addr) (stillHeld (buddy_free b addr) live) sum ∧
      (buddy_free b addr).buddy_base = b.buddy_base ∧ (buddy_free b addr).ram_end = b.ram_end := by
  unfold Buddy.buddy_free
  rcases used_page_or_none b addr with ⟨i,inside,rfl,used⟩ | unused
  · obtain ⟨k,member,_,freed⟩ := sound.free_locked_used inside used
    rw [freed]
    exact ⟨sound.released member,rfl,rfl⟩
  rw [sound.free_locked_unused unused,stillHeld_keep sound (fun _ => rfl)]
  exact ⟨sound,rfl,rfl⟩

theorem Sound.free_page (sound : Sound b live sum) (addr : Nat) :
    Sound (free_page b addr) (stillHeld (free_page b addr) live) sum ∧
      (free_page b addr).buddy_base = b.buddy_base ∧ (free_page b addr).ram_end = b.ram_end := by
  rcases used_page_or_none b addr with ⟨i,inside,rfl,used⟩ | unused
  · rcases sound.free_page_used inside used with ⟨_,dropped⟩ | ⟨_,k,member,_,freed | freed⟩
    · rw [dropped,stillHeld_keep sound (setRefcount_used b i _)]
      exact ⟨sound.setRefcount i _,rfl,rfl⟩
    · rw [freed]
      exact ⟨sound.released member,rfl,rfl⟩
    rw [freed]
    exact ⟨(sound.setRefcount i 0).released member,rfl,rfl⟩
  rw [sound.free_page_unused unused,stillHeld_keep sound (fun _ => rfl)]
  exact ⟨sound,rfl,rfl⟩

end

theorem step_sound {sum base ram_end : Nat} (s : State) (op : Op) (t : State)
    (holds : Sound s.arena s.live sum ∧ s.arena.buddy_base = base ∧ s.arena.ram_end = ram_end)
    (stepped : step s op = t) : Sound t.arena t.live sum ∧ t.arena.buddy_base = base ∧ t.arena.ram_end = ram_end := by
  obtain ⟨sound,rfl,rfl⟩ := holds
  subst stepped
  cases op with
  | buddy_alloc n =>
    simp only [step]
    split
    · exact ⟨sound,rfl,rfl⟩
    rename_i b addr allocated
    obtain ⟨r,addrIs,_,_,_,taken,after⟩ := sound.alloc_some allocated
    have place : b.buddy_base = s.arena.buddy_base ∧ b.ram_end = s.arena.ram_end := by
      rw [taken]
      exact ⟨rfl,rfl⟩
    simp_all [Physical.PAGE_SIZE]
  | page_ref_inc addr =>
    refine ⟨sound.page_ref_inc addr,?_,?_⟩
    all_goals
      simp only [step,page_ref_inc]
      split
      · rfl
      · split <;> rfl
  | page_ref_dec addr =>
    refine ⟨sound.page_ref_dec addr,?_,?_⟩
    all_goals
      simp only [step,page_ref_dec]
      split
      · rfl
      · split <;> rfl
  | free_page addr => exact sound.free_page addr
  | buddy_free addr => exact sound.buddy_free addr

/-- From a boot whose pages all have a record: used pages are the live blocks, an
    allocation returns unused pages and fails only without a run of them, freeing a
    free page does nothing, and no page is lost. -/
theorem used_pages_are_live_blocks {p : Platform} {h : Heap} {m : Memory} (accepted : init_memory p h = some m)
    (mmu_enabled : Bool) (direct_map_size : Nat) (stale : Nat → PageInfo) (content : Nat → Content)
    (recorded : Recorded (start p m mmu_enabled direct_map_size stale content)) {ops : List Op} {s : State}
    (run : Run (fun s op t => step s op = t) ⟨start p m mmu_enabled direct_map_size stale content,[]⟩ ops s) :
    Partition (fun i => (s.arena.infos i).used) (max_pages s.arena) s.live ∧
      (∀ k ∈ s.live, ∀ i, k.Has i →
        (s.arena.infos i).start = m.buddy_base + k.first * PAGE_SIZE ∧ (s.arena.infos i).size = k.count) ∧
      (∀ n b addr, buddy_alloc s.arena n = some (b,addr) → ∃ r, addr = m.buddy_base + r * PAGE_SIZE ∧
        r + n ≤ max_pages s.arena ∧ ∀ k ∈ s.live, (Span.mk r n).Apart k) ∧
      (∀ n, 0 < n → buddy_alloc s.arena n = none → ∀ r, r + n ≤ max_pages s.arena →
        ∃ i, (Span.mk r n).Has i ∧ (s.arena.infos i).used = true) ∧
      (∀ i, i < max_pages s.arena → (s.arena.infos i).used = false →
        free_page s.arena (m.buddy_base + i * PAGE_SIZE) = s.arena ∧
          buddy_free s.arena (m.buddy_base + i * PAGE_SIZE) = s.arena) ∧
      s.arena.phys_alloc.free_pages + takenCount (fun i => (s.arena.infos i).used) (max_pages s.arena) =
        m.phys_alloc.free_pages := by
  obtain ⟨sound,baseIs,_⟩ := run.invariant step_sound ⟨start_sound accepted recorded,rfl,rfl⟩
  change s.arena.buddy_base = m.buddy_base at baseIs
  rw [← baseIs]
  refine ⟨sound.partition,sound.recorded,?_,fun n => sound.alloc_none,?_,sound.counted⟩
  · intro n b addr allocated
    obtain ⟨r,addrIs,positive,inside,free,_,_⟩ := sound.alloc_some allocated
    refine ⟨r,addrIs,inside,?_⟩
    intro k member i both
    have below : i < max_pages s.arena := by
      have := both.1.2
      simp only at this
      omega
    have used := (sound.partition.taken_iff i below).mpr ⟨k,member,both.2⟩
    simp only [free i both.1] at used
    cases used
  intro i inside unused
  have only : ∀ j, j < max_pages s.arena → s.arena.buddy_base + i * PAGE_SIZE = s.arena.buddy_base + j * PAGE_SIZE →
      (s.arena.infos j).used = false := by
    intro j _ same
    have : i = j := Nat.eq_of_mul_eq_mul_right (show 0 < PAGE_SIZE by decide) (by omega)
    rw [← this]
    exact unused
  exact ⟨sound.free_page_unused only,sound.free_locked_unused only⟩

def sampleStart (p : Platform) (m : Memory) : Arena :=
  start p m true 0x40000000 (fun _ => .zero) (fun _ _ => 0)

theorem used_pages_are_live_blocks_sample : ∃ m, init_memory (samplePlatform 0x4000000) bootHeap = some m ∧
    ∃ s, Run (fun s op t => step s op = t) ⟨sampleStart (samplePlatform 0x4000000) m,[]⟩ [.buddy_alloc 2] s ∧
      s.arena.phys_alloc.free_pages + takenCount (fun i => (s.arena.infos i).used) (max_pages s.arena) =
        m.phys_alloc.free_pages := by
  obtain ⟨m,accepted⟩ := samplePlatform_accepted 0x4000000
  obtain ⟨_,allocator,records,base⟩ := Physical.init_memory_eq accepted
  refine ⟨m,accepted,_,.single rfl,?_⟩
  refine (used_pages_are_live_blocks accepted true 0x40000000 (fun _ => .zero) (fun _ _ => 0) ?_ (.single rfl)).2.2.2.2.2
  simp only [Recorded,start,page_info_array,phys_in_direct_map,allocator,records,base]
  decide

/-- Where too few pages count as free, the count stops at 0. -/
theorem alloc_all_saturates {b : Arena} {n : Nat} (positive : 0 < n) (pages : max_pages b = n)
    (reached : page_info_array b = true) (unused : ∀ i, (b.infos i).used = false ∧ (b.infos i).reserved = false)
    (short : b.phys_alloc.free_pages < n) :
    ∃ s, Run (fun s op t => step s op = t) ⟨b,[]⟩ [.buddy_alloc n] s ∧
      s.arena.phys_alloc.free_pages + takenCount (fun i => (s.arena.infos i).used) (max_pages s.arena) = n := by
  have found : scan (is_free b) n (max_pages b) 0 0 0 = some 0 := by
    rw [pages]
    refine scan_all positive ?_
    intro i _
    simp [is_free,unused i]
  have allocated := buddy_alloc_found positive pages.ge reached found
  refine ⟨_,.single rfl,?_⟩
  simp only [step,allocated]
  have none := takenCount_zero (fun i (_ : i < n) => (unused i).1)
  have all := @takenCount_add (fun i => (b.infos i).used) (fun i => ((taken b ⟨0,n⟩).infos i).used) n ⟨0,n⟩
    (by simp) (fun i _ => (unused i).1) (fun i _ => taken_used b ⟨0,n⟩ i)
  have pages' : max_pages (taken b ⟨0,n⟩) = n := pages
  have spent : (taken b ⟨0,n⟩).phys_alloc.free_pages = 0 := by
    simp [taken,account_buddy_alloc,short]
  rw [pages',spent,all,none]
  simp

/-- With the device tree in the last MiB, 30060 pages have records, 29951 are counted. -/
theorem free_pages_saturate : ∃ m, init_memory (samplePlatform 0x7F00000) bootHeap = some m ∧
    m.phys_alloc.free_pages = 29951 ∧ m.page_infos + 30060 * sizeof_page_info ≤ m.buddy_base ∧
    ∃ s, Run (fun s op t => step s op = t) ⟨sampleStart (samplePlatform 0x7F00000) m,[]⟩ [.buddy_alloc 30060] s ∧
      s.arena.phys_alloc.free_pages + takenCount (fun i => (s.arena.infos i).used) (max_pages s.arena) = 30060 := by
  obtain ⟨m,accepted⟩ := samplePlatform_accepted 0x7F00000
  obtain ⟨_,allocator,records,base⟩ := Physical.init_memory_eq accepted
  have baseIs : m.buddy_base = 0x40A94000 := by
    rw [base]
    decide
  have recordsIs : m.page_infos = 0x40A01000 := by
    rw [records]
    decide
  have freeIs : m.phys_alloc.free_pages = 29951 := by
    rw [allocator]
    decide
  refine ⟨m,accepted,freeIs,by rw [baseIs,recordsIs]; decide,alloc_all_saturates (by decide) ?_ ?_ ?_ ?_⟩
  · simp only [sampleStart,start,max_pages,baseIs]
    decide
  · simp only [sampleStart,start,page_info_array,phys_in_direct_map,recordsIs]
    decide
  · intro i
    simp only [sampleStart,start]
    split <;> exact ⟨rfl,rfl⟩
  simp only [sampleStart,start,freeIs]
  decide

end ArmOS.Buddy

