import ArmOS.Kmalloc

/-!
How `kernel/memory/physical.c` sets memory up: `init_memory` places the page bitmap
behind the kernel, marks the device tree in it, and hands what is left above the
page records to the page allocator.
-/
namespace ArmOS.Physical
open Words Nat
open Kmalloc (Heap bootHeap init_kernel_heap_region)

def PAGE_SIZE : Nat := 4096
/-- The staging floor of `memory.h`. -/
def BUDDY_BASE : Nat := 0x54010000
/-- `struct page_info` is packed: 1 + 8 + 1 + 2 + 8 bytes. -/
def sizeof_page_info : Nat := 20
def dtb_size : Nat := 0x100000

/-- The image, the kernel heap behind it, then free memory. -/
structure Linker where
  (kernel_phys_end heap_start heap_size free_memory_start : Nat)
  image_below_heap : kernel_phys_end ≤ heap_start
  heap_below_free : heap_start + heap_size ≤ free_memory_start
  free_fits : free_memory_start ≤ 2 ^ 52

/-- The RAM, and where the device tree is, 0 for nowhere. -/
structure Platform where
  linker : Linker
  (ram_start mem_size dtb_address : Nat)
  size_fits : mem_size < 2 ^ 32
  ram_fits : ram_start + mem_size ≤ 2 ^ 52
  dtb_fits : dtb_address < wordCount

def Platform.ram_end (p : Platform) : Nat := p.ram_start + p.mem_size

/-- `physical_allocator_t`; `bits` are the pages set in the bitmap. -/
structure Allocator where
  bitmap : Nat
  bits : Finset Nat
  (total_pages free_pages start_addr bitmap_pages pages_allocated pages_freed : Nat)
structure Memory where
  phys_alloc : Allocator
  heap : Heap
  (buddy_base page_infos : Nat)

/-- The end of the managed pages, `ram_end` in the source. -/
def Allocator.managed_end (a : Allocator) : Nat := a.start_addr + a.total_pages * PAGE_SIZE
def set_page_used (a : Allocator) (page_index : Nat) : Allocator :=
  if page_index ∈ a.bits then a
  else { a with bits := insert page_index a.bits, free_pages := wrap32 (a.free_pages + (2 ^ 32 - 1)) }

/-- The loop of the `reserve_*` functions; a page out of range ends it or is skipped. -/
def reserve_pages (skips : Bool) : Nat → Allocator → Nat → Nat → Allocator
  | 0, a, _, _ => a
  | fuel + 1, a, addr, stop =>
    if addr < stop then
      let page_index := wrap32 ((addr - a.start_addr) / PAGE_SIZE)
      if a.total_pages ≤ page_index then
        if skips then reserve_pages skips fuel a (addr + PAGE_SIZE) stop else a
      else reserve_pages skips fuel (set_page_used a page_index) (addr + PAGE_SIZE) stop
    else a

def reserve_range (skips : Bool) (a : Allocator) (first stop : Nat) : Allocator :=
  reserve_pages skips (stop - first) a first stop
def reserve_kernel_pages (l : Linker) (a : Allocator) : Allocator :=
  if l.kernel_phys_end ≤ a.start_addr then a
  else if a.managed_end < l.kernel_phys_end then a
  else reserve_range false a a.start_addr (align_up l.kernel_phys_end PAGE_SIZE)
def reserve_bitmap_pages (a : Allocator) : Allocator :=
  let bitmap_end := a.bitmap + a.bitmap_pages * PAGE_SIZE
  if bitmap_end ≤ a.start_addr ∨ a.managed_end ≤ a.bitmap then a
  else reserve_range false a (max a.bitmap a.start_addr) (min bitmap_end a.managed_end)

def reserve_heap_pages (h : Heap) (a : Allocator) : Allocator :=
  if h.heap_base = 0 ∨ h.heap_size = 0 then a
  else
    let heap_end := wrap (h.heap_base + h.heap_size)
    if heap_end ≤ a.start_addr then a
    else if a.managed_end ≤ h.heap_base then a
    else reserve_range true a (max h.heap_base a.start_addr) (min heap_end a.managed_end)

/-- `reserve_dtb_pages`: the bitmap and `buddy_base`. -/
def reserve_dtb_pages (dtb_address : Nat) (a : Allocator) (buddy_base : Nat) : Allocator × Nat :=
  let dtb_end := wrap (dtb_address + dtb_size)
  if dtb_address = 0 then (a,buddy_base)
  else if dtb_end ≤ a.start_addr ∨ a.managed_end ≤ dtb_address then (a,buddy_base)
  else
    let dtb_start_page := align_down (max dtb_address a.start_addr) PAGE_SIZE
    let dtb_end_page := align_up (min dtb_end a.managed_end) PAGE_SIZE
    (reserve_range false a dtb_start_page dtb_end_page,align_up (dtb_end_page + PAGE_SIZE) PAGE_SIZE)

def choose_buddy_base (p : Platform) (a : Allocator) (buddy_base : Nat) : Nat :=
  let free_start := align_up p.linker.free_memory_start PAGE_SIZE
  let base := if free_start < a.start_addr then align_up a.start_addr PAGE_SIZE else free_start
  let base :=
    if p.ram_start ≤ buddy_base ∧ buddy_base < p.ram_end ∧ base < buddy_base then align_up buddy_base PAGE_SIZE
    else base
  let base :=
    if p.ram_start ≤ BUDDY_BASE ∧ BUDDY_BASE < p.ram_end ∧ base < BUDDY_BASE then align_up BUDDY_BASE PAGE_SIZE
    else base
  let base := if base < p.ram_start then p.ram_start else base
  if p.ram_end ≤ base then free_start else base

/-- `early_alloc`: the address and the new `buddy_base`. -/
def early_alloc (buddy_base size align : Nat) : Nat × Nat :=
  let alloc_base := align_up_narrow buddy_base align
  (alloc_base,align_up (alloc_base + size) PAGE_SIZE)

/-- `buddy_init`: `buddy_base` and the array of page records. -/
def buddy_init (p : Platform) (a : Allocator) (buddy_base : Nat) : Nat × Nat :=
  let buddy_base := choose_buddy_base p a buddy_base
  let page_info_size := wrap32 (a.free_pages * sizeof_page_info)
  let (page_info_region,buddy_base) := early_alloc buddy_base page_info_size 8
  (align_up buddy_base PAGE_SIZE,align_up page_info_region 8)

/-- `init_memory`; `none` is a boot that it refuses. -/
def init_memory (p : Platform) (h : Heap) : Option Memory :=
  let bitmap_start := align_up p.linker.free_memory_start PAGE_SIZE
  let bitmap_size_words := (p.mem_size / PAGE_SIZE + 31) / 32
  let bitmap_size_bytes := bitmap_size_words * 4
  let bitmap_pages := (bitmap_size_bytes + PAGE_SIZE - 1) / PAGE_SIZE
  if bitmap_start < p.ram_start ∨ p.ram_end ≤ bitmap_start then none
  else
    let start_addr := bitmap_start + bitmap_pages * PAGE_SIZE
    if p.ram_end < start_addr then none
    else if p.ram_end < bitmap_start + bitmap_size_bytes then none
    else
      let total_pages := wrap32 ((p.ram_end - start_addr) / PAGE_SIZE)
      let a : Allocator := ⟨bitmap_start,∅,total_pages,total_pages,start_addr,bitmap_pages,0,0⟩
      let a := reserve_bitmap_pages (reserve_kernel_pages p.linker a)
      match init_kernel_heap_region h p.linker.heap_start p.linker.heap_size with
      | (_,false) => none
      | (heap,true) =>
        let (a,buddy_base) := reserve_dtb_pages p.dtb_address (reserve_heap_pages heap a) 0
        let (buddy_base,page_infos) := buddy_init p a buddy_base
        some ⟨a,heap,buddy_base,page_infos⟩

/-! ### Reserving pages -/

/-- Unmarked pages in range are marked and counted. -/
theorem reserve_pages_eq (skips : Bool) {a : Allocator} {i n fuel : Nat} (enough : n ≤ fuel)
    (inside : i + n ≤ a.total_pages) (few : a.total_pages < 2 ^ 32)
    (unmarked : ∀ j, i ≤ j → j < i + n → j ∉ a.bits) (counted : n ≤ a.free_pages) (small : a.free_pages < 2 ^ 32) :
    reserve_pages skips fuel a (a.start_addr + i * PAGE_SIZE) (a.start_addr + (i + n) * PAGE_SIZE) =
      { a with bits := a.bits ∪ Finset.Ico i (i + n), free_pages := a.free_pages - n } := by
  induction n generalizing a i fuel with
  | zero =>
    cases fuel with
    | zero | succ fuel => simp [reserve_pages]
  | succ n ih =>
    obtain ⟨fuel,rfl⟩ := Nat.exists_eq_succ_of_ne_zero (ne_of_gt (lt_of_lt_of_le (Nat.succ_pos n) enough))
    have index : wrap32 ((a.start_addr + i * PAGE_SIZE - a.start_addr) / PAGE_SIZE) = i := by
      unfold wrap32 PAGE_SIZE
      omega
    have fresh : i ∉ a.bits := unmarked i (Nat.le_refl i) (by omega)
    have marked : set_page_used a i = { a with bits := insert i a.bits, free_pages := a.free_pages - 1 } := by
      have less : wrap32 (a.free_pages + (2 ^ 32 - 1)) = a.free_pages - 1 := by
        unfold wrap32
        omega
      rw [set_page_used,if_neg fresh,less]
    have goesOn : a.start_addr + i * PAGE_SIZE < a.start_addr + (i + (n + 1)) * PAGE_SIZE := by
      unfold PAGE_SIZE
      omega
    have next : a.start_addr + i * PAGE_SIZE + PAGE_SIZE = a.start_addr + (i + 1) * PAGE_SIZE := by ring
    have stop : a.start_addr + (i + (n + 1)) * PAGE_SIZE = a.start_addr + (i + 1 + n) * PAGE_SIZE := by ring
    rw [reserve_pages,if_pos goesOn]
    simp only [index]
    rw [if_neg (by omega),marked,next,stop]
    have rest := @ih { a with bits := insert i a.bits, free_pages := a.free_pages - 1 } (i + 1) fuel (by omega)
      (by simp only; omega) few
      (by
        grind)
      (by simp only; omega) (by simp only; omega)
    simp only at rest
    rw [rest]
    congr 1
    · grind
    · omega

/-! ### What the inputs determine -/

/-- The first managed page, behind the bitmap. -/
def managedStart (p : Platform) : Nat :=
  align_up p.linker.free_memory_start PAGE_SIZE +
    ((p.mem_size / PAGE_SIZE + 31) / 32 * 4 + PAGE_SIZE - 1) / PAGE_SIZE * PAGE_SIZE
def managedPages (p : Platform) : Nat := (p.ram_end - managedStart p) / PAGE_SIZE
def managedEnd (p : Platform) : Nat := managedStart p + managedPages p * PAGE_SIZE

/-- The device-tree window meets a managed page. -/
def DtbManaged (p : Platform) : Prop :=
  p.dtb_address ≠ 0 ∧ managedStart p < p.dtb_address + dtb_size ∧ p.dtb_address < managedEnd p
instance (p : Platform) : Decidable (DtbManaged p) := by unfold DtbManaged; infer_instance

/-- The managed pages of the window. -/
def dtbFirst (p : Platform) : Nat := align_down (max p.dtb_address (managedStart p)) PAGE_SIZE
def dtbStop (p : Platform) : Nat := align_up (min (p.dtb_address + dtb_size) (managedEnd p)) PAGE_SIZE
def dtbPages (p : Platform) : Nat := if DtbManaged p then (dtbStop p - dtbFirst p) / PAGE_SIZE else 0

/-- The base the device tree asks for: one page above its window. -/
def dtbFloor (p : Platform) : Nat := if DtbManaged p then dtbStop p + PAGE_SIZE else 0

/-- The highest of managed start, device tree's base and staging floor. -/
def arenaFloor (p : Platform) : Nat :=
  max (max (managedStart p) (if dtbFloor p < p.ram_end then dtbFloor p else 0))
    (if p.ram_start ≤ BUDDY_BASE ∧ BUDDY_BASE < p.ram_end then BUDDY_BASE else 0)

/-- One record for each free page, in whole pages. -/
def metadataBytes (p : Platform) : Nat :=
  align_up ((managedPages p - dtbPages p) * sizeof_page_info) PAGE_SIZE
theorem managedStart_aligned (p : Platform) : PAGE_SIZE ∣ managedStart p := by
  unfold managedStart
  exact dvd_add (align_up_dvd _ _) (dvd_mul_left _ _)

theorem free_start_bounds (p : Platform) :
    p.linker.free_memory_start ≤ align_up p.linker.free_memory_start PAGE_SIZE ∧
      align_up p.linker.free_memory_start PAGE_SIZE < p.linker.free_memory_start + PAGE_SIZE := by
  have fits := p.linker.free_fits
  unfold align_up align_down wrap wordCount PAGE_SIZE
  omega

/-- What has been set up when the device tree is looked at. -/
def managed (p : Platform) : Allocator where
  bitmap := align_up p.linker.free_memory_start PAGE_SIZE
  bits := ∅
  total_pages := managedPages p
  free_pages := managedPages p
  start_addr := managedStart p
  bitmap_pages := ((p.mem_size / PAGE_SIZE + 31) / 32 * 4 + PAGE_SIZE - 1) / PAGE_SIZE
  pages_allocated := 0
  pages_freed := 0

theorem reserve_kernel_pages_managed (p : Platform) : reserve_kernel_pages p.linker (managed p) = managed p := by
  have below := p.linker.image_below_heap
  have heap := p.linker.heap_below_free
  have free := free_start_bounds p
  rw [reserve_kernel_pages,if_pos]
  simp only [managed,managedStart]
  omega

theorem reserve_bitmap_pages_managed (p : Platform) : reserve_bitmap_pages (managed p) = managed p := by
  rw [reserve_bitmap_pages,if_pos]
  exact .inl le_rfl

variable {h h' : Heap}

/-- An accepted heap is the linker's, from an aligned base. -/
theorem init_kernel_heap_region_extent {base size : Nat}
    (accepted : init_kernel_heap_region h base size = (h',true)) : h'.heap_base + h'.heap_size = base + size := by
  unfold init_kernel_heap_region at accepted
  dsimp only at accepted
  split at accepted
  · cases accepted
  · grind

theorem reserve_heap_pages_managed (p : Platform)
    (accepted : init_kernel_heap_region h p.linker.heap_start p.linker.heap_size = (h',true)) :
    reserve_heap_pages h' (managed p) = managed p := by
  have extent := init_kernel_heap_region_extent accepted
  have below := p.linker.heap_below_free
  have free := free_start_bounds p
  unfold reserve_heap_pages
  split
  · rfl
  have ends : wrap (h'.heap_base + h'.heap_size) ≤ (managed p).start_addr := by
    have := mod_le (h'.heap_base + h'.heap_size) wordCount
    simp only [wrap,managed,managedStart]
    omega
  simp only [if_pos ends]

def reserved (p : Platform) : Allocator :=
  if DtbManaged p then
    { managed p with
      bits := Finset.Ico ((dtbFirst p - managedStart p) / PAGE_SIZE) ((dtbStop p - managedStart p) / PAGE_SIZE)
      free_pages := managedPages p - dtbPages p }
  else managed p

/-- The checks of `init_memory`. -/
structure Placed (p : Platform) : Prop where
  above : p.ram_start ≤ align_up p.linker.free_memory_start PAGE_SIZE
  below : align_up p.linker.free_memory_start PAGE_SIZE < p.ram_end
  managed : managedStart p ≤ p.ram_end

section
variable {p : Platform}

theorem Placed.start_above (placed : Placed p) :
    p.ram_start ≤ managedStart p ∧ align_up p.linker.free_memory_start PAGE_SIZE ≤ managedStart p := by
  have := placed.above
  unfold managedStart
  omega

/-- The managed pages end in the last page of RAM. -/
theorem Placed.managedEnd_bounds (placed : Placed p) :
    managedEnd p ≤ p.ram_end ∧ p.ram_end < managedEnd p + PAGE_SIZE ∧ managedPages p ≤ 2 ^ 20 := by
  have := placed.start_above
  have := placed.managed
  have := p.size_fits
  unfold managedEnd managedPages Platform.ram_end PAGE_SIZE at *
  omega

theorem dtb_pages_managed (placed : Placed p) (met : DtbManaged p) :
    ∃ i n, dtbFirst p = managedStart p + i * PAGE_SIZE ∧ dtbStop p = managedStart p + (i + n) * PAGE_SIZE ∧
      i + n ≤ managedPages p ∧ dtbPages p = n := by
  have start := managedStart_aligned p
  have stop : PAGE_SIZE ∣ managedEnd p := Nat.dvd_add start (Nat.dvd_mul_left _ _)
  have few := placed.managedEnd_bounds
  have fits := p.ram_fits
  have firstBound : managedStart p ≤ dtbFirst p := le_align_down (by decide) start (Nat.le_max_right _ _)
  have stopBound : dtbStop p ≤ managedEnd p := align_up_le_of_dvd (by decide) stop (Nat.min_le_right _ _)
  -- The window has an address at or above the first page, and the first page is not above it.
  have ordered : dtbFirst p ≤ dtbStop p := by
    have low : dtbFirst p ≤ max p.dtb_address (managedStart p) := align_down_le _ _
    have high : min (p.dtb_address + dtb_size) (managedEnd p) ≤ dtbStop p := by
      refine le_align_up _ (by decide) ?_
      have endIs : p.ram_end = p.ram_start + p.mem_size := rfl
      have := Nat.min_le_right (p.dtb_address + dtb_size) (managedEnd p)
      generalize min (p.dtb_address + dtb_size) (managedEnd p) = w at *
      unfold wordCount PAGE_SIZE
      omega
    obtain ⟨_,above,below⟩ := met
    refine low.trans (Nat.le_trans (Nat.le_min.mpr ⟨?_,?_⟩) high)
    · exact Nat.max_le.mpr ⟨Nat.le_add_right _ _,Nat.le_of_lt above⟩
    · exact Nat.max_le.mpr ⟨Nat.le_of_lt below,Nat.le_add_right _ _⟩
  obtain ⟨i,firstIs⟩ : ∃ i, dtbFirst p = managedStart p + i * PAGE_SIZE :=
    steps_between start (align_down_dvd _ _) firstBound
  obtain ⟨n,stopIs⟩ : ∃ n, dtbStop p = dtbFirst p + n * PAGE_SIZE :=
    steps_between (align_down_dvd _ _) (align_up_dvd _ _) ordered
  refine ⟨i,n,firstIs,?_,?_,?_⟩
  · rw [stopIs,firstIs]
    ring
  · have ends : managedEnd p = managedStart p + managedPages p * PAGE_SIZE := rfl
    have : (i + n) * PAGE_SIZE ≤ managedPages p * PAGE_SIZE := by
      rw [Nat.add_mul]
      omega
    exact Nat.le_of_mul_le_mul_right this (by decide)
  rw [dtbPages,if_pos met,stopIs,Nat.add_sub_cancel_left]
  exact Nat.mul_div_cancel _ (by decide)

theorem reserve_dtb_pages_managed (placed : Placed p) :
    reserve_dtb_pages p.dtb_address (managed p) 0 = (reserved p,dtbFloor p) := by
  have bounds := placed.managedEnd_bounds
  have fits := p.ram_fits
  have address := p.dtb_fits
  have ends : (managed p).managed_end = managedEnd p := rfl
  have starts : (managed p).start_addr = managedStart p := rfl
  unfold reserve_dtb_pages
  by_cases met : DtbManaged p
  · have whole : wrap (p.dtb_address + dtb_size) = p.dtb_address + dtb_size := by
      have := met.2.2
      unfold dtb_size
      refine wrap_of_lt ?_
      unfold wordCount Platform.ram_end at *
      omega
    obtain ⟨i,n,first,stop,inside,counted⟩ := dtb_pages_managed placed met
    have outside : ¬ (p.dtb_address + dtb_size ≤ managedStart p ∨ managedEnd p ≤ p.dtb_address) := by
      have := met.2
      omega
    have firstIs : align_down (max p.dtb_address (managedStart p)) PAGE_SIZE = dtbFirst p := rfl
    have stopIs : align_up (min (p.dtb_address + dtb_size) (managedEnd p)) PAGE_SIZE = dtbStop p := rfl
    have next : align_up (dtbStop p + PAGE_SIZE) PAGE_SIZE = dtbFloor p := by
      rw [dtbFloor,if_pos met]
      refine align_up_of_dvd (by decide) ?_ ?_
      · have : managedEnd p = managedStart p + managedPages p * PAGE_SIZE := rfl
        unfold wordCount PAGE_SIZE Platform.ram_end at *
        omega
      rw [stop]
      exact dvd_add (dvd_add (managedStart_aligned p) (dvd_mul_left _ _)) (dvd_refl _)
    simp only [whole,ends,starts,met.1,outside,if_false,firstIs,stopIs,next]
    refine Prod.ext ?_ rfl
    dsimp only
    rw [reserve_range,first,stop]
    have marked := @reserve_pages_eq false (managed p) i n (managedStart p + (i + n) * PAGE_SIZE -
      (managedStart p + i * PAGE_SIZE)) (by unfold PAGE_SIZE; omega) inside (by simp only [managed]; omega)
      (by simp [managed]) (by simp only [managed]; omega) (by simp only [managed]; omega)
    rw [starts] at marked
    rw [marked,reserved,if_pos met,first,stop,counted]
    simp [managed,PAGE_SIZE]
  have skipped : p.dtb_address = 0 ∨ wrap (p.dtb_address + dtb_size) ≤ managedStart p ∨
      managedEnd p ≤ p.dtb_address := by
    unfold DtbManaged at met
    have := mod_le (p.dtb_address + dtb_size) wordCount
    unfold wrap
    omega
  simp only [ends,starts]
  rcases skipped with zero | outside
  · simp [zero,reserved,dtbFloor,met]
  · simp [outside,reserved,dtbFloor,met]

theorem reserved_fields (p : Platform) : (reserved p).start_addr = managedStart p ∧
    (reserved p).free_pages = managedPages p - dtbPages p ∧ (reserved p).total_pages = managedPages p ∧
    (reserved p).bitmap = align_up p.linker.free_memory_start PAGE_SIZE ∧
    (reserved p).bitmap + (reserved p).bitmap_pages * PAGE_SIZE = managedStart p := by
  unfold reserved
  split
  · exact ⟨rfl,rfl,rfl,rfl,rfl⟩
  rename_i outside
  refine ⟨rfl,?_,rfl,rfl,rfl⟩
  rw [dtbPages,if_neg outside]
  rfl

/-- Where the records start, before the upper half is lost. -/
def bootBase (p : Platform) : Nat :=
  if managedStart p < p.ram_end then arenaFloor p else align_up p.linker.free_memory_start PAGE_SIZE

theorem Placed.dtbFloor_cases (placed : Placed p) :
    dtbFloor p = 0 ∨ (DtbManaged p ∧ dtbFloor p = dtbStop p + PAGE_SIZE ∧ managedStart p ≤ dtbStop p ∧
      PAGE_SIZE ∣ dtbFloor p ∧ dtbFloor p ≤ managedEnd p + PAGE_SIZE) := by
  by_cases met : DtbManaged p
  · obtain ⟨i,n,first,stop,inside,_⟩ := dtb_pages_managed placed met
    have floorIs : dtbFloor p = dtbStop p + PAGE_SIZE := if_pos met
    have ends : managedEnd p = managedStart p + managedPages p * PAGE_SIZE := rfl
    have aligned := managedStart_aligned p
    refine .inr ⟨met,floorIs,by omega,?_,?_⟩
    · rw [floorIs,stop]
      exact dvd_add (dvd_add aligned (dvd_mul_left _ _)) (dvd_refl _)
    unfold PAGE_SIZE at *
    omega
  · exact .inl (if_neg met)

/-- The chain of floors, as the highest of those that lie in RAM. -/
private theorem highest_floor {free start floor staging low high : Nat} (above : low ≤ start) (behind : free ≤ start)
    (placed : floor = 0 ∨ start < floor) :
    (let base := if free < start then start else free
     let base := if low ≤ floor ∧ floor < high ∧ base < floor then floor else base
     let base := if low ≤ staging ∧ staging < high ∧ base < staging then staging else base
     let base := if base < low then low else base
     if high ≤ base then free else base) =
      if start < high then
        max (max start (if floor < high then floor else 0)) (if low ≤ staging ∧ staging < high then staging else 0)
      else free := by
  have first : (if free < start then start else free) = start := by
    split <;> omega
  have second : (if low ≤ floor ∧ floor < high ∧ start < floor then floor else start) =
      max start (if floor < high then floor else 0) := by
    rcases placed with zero | higher <;> split_ifs <;> omega
  have inRam : (if floor < high then floor else 0) = 0 ∨ (if floor < high then floor else 0) < high := by
    split_ifs <;> omega
  simp only [first,second]
  generalize (if floor < high then floor else 0) = kept at inRam ⊢
  split_ifs <;> omega

theorem choose_buddy_base_eq (placed : Placed p) : choose_buddy_base p (reserved p) (dtbFloor p) = bootBase p := by
  have above := placed.start_above
  have below := placed.managed
  have addresses : p.ram_end ≤ 2 ^ 52 := p.ram_fits
  have startUp : align_up (managedStart p) PAGE_SIZE = managedStart p := by
    refine align_up_of_dvd (by decide) ?_ (managedStart_aligned p)
    unfold wordCount PAGE_SIZE
    omega
  have stagingUp : align_up BUDDY_BASE PAGE_SIZE = BUDDY_BASE := by decide
  have floorUp : align_up (dtbFloor p) PAGE_SIZE = dtbFloor p := by
    rcases placed.dtbFloor_cases with zero | ⟨_,_,_,whole,high⟩
    · rw [zero]
      decide
    refine align_up_of_dvd (by decide) ?_ whole
    have bounds := placed.managedEnd_bounds
    unfold wordCount PAGE_SIZE at *
    omega
  have floorAbove : dtbFloor p = 0 ∨ managedStart p < dtbFloor p := by
    rcases placed.dtbFloor_cases with zero | ⟨_,floorIs,low,_,_⟩
    · exact .inl zero
    right
    unfold PAGE_SIZE at floorIs
    omega
  unfold choose_buddy_base bootBase arenaFloor
  simp only [(reserved_fields p).1,startUp,stagingUp,floorUp]
  exact highest_floor above.1 above.2 floorAbove

theorem bootBase_aligned (placed : Placed p) : PAGE_SIZE ∣ bootBase p := by
  have floorAligned : PAGE_SIZE ∣ dtbFloor p := by
    rcases placed.dtbFloor_cases with zero | ⟨_,_,_,whole,_⟩
    · simp [zero]
    · exact whole
  have pick : ∀ a b : Nat, PAGE_SIZE ∣ a → PAGE_SIZE ∣ b → PAGE_SIZE ∣ max a b := by
    intro a b first second
    rcases max_choice a b with left | right
    · rwa [left]
    · rwa [right]
  unfold bootBase arenaFloor
  split_ifs
  all_goals
    first
      | exact align_up_dvd _ _
      | exact pick _ _ (pick _ _ (managedStart_aligned p) (by first | exact floorAligned | simp)) (by decide)

theorem bootBase_bounds (placed : Placed p) : p.ram_start ≤ bootBase p ∧ bootBase p < p.ram_end := by
  have above := placed.start_above
  have free := placed.above
  have below := placed.below
  unfold bootBase arenaFloor
  split_ifs <;> omega

theorem buddy_init_eq (placed : Placed p) : buddy_init p (reserved p) (dtbFloor p) =
    (bootBase p % 2 ^ 32 + metadataBytes p,bootBase p % 2 ^ 32) := by
  obtain ⟨k,baseIs⟩ := bootBase_aligned placed
  have base := bootBase_bounds placed
  have fits := p.ram_fits
  have few := placed.managedEnd_bounds
  have endIs : p.ram_end = p.ram_start + p.mem_size := rfl
  have narrow : align_up_narrow (bootBase p) 8 = bootBase p % 2 ^ 32 := by
    unfold align_up_narrow align_down wrap32 wrap wordCount PAGE_SIZE at *
    omega
  have size : wrap32 ((managedPages p - dtbPages p) * sizeof_page_info) =
      (managedPages p - dtbPages p) * sizeof_page_info := by
    unfold sizeof_page_info
    refine wrap32_of_lt ?_
    omega
  have above : align_up (bootBase p % 2 ^ 32 + (managedPages p - dtbPages p) * sizeof_page_info) PAGE_SIZE =
      bootBase p % 2 ^ 32 + metadataBytes p := by
    refine align_up_add (by decide) ?_ ?_
    · unfold wordCount PAGE_SIZE sizeof_page_info
      omega
    unfold PAGE_SIZE at *
    omega
  have again : align_up (bootBase p % 2 ^ 32 + metadataBytes p) PAGE_SIZE = bootBase p % 2 ^ 32 + metadataBytes p := by
    rw [← above]
    refine align_up_of_dvd (by decide) ?_ (align_up_dvd _ _)
    have := align_up_le (bootBase p % 2 ^ 32 + (managedPages p - dtbPages p) * sizeof_page_info) PAGE_SIZE
    unfold wordCount PAGE_SIZE sizeof_page_info at *
    omega
  have records : align_up (bootBase p % 2 ^ 32) 8 = bootBase p % 2 ^ 32 := by
    unfold align_up align_down wrap wordCount PAGE_SIZE at *
    omega
  unfold buddy_init early_alloc
  simp only [choose_buddy_base_eq placed,(reserved_fields p).2.1,narrow,size,above,again,records]

theorem init_memory_eq {h : Heap} {m : Memory} (accepted : init_memory p h = some m) :
    Placed p ∧ m.phys_alloc = reserved p ∧ m.page_infos = bootBase p % 2 ^ 32 ∧
      m.buddy_base = bootBase p % 2 ^ 32 + metadataBytes p := by
  unfold init_memory at accepted
  dsimp only at accepted
  split at accepted
  · cases accepted
  rename_i outside
  split at accepted
  · cases accepted
  rename_i room
  have placed : Placed p := ⟨by omega,by omega,by unfold managedStart; omega⟩
  split at accepted
  · cases accepted
  have few : wrap32 ((p.ram_end - (align_up p.linker.free_memory_start PAGE_SIZE +
      ((p.mem_size / PAGE_SIZE + 31) / 32 * 4 + PAGE_SIZE - 1) / PAGE_SIZE * PAGE_SIZE)) / PAGE_SIZE) =
        managedPages p := by
    have := placed.managedEnd_bounds
    refine wrap32_of_lt (x := managedPages p) ?_
    omega
  have first : Allocator.mk (align_up p.linker.free_memory_start PAGE_SIZE) ∅ (managedPages p) (managedPages p)
      (align_up p.linker.free_memory_start PAGE_SIZE +
        ((p.mem_size / PAGE_SIZE + 31) / 32 * 4 + PAGE_SIZE - 1) / PAGE_SIZE * PAGE_SIZE)
      (((p.mem_size / PAGE_SIZE + 31) / 32 * 4 + PAGE_SIZE - 1) / PAGE_SIZE) 0 0 = managed p := rfl
  rw [few,first,reserve_kernel_pages_managed,reserve_bitmap_pages_managed] at accepted
  split at accepted
  · cases accepted
  rename_i heap heapReady
  rw [reserve_heap_pages_managed p heapReady,reserve_dtb_pages_managed placed] at accepted
  dsimp only at accepted
  rw [buddy_init_eq placed] at accepted
  cases accepted
  exact ⟨placed,rfl,rfl,rfl⟩

/-- A boot whose bitmap fits and heap is large is accepted. -/
theorem init_memory_accepts {h heap : Heap} (placed : Placed p)
    (ready : init_kernel_heap_region h p.linker.heap_start p.linker.heap_size = (heap,true)) :
    ∃ m, init_memory p h = some m := by
  have := placed.above
  have := placed.below
  have room : ¬ p.ram_end < align_up p.linker.free_memory_start PAGE_SIZE +
      ((p.mem_size / PAGE_SIZE + 31) / 32 * 4 + PAGE_SIZE - 1) / PAGE_SIZE * PAGE_SIZE :=
    not_lt.mpr placed.managed
  have bytes : (p.mem_size / PAGE_SIZE + 31) / 32 * 4 ≤
      ((p.mem_size / PAGE_SIZE + 31) / 32 * 4 + PAGE_SIZE - 1) / PAGE_SIZE * PAGE_SIZE := by
    generalize (p.mem_size / PAGE_SIZE + 31) / 32 * 4 = n
    unfold PAGE_SIZE
    omega
  unfold init_memory
  dsimp only
  rw [if_neg (by omega),if_neg room,if_neg (by omega),ready]
  exact ⟨_,rfl⟩

end

/-! ### The arena -/

/-- The arena is in RAM and clear, and every page has a record. -/
structure ArenaClear (p : Platform) (m : Memory) : Prop where
  inside : p.ram_start ≤ m.buddy_base ∧ m.buddy_base ≤ p.ram_end
  bitmap : ∀ x, m.buddy_base ≤ x → x < p.ram_end →
    ¬ (m.phys_alloc.bitmap ≤ x ∧ x < m.phys_alloc.bitmap + m.phys_alloc.bitmap_pages * PAGE_SIZE)
  page_infos : ∀ x, m.buddy_base ≤ x → x < p.ram_end →
    ¬ (m.page_infos ≤ x ∧ x < m.page_infos + m.phys_alloc.free_pages * sizeof_page_info)
  dtb : ∀ x, m.buddy_base ≤ x → x < p.ram_end → p.dtb_address ≠ 0 →
    ¬ (p.dtb_address ≤ x ∧ x < p.dtb_address + dtb_size)
  entries : wrap (p.ram_end + (wordCount - m.buddy_base)) / PAGE_SIZE ≤ m.phys_alloc.free_pages

/-- There is a managed page, the floor has a 32-bit address, the records end in RAM,
    and the device tree is out of the way. -/
def Fits (p : Platform) : Prop :=
  managedStart p < p.ram_end ∧ arenaFloor p < 2 ^ 32 ∧ arenaFloor p + metadataBytes p ≤ p.ram_end ∧
    (arenaFloor p + metadataBytes p = p.ram_end ∨ p.dtb_address = 0 ∨ p.ram_end ≤ p.dtb_address ∨
      p.dtb_address + dtb_size ≤ arenaFloor p + metadataBytes p)

section
variable {p : Platform}

theorem metadataBytes_bounds (placed : Placed p) :
    (managedPages p - dtbPages p) * sizeof_page_info ≤ metadataBytes p ∧ PAGE_SIZE ∣ metadataBytes p ∧
      metadataBytes p ≤ (managedPages p - dtbPages p) * PAGE_SIZE ∧ metadataBytes p < 2 ^ 25 := by
  have few : managedPages p - dtbPages p ≤ 2 ^ 20 := le_trans (sub_le _ _) placed.managedEnd_bounds.2.2
  have whole : PAGE_SIZE ∣ metadataBytes p := align_up_dvd _ _
  unfold metadataBytes at *
  generalize managedPages p - dtbPages p = n at *
  have low := le_align_up (n * sizeof_page_info) (show 0 < PAGE_SIZE by decide)
    (by unfold wordCount PAGE_SIZE sizeof_page_info; omega)
  have high : align_up (n * sizeof_page_info) PAGE_SIZE ≤ n * PAGE_SIZE :=
    align_up_le_of_dvd (by decide) (dvd_mul_left _ _) (by unfold sizeof_page_info PAGE_SIZE; omega)
  have up := align_up_le (n * sizeof_page_info) PAGE_SIZE
  refine ⟨low,whole,high,?_⟩
  unfold PAGE_SIZE sizeof_page_info at *
  omega

theorem arenaFloor_cases (p : Platform) : arenaFloor p = managedStart p ∨
    (arenaFloor p = dtbFloor p ∧ dtbFloor p < p.ram_end) ∨ arenaFloor p = BUDDY_BASE := by
  unfold arenaFloor
  generalize managedStart p = start
  generalize dtbFloor p = floor
  generalize BUDDY_BASE = staging
  split_ifs <;> omega

theorem managedStart_le_arenaFloor (p : Platform) : managedStart p ≤ arenaFloor p :=
  (le_max_left _ _).trans (le_max_left _ _)

/-- The window reaches close to the floor it asks for. -/
theorem dtb_window_near_floor (p : Platform) : dtbStop p < p.dtb_address + dtb_size + PAGE_SIZE := by
  have up := align_up_le (min (p.dtb_address + dtb_size) (managedEnd p)) PAGE_SIZE
  have low := min_le_left (p.dtb_address + dtb_size) (managedEnd p)
  have stopIs : dtbStop p = align_up (min (p.dtb_address + dtb_size) (managedEnd p)) PAGE_SIZE := rfl
  rw [← stopIs] at up
  unfold PAGE_SIZE at *
  omega

variable {base : Nat}

/-- A clear arena in RAM rules out a floor beyond 32 bits. -/
theorem arenaFloor_narrow (placed : Placed p) (baseIs : base = arenaFloor p % 2 ^ 32 + metadataBytes p)
    (inside : p.ram_start ≤ base)
    (window : p.ram_end ≤ base ∨ p.dtb_address = 0 ∨ p.ram_end ≤ p.dtb_address ∨ p.dtb_address + dtb_size ≤ base) :
    arenaFloor p < 2 ^ 32 := by
  by_contra wide
  have size := p.size_fits
  have endIs : p.ram_end = p.ram_start + p.mem_size := rfl
  obtain ⟨_,_,records,bytes⟩ := metadataBytes_bounds placed
  have bounds := placed.managedEnd_bounds
  have start := placed.managed
  rcases arenaFloor_cases p with floorIs | ⟨floorIs,inRam⟩ | floorIs
  · -- Records of the pages above the floor end in RAM, so the base is below RAM.
    have ends : managedEnd p = managedStart p + managedPages p * PAGE_SIZE := rfl
    have fewer : (managedPages p - dtbPages p) * PAGE_SIZE ≤ managedPages p * PAGE_SIZE :=
      mul_le_mul_right _ (sub_le _ _)
    omega
  · -- The base has dropped far below the window that set the floor.
    rcases placed.dtbFloor_cases with zero | ⟨met,above,_,_,_⟩
    · omega
    have near := dtb_window_near_floor p
    obtain ⟨some,low,high⟩ := met
    unfold PAGE_SIZE at *
    omega
  have : BUDDY_BASE < 2 ^ 32 := by decide
  omega

theorem arena_clear_fits {h : Heap} {m : Memory} (accepted : init_memory p h = some m) (clear : ArenaClear p m) :
    Fits p := by
  obtain ⟨placed,allocator,_,base⟩ := init_memory_eq accepted
  have window : p.ram_end ≤ m.buddy_base ∨ p.dtb_address = 0 ∨ p.ram_end ≤ p.dtb_address ∨
      p.dtb_address + dtb_size ≤ m.buddy_base := by
    have apart := clear.dtb (max m.buddy_base p.dtb_address) (le_max_left _ _)
    have size : 0 < dtb_size := by decide
    generalize dtb_size = size at *
    omega
  have managed : managedStart p < p.ram_end := by
    by_contra full
    -- Without a managed page the base falls back to the bitmap's own address.
    obtain ⟨_,_,_,bitmapIs,bitmapEnd⟩ := reserved_fields p
    have below := placed.below
    have room := placed.managed
    have noRecords : metadataBytes p = 0 := by
      have bound := (metadataBytes_bounds placed).2.2.1
      have none : managedPages p = 0 := by
        unfold managedPages
        rw [Nat.sub_eq_zero_of_le (le_of_not_gt full)]
        exact Nat.zero_div _
      rw [none,Nat.zero_sub,zero_mul] at bound
      exact le_zero.mp bound
    rw [bootBase,if_neg full,noRecords,add_zero] at base
    have inside := clear.inside.1
    have size := p.size_fits
    have endIs : p.ram_end = p.ram_start + p.mem_size := rfl
    have overlap := clear.bitmap (align_up p.linker.free_memory_start PAGE_SIZE)
      (by rw [base]; exact mod_le _ _) below
    rw [allocator,bitmapEnd,bitmapIs] at overlap
    exact overlap ⟨le_rfl,by omega⟩
  rw [bootBase,if_pos managed] at base
  have narrow := arenaFloor_narrow placed base clear.inside.1 window
  rw [mod_eq_of_lt narrow] at base
  have inside := clear.inside.2
  refine ⟨managed,narrow,by omega,?_⟩
  omega

/-- There are no more pages than records. -/
theorem arena_entries (placed : Placed p) (aligned : PAGE_SIZE ∣ base)
    (above : managedStart p ≤ base) (below : base ≤ p.ram_end)
    (window : base = p.ram_end ∨ p.dtb_address = 0 ∨ p.ram_end ≤ p.dtb_address ∨ p.dtb_address + dtb_size ≤ base) :
    (p.ram_end - base) / PAGE_SIZE ≤ managedPages p - dtbPages p := by
  rcases window with last | window
  · rw [last,Nat.sub_self,Nat.zero_div]
    exact Nat.zero_le _
  by_cases met : DtbManaged p
  · obtain ⟨i,n,_,stop,inside,counted⟩ := dtb_pages_managed placed met
    have bounds := placed.managedEnd_bounds
    have before : dtbStop p ≤ base := by
      refine align_up_le_of_dvd (by decide) aligned ((Nat.min_le_left _ _).trans ?_)
      obtain ⟨some,_,high⟩ := met
      omega
    rw [counted]
    refine Nat.le_sub_of_add_le ?_
    have pages : managedPages p = (p.ram_end - managedStart p) / PAGE_SIZE := rfl
    rw [pages,Nat.le_div_iff_mul_le (by decide),Nat.add_mul]
    have := Nat.div_mul_le_self (p.ram_end - base) PAGE_SIZE
    rw [Nat.add_mul] at stop
    omega
  rw [dtbPages,if_neg met,Nat.sub_zero]
  exact Nat.div_le_div_right (by omega)

/-- The arena of an accepted boot is clear, with a record for every page, exactly
    where the inputs fit. -/
theorem arena_clear_iff_fits {p : Platform} {h : Heap} {m : Memory} (accepted : init_memory p h = some m) :
    ArenaClear p m ↔ Fits p := by
  refine ⟨arena_clear_fits accepted,?_⟩
  rintro ⟨managed,narrow,room,window⟩
  obtain ⟨placed,allocator,records,base⟩ := init_memory_eq accepted
  obtain ⟨_,free,_,_,bitmapEnd⟩ := reserved_fields p
  obtain ⟨enough,whole,_,_⟩ := metadataBytes_bounds placed
  have aligned := bootBase_aligned placed
  have low := managedStart_le_arenaFloor p
  have above := placed.start_above
  have fits := p.ram_fits
  rw [bootBase,if_pos managed] at records base aligned
  rw [Nat.mod_eq_of_lt narrow] at records base
  constructor
  · omega
  · rintro x start _ ⟨_,stop⟩
    rw [allocator,bitmapEnd] at stop
    omega
  · rintro x start _ ⟨_,stop⟩
    rw [allocator,free,records] at stop
    omega
  · rintro x start stop some ⟨first,last⟩
    omega
  have distance : wrap (p.ram_end + (wordCount - m.buddy_base)) = p.ram_end - m.buddy_base := by
    have endIs : p.ram_end = p.ram_start + p.mem_size := rfl
    unfold wrap wordCount
    omega
  rw [distance,allocator,free,base]
  exact arena_entries placed (dvd_add aligned whole) (by omega) room (by omega)

end

instance (p : Platform) : Decidable (Fits p) := by unfold Fits; infer_instance

/-- An image of 2 MiB with its heap behind it. -/
def sampleLinker : Linker where
  kernel_phys_end := 0x40200000
  heap_start := 0x40200000
  heap_size := 0x800000
  free_memory_start := 0x40A00000
  image_below_heap := by decide
  heap_below_free := by decide
  free_fits := by decide

/-- 128 MiB of RAM with a device tree at a distance. -/
def samplePlatform (distance : Fin 0x8000000) : Platform where
  linker := sampleLinker
  ram_start := 0x40000000
  mem_size := 0x8000000
  dtb_address := 0x40000000 + distance
  size_fits := by decide
  ram_fits := by decide
  dtb_fits := by unfold wordCount; omega

theorem samplePlatform_accepted (distance : Fin 0x8000000) :
    ∃ m, init_memory (samplePlatform distance) bootHeap = some m := by
  refine init_memory_accepts ⟨?_,?_,?_⟩
    (show init_kernel_heap_region bootHeap 0x40200000 0x800000 = (_,true) from rfl)
  · show 0x40000000 ≤ align_up 0x40A00000 PAGE_SIZE
    decide
  · show align_up 0x40A00000 PAGE_SIZE < 0x40000000 + 0x8000000
    decide
  show align_up 0x40A00000 PAGE_SIZE + ((0x8000000 / PAGE_SIZE + 31) / 32 * 4 + PAGE_SIZE - 1) / PAGE_SIZE *
    PAGE_SIZE ≤ 0x40000000 + 0x8000000
  decide

theorem arena_clear_iff_fits_sample :
    ∃ m, init_memory (samplePlatform 0x4000000) bootHeap = some m ∧ ArenaClear (samplePlatform 0x4000000) m := by
  obtain ⟨m,accepted⟩ := samplePlatform_accepted 0x4000000
  exact ⟨m,accepted,(arena_clear_iff_fits accepted).mpr (by decide)⟩

/-- With the device tree in the last MiB the arena covers it. -/
theorem arena_covers_dtb :
    ∃ m, init_memory (samplePlatform 0x7F00000) bootHeap = some m ∧ m.buddy_base ≤ 0x47F00000 ∧
      ¬ ArenaClear (samplePlatform 0x7F00000) m := by
  obtain ⟨m,accepted⟩ := samplePlatform_accepted 0x7F00000
  have base := (init_memory_eq accepted).2.2.2
  refine ⟨m,accepted,?_,?_⟩
  · rw [base]
    decide
  intro clear
  exact absurd (arena_clear_fits accepted clear) (by decide)

end ArmOS.Physical

