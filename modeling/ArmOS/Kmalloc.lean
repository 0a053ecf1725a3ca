import ArmOS.FreeLists
import ArmOS.Runs
import ArmOS.Words

/-!
The kernel heap of `kernel/memory/kmalloc.c`: a free list whose links lie in the
free memory itself, and headers in front of the allocations. Memory is 64-bit words
at byte addresses, so that a header and a link at one address are the same words.
-/
namespace ArmOS.Kmalloc
open Words Chains FreeLists Function Nat

/-- The globals of `kmalloc.c` and the memory they point into. -/
structure Heap where
  (heap_base heap_size : Nat)
  heap_initialized : Bool
  free_list : Nat
  mem : Memory

/-- The globals before the heap is set up, over cleared memory. -/
def bootHeap : Heap := ⟨0,0,false,0,fun _ => 0⟩

/-- `sizeof(alloc_header_t)`: two canaries around a `size_t`. -/
def sizeof_alloc_header : Nat := 24
/-- `sizeof(free_block_t)`: size and link. -/
def sizeof_free_block : Nat := 16
def ALLOC_MAGIC_START : Nat := 0xDEADBEEF
def ALLOC_MAGIC_END : Nat := 0xCAFEBABE

/-- A 32-bit store into the low half of a word. -/
def store32 (m : Memory) (addr value : Nat) : Memory :=
  update m addr (m addr / 2 ^ 32 * 2 ^ 32 + value % 2 ^ 32)
/-- A 32-bit load from the low half of a word. -/
def load32 (m : Memory) (addr : Nat) : Nat := m addr % 2 ^ 32

/-- `memset(base, 0, length)` for an aligned base. -/
def clear (m : Memory) (base length : Nat) : Memory := fun a =>
  if base ≤ a ∧ a + 8 ≤ base + length then 0
  else if base ≤ a ∧ a < base + length then m a / 2 ^ (8 * (base + length - a)) * 2 ^ (8 * (base + length - a))
  else m a

/-- `init_kernel_heap_region`, and whether it was accepted. -/
def init_kernel_heap_region (h : Heap) (base size : Nat) : Heap × Bool :=
  let aligned_base := align_up base 8
  if base = 0 ∨ aligned_base < base then (h,false)
  else
    let alignment_loss := aligned_base - base
    if size ≤ alignment_loss then (h,false)
    else
      let h := { h with heap_base := aligned_base, heap_size := size - alignment_loss }
      if h.heap_size < 64 * 1024 then (h,false)
      else
        let m := clear h.mem h.heap_base h.heap_size
        let m := update m h.heap_base (h.heap_size - sizeof_free_block)
        let m := update m (h.heap_base + 8) 0
        ({ h with mem := m, free_list := h.heap_base, heap_initialized := true },true)

/-- `prev->next = target`, or the head of the list. -/
def link (h : Heap) (prev target : Nat) : Heap :=
  if prev ≠ 0 then { h with mem := update h.mem (prev + 8) target } else { h with free_list := target }

/-- The first block of `total_size` bytes with its predecessor; the outer `none` is out of fuel. -/
def first_fit (m : Memory) (total_size : Nat) : Nat → Nat → Nat → Option (Option (Nat × Nat))
  | 0, _, _ => none
  | fuel + 1, prev, current =>
    if current = 0 then some none
    else if total_size ≤ m current then some (some (prev,current))
    else first_fit m total_size fuel current (m (current + 8))

/-- Cuts `current` in two; the upper part takes its place. -/
def split_block (h : Heap) (prev current total_size : Nat) : Heap :=
  let new_block := wrap (current + total_size)
  let m := update h.mem new_block (h.mem current - total_size)
  let m := update m (new_block + 8) (m (current + 8))
  let m := update m (current + 8) 0
  let m := update m current total_size
  link { h with mem := m } prev new_block

def write_header (m : Memory) (header size : Nat) : Memory :=
  let m := store32 m header ALLOC_MAGIC_START
  let m := update m (header + 8) size
  store32 m (header + 16) ALLOC_MAGIC_END

/-- `kmalloc`: the pointer, 0 for `NULL`; `none` does not return. -/
def kmalloc (h : Heap) (size : Nat) : Option (Heap × Nat) :=
  if h.heap_initialized = false ∨ size = 0 then some (h,0)
  else
    let size := align_up size 8
    let total_size := wrap (sizeof_alloc_header + size)
    if h.free_list % 8 ≠ 0 then some (h,0)
    else
      match first_fit h.mem total_size h.heap_size 0 h.free_list with
      | none => none
      | some none => some (h,0)
      | some (some (prev,current)) =>
        let h :=
          if wrap (total_size + sizeof_free_block + 8) ≤ h.mem current then split_block h prev current total_size
          else link h prev (h.mem (current + 8))
        let h := { h with mem := write_header h.mem current size }
        let raw_ptr := wrap (current + sizeof_alloc_header)
        let aligned_ptr := align_up raw_ptr 8
        if aligned_ptr ≠ raw_ptr then some (h,0) else some (h,aligned_ptr)

/-- The loop of `kfree`: the blocks around `block`. -/
def find_place (m : Memory) (block : Nat) : Nat → Nat → Nat → Option (Nat × Nat)
  | 0, _, _ => none
  | fuel + 1, prev, current =>
    if current ≠ 0 ∧ current < block then find_place m block fuel current (m (current + 8))
    else some (prev,current)

def merge_next (h : Heap) (block current : Nat) : Heap :=
  if current ≠ 0 ∧ wrap (block + h.mem block) = current then
    let m := update h.mem block (wrap (h.mem block + h.mem current))
    { h with mem := update m (block + 8) (m (current + 8)) }
  else { h with mem := update h.mem (block + 8) current }

/-- Joins a freed block with the one before it, or links it. -/
def merge_prev (h : Heap) (prev block : Nat) : Heap :=
  if prev ≠ 0 ∧ wrap (prev + h.mem prev) = block then
    let m := update h.mem prev (wrap (h.mem prev + h.mem block))
    { h with mem := update m (prev + 8) (m (block + 8)) }
  else link h prev block

/-- `kfree`; `none` is a call that does not return. -/
def kfree (h : Heap) (ptr : Nat) : Option Heap :=
  if ptr = 0 ∨ h.heap_initialized = false then some h
  else
    let header := wrap (ptr + (wordCount - sizeof_alloc_header))
    if load32 h.mem header ≠ ALLOC_MAGIC_START ∨ load32 h.mem (header + 16) ≠ ALLOC_MAGIC_END then some h
    else
      let total_size := wrap (sizeof_alloc_header + align_up (h.mem (header + 8)) 8)
      let block := header
      let m := update h.mem block total_size
      let m := update m (block + 8) 0
      let h := { h with mem := m }
      match find_place h.mem block h.heap_size 0 h.free_list with
      | none => none
      | some (prev,current) => some (merge_prev (merge_next h block current) prev block)

/-! ### The two walks -/

variable {m m' : Memory} {p fuel low high : Nat} {before : List Node} {total prev : Nat}

theorem first_fit_none {free : List Node} (list : Segment m p free 0) (small : ∀ b ∈ free, b.value < total)
    (enough : free.length < fuel) : first_fit m total fuel prev p = some none := by
  induction free generalizing p prev fuel with
  | nil =>
    obtain ⟨fuel,rfl⟩ := exists_eq_succ_of_ne_zero enough.ne'
    have zero : p = 0 := list
    simp [first_fit,zero]
  | cons b rest ih =>
    obtain ⟨fuel,rfl⟩ := exists_eq_succ_of_ne_zero (zero_lt_of_lt enough).ne'
    obtain ⟨rfl,nonzero,value,tail⟩ := list
    grind [first_fit]

variable {after : List Node} {b : Node}

theorem first_fit_some
    (list : Segment m p (before ++ b :: after) 0) (small : ∀ c ∈ before, c.value < total) (fits : total ≤ b.value)
    (enough : before.length < fuel) : first_fit m total fuel prev p = some (some (lastAddr prev before,b.addr)) := by
  induction before generalizing p prev fuel with
  | nil =>
    obtain ⟨fuel,rfl⟩ := exists_eq_succ_of_ne_zero enough.ne'
    obtain ⟨rfl,nonzero,value,_⟩ := list
    rw [first_fit,if_neg nonzero,if_pos (by omega)]
    rfl
  | cons c rest ih =>
    obtain ⟨fuel,rfl⟩ := exists_eq_succ_of_ne_zero (zero_lt_of_lt enough).ne'
    obtain ⟨rfl,nonzero,value,tail⟩ := list
    have tooSmall := small c (by simp)
    rw [first_fit,if_neg nonzero,if_neg (by omega)]
    exact ih tail (fun d member => small d (by simp [member])) (by simpa using enough)

theorem find_place_eq {block : Nat} (prev : Nat)
    (list : Segment m p (before ++ after) 0) (below : ∀ c ∈ before, c.addr < block)
    (above : ∀ c, after.head? = some c → block ≤ c.addr) (enough : before.length < fuel) :
    ∃ current, Segment m current after 0 ∧ find_place m block fuel prev p = some (lastAddr prev before,current) := by
  induction before generalizing p prev fuel with
  | nil =>
    obtain ⟨fuel,rfl⟩ := exists_eq_succ_of_ne_zero enough.ne'
    refine ⟨p,list,?_⟩
    have stop : ¬ (p ≠ 0 ∧ p < block) := by
      cases after with
      | nil =>
        have zero : p = 0 := list
        simp [zero]
      | cons c rest =>
        obtain ⟨rfl,_⟩ := list
        have := above c rfl
        omega
    rw [find_place,if_neg stop]
    rfl
  | cons c rest ih =>
    obtain ⟨fuel,rfl⟩ := exists_eq_succ_of_ne_zero (zero_lt_of_lt enough).ne'
    obtain ⟨rfl,nonzero,value,tail⟩ := list
    obtain ⟨current,rest,found⟩ := ih c.addr tail (fun d member => below d (by simp [member]))
      (by simpa using enough)
    exact ⟨current,rest,by rw [find_place,if_pos ⟨nonzero,below c (by simp)⟩]; exact found⟩

/-! ### Stores into one block -/

/-- `m'` differs from `m` only in words from `low` to `high`. -/
def SameOutside (m m' : Memory) (low high : Nat) : Prop := ∀ a, a < low ∨ high ≤ a → m' a = m a
theorem SameOutside.refl (m : Memory) (low high : Nat) : SameOutside m m low high := fun _ _ => rfl
theorem SameOutside.trans {m'' : Memory} (first : SameOutside m m' low high)
    (second : SameOutside m' m'' low high) : SameOutside m m'' low high :=
  fun a outside => (second a outside).trans (first a outside)

section
variable (same : SameOutside m m' low high)
include same

variable {a value : Nat}

theorem SameOutside.update
    (start : low ≤ a) (stop : a < high) : SameOutside m (update m' a value) low high := by
  intro b outside
  rw [update_of_ne (by omega)]
  exact same b outside

theorem SameOutside.store32 (start : low ≤ a) (stop : a < high) :
    SameOutside m (store32 m' a value) low high := same.update start stop
theorem SameOutside.mono {low' high' : Nat} (start : low' ≤ low) (stop : high ≤ high') : SameOutside m m' low' high' :=
  fun a outside => same a (by omega)

end

/-- A node apart from the changed words is as it was. -/
theorem SameOutside.segment {q : Nat} {nodes : List Node}
    (same : SameOutside m m' b.addr (b.addr + b.value)) (apart : ∀ c ∈ nodes, Apart c b)
    (large : ∀ c ∈ nodes, 16 ≤ c.value) (list : Segment m p nodes q) : Segment m' p nodes q := by
  refine segment_frame ?_ list
  intro c member
  have := apart c member
  have := large c member
  unfold Apart at *
  exact ⟨same _ (by omega),same _ (by omega)⟩

theorem write_header_same (m : Memory) (header size : Nat) :
    SameOutside m (write_header m header size) header (header + sizeof_alloc_header) := by
  unfold write_header sizeof_alloc_header
  exact (((SameOutside.refl m _ _).store32 (by omega) (by omega)).update (by omega) (by omega)).store32
    (by omega) (by omega)

/-- The header words that `kfree` reads. -/
def HeaderOk (m : Memory) (header size : Nat) : Prop :=
  load32 m header = ALLOC_MAGIC_START ∧ m (header + 8) = size ∧ load32 m (header + 16) = ALLOC_MAGIC_END
theorem load32_store32 (m : Memory) (a value : Nat) (fits : value < 2 ^ 32) : load32 (store32 m a value) a = value := by
  unfold load32 store32
  rw [update_self]
  omega

theorem write_header_ok (m : Memory) (header size : Nat) : HeaderOk (write_header m header size) header size := by
  unfold write_header HeaderOk
  refine ⟨?_,?_,?_⟩
  · have away : load32 (store32 (update (store32 m header ALLOC_MAGIC_START) (header + 8) size) (header + 16)
        ALLOC_MAGIC_END) header = load32 (store32 m header ALLOC_MAGIC_START) header := by
      simp [load32,store32]
    rw [away,load32_store32 _ _ _ (by decide)]
  · simp [store32]
  · exact load32_store32 _ _ _ (by decide)

theorem HeaderOk.frame {header size : Nat} (ok : HeaderOk m header size)
    (same : ∀ a, header ≤ a → a < header + sizeof_alloc_header → m' a = m a) : HeaderOk m' header size := by
  unfold sizeof_alloc_header at same
  obtain ⟨start,middle,stop⟩ := ok
  refine ⟨?_,?_,?_⟩
  · rw [← start,load32,load32,same _ (by omega) (by omega)]
  · rw [← middle,same _ (by omega) (by omega)]
  · rw [← stop,load32,load32,same _ (by omega) (by omega)]

/-! ### Relinking -/

theorem link_segment {h : Heap} {r target : Nat} (ordered : before.Pairwise Below)
    (list : Segment h.mem h.free_list before r) :
    Segment (link h (lastAddr 0 before) target).mem (link h (lastAddr 0 before) target).free_list before target := by
  rcases List.eq_nil_or_concat before with rfl | ⟨init,c,rfl⟩
  · simp [link,lastAddr,Segment]
  rw [List.concat_eq_append] at *
  have nonzero : c.addr ≠ 0 := by
    obtain ⟨s,_,last⟩ := (segment_append _ _ _ _ _).mp list
    exact last.2.1
  rw [lastAddr_concat,link,if_pos nonzero]
  refine segment_retarget target ?_ list
  intro d member
  have := (List.pairwise_append.mp ordered).2.2 d member c (by simp)
  unfold Below at this
  omega

theorem link_same (h : Heap) (before : List Node) (target : Nat) :
    (∀ a, (∀ c ∈ before, a ≠ c.addr + 8) → (link h (lastAddr 0 before) target).mem a = h.mem a) ∧
      (link h (lastAddr 0 before) target).heap_base = h.heap_base ∧
      (link h (lastAddr 0 before) target).heap_size = h.heap_size ∧
      (link h (lastAddr 0 before) target).heap_initialized = h.heap_initialized := by
  unfold link
  split
  · rename_i nonzero
    refine ⟨?_,rfl,rfl,rfl⟩
    intro a other
    have nonempty : before ≠ [] := by
      rintro rfl
      exact nonzero rfl
    obtain ⟨c,member,lastIs⟩ := lastAddr_mem 0 nonempty
    have := other c member
    rw [lastIs]
    exact update_of_ne this _ _
  · exact ⟨fun _ _ => rfl,rfl,rfl,rfl⟩

end ArmOS.Kmalloc

