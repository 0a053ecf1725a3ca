import ArmOS.Physical
import ArmOS.Spans

/-!
The page allocator of `kernel/memory/physical.c`. Every page has a record with the
start and length of its block; `buddy_alloc` takes the first run of free pages that
is long enough, and a block is freed from any of its pages.
-/
namespace ArmOS.Buddy
open Words Spans Function Nat
open Physical (Allocator PAGE_SIZE Platform Memory)

/-- `struct page_info`. -/
structure PageInfo where
  used : Bool
  size : Nat
  reserved : Bool
  (refcount start : Nat)
deriving DecidableEq, Repr

def PageInfo.zero : PageInfo := ⟨false,0,false,0,0⟩
abbrev Content := Nat → Nat

/-- The allocator's globals, the records by page index, and the pages. -/
structure Arena where
  phys_alloc : Allocator
  (buddy_base page_infos ram_start ram_end : Nat)
  mmu_enabled : Bool
  direct_map_size : Nat
  infos : Nat → PageInfo
  content : Nat → Content

def phys_in_direct_map (b : Arena) (paddr : Nat) : Bool :=
  wrap (paddr + (wordCount - b.ram_start)) < b.direct_map_size

/-- Whether `page_info_array` finds the records. -/
def page_info_array (b : Arena) : Bool :=
  b.page_infos ≠ 0 && (!b.mmu_enabled || phys_in_direct_map b b.page_infos)

/-- The number of pages, as every function computes it. -/
def max_pages (b : Arena) : Nat := wrap32 (wrap (b.ram_end + (wordCount - b.buddy_base)) / PAGE_SIZE)
def account_buddy_alloc (a : Allocator) (pages : Nat) : Allocator :=
  let free_pages := if a.free_pages < pages then 0 else a.free_pages - pages
  { a with free_pages := free_pages, pages_allocated := wrap32 (a.pages_allocated + pages) }
def account_buddy_free (a : Allocator) (pages : Nat) : Allocator :=
  let free_pages :=
    if wrap32 (a.total_pages + (2 ^ 32 - a.free_pages)) < pages then a.total_pages else a.free_pages + pages
  { a with free_pages := free_pages, pages_freed := wrap32 (a.pages_freed + pages) }

/-- A loop over `count` records from `index` on. -/
def update_infos (set : PageInfo → PageInfo) (infos : Nat → PageInfo) (index : Nat) : Nat → Nat → PageInfo
  | 0 => infos
  | count + 1 =>
    let infos := update_infos set infos index count
    update infos (index + count) (set (infos (index + count)))

def is_free (b : Arena) (index : Nat) : Bool := !(b.infos index).used && !(b.infos index).reserved

/-- `memset` of the pages, skipped outside the direct map. -/
def clear_pages (b : Arena) (addr run_start num_block : Nat) : Nat → Content :=
  if b.mmu_enabled ∧ phys_in_direct_map b addr = false then b.content
  else fun i => if run_start ≤ i ∧ i < run_start + num_block then fun _ => 0 else b.content i

/-- `buddy_alloc`; `none` is `NULL`. -/
def buddy_alloc (b : Arena) (num_block : Nat) : Option (Arena × Nat) :=
  if num_block = 0 ∨ max_pages b < num_block then none
  else if page_info_array b = false then none
  else
    match scan (is_free b) num_block (max_pages b) 0 0 0 with
    | none => none
    | some run_start =>
      let addr := b.buddy_base + run_start * PAGE_SIZE
      let set := fun info : PageInfo => { info with used := true, start := addr, size := num_block, refcount := 1 }
      some ({ b with
        infos := update_infos set b.infos run_start num_block
        phys_alloc := account_buddy_alloc b.phys_alloc num_block
        content := clear_pages b addr run_start num_block },addr)

def buddy_free_locked (b : Arena) (addr : Nat) : Arena :=
  if addr = 0 ∨ addr % PAGE_SIZE ≠ 0 ∨ addr < b.buddy_base ∨ b.ram_end ≤ addr then b
  else if page_info_array b = false then b
  else
    let index := (addr - b.buddy_base) / PAGE_SIZE
    let block_size := (b.infos index).size
    if block_size = 0 ∨ max_pages b < block_size then b
    else
      let start_addr := (b.infos index).start
      let index := if start_addr ≠ addr then wrap (start_addr + (wordCount - b.buddy_base)) / PAGE_SIZE else index
      let set := fun info : PageInfo => { info with used := false, size := 0, refcount := 0 }
      let infos := update_infos set b.infos index block_size
      { b with
        infos := update infos index { infos index with start := 0, size := 0 }
        phys_alloc := account_buddy_free b.phys_alloc block_size }

def buddy_free (b : Arena) (ptr : Nat) : Arena := buddy_free_locked b ptr

/-- The index of the record that `buddy_page_info` points to. -/
def buddy_page_info (b : Arena) (addr : Nat) : Option Nat :=
  if page_info_array b = false then none
  else if addr = 0 ∨ addr % PAGE_SIZE ≠ 0 ∨ addr < b.buddy_base ∨ b.ram_end ≤ addr then none
  else
    let index := wrap32 ((addr - b.buddy_base) / PAGE_SIZE)
    if max_pages b ≤ index ∨ (b.infos index).reserved ∨ (b.infos index).used = false then none else some index

def setRefcount (b : Arena) (index refcount : Nat) : Arena :=
  { b with infos := update b.infos index { b.infos index with refcount := refcount } }

def page_ref_inc (b : Arena) (page_addr : Nat) : Arena × Int :=
  match buddy_page_info b page_addr with
  | none => (b,-1)
  | some index =>
    if (b.infos index).refcount = 0xFFFF then (b,-1)
    else (setRefcount b index ((b.infos index).refcount + 1),0)

/-- `page_ref_dec`; a page without references stays allocated. -/
def page_ref_dec (b : Arena) (page_addr : Nat) : Arena × Nat :=
  match buddy_page_info b page_addr with
  | none => (b,0)
  | some index =>
    if 0 < (b.infos index).refcount then
      (setRefcount b index ((b.infos index).refcount - 1),(b.infos index).refcount - 1)
    else (b,0)

def free_page (b : Arena) (page_addr : Nat) : Arena :=
  if page_addr = 0 then b
  else
    match buddy_page_info b page_addr with
    | none => b
    | some index =>
      let refcount := (b.infos index).refcount - 1
      let b := if 0 < (b.infos index).refcount then setRefcount b index refcount else b
      if refcount = 0 then buddy_free_locked b page_addr else b

/-- The allocator after `init_memory`, with cleared records. -/
def start (p : Platform) (m : Memory) (mmu_enabled : Bool) (direct_map_size : Nat) (stale : Nat → PageInfo)
    (content : Nat → Content) : Arena where
  phys_alloc := m.phys_alloc
  buddy_base := m.buddy_base
  page_infos := m.page_infos
  ram_start := p.ram_start
  ram_end := p.ram_end
  mmu_enabled := mmu_enabled
  direct_map_size := direct_map_size
  infos := fun i => if i < m.phys_alloc.free_pages then .zero else stale i
  content := content

/-! ### The loops over records -/

theorem update_infos_apply (set : PageInfo → PageInfo) (infos : Nat → PageInfo) (index count i : Nat) :
    update_infos set infos index count i = if (Span.mk index count).Has i then set (infos i) else infos i := by
  induction count with
  | zero =>
    have outside : ¬ (Span.mk index 0).Has i := by
      rintro ⟨low,high⟩
      simp only at low high
      omega
    rw [update_infos,if_neg outside]
  | succ count ih =>
    simp only [update_infos]
    grind [Span.Has]

/-! ### The invariant -/

/-- The allocator holds the blocks `live`; free and used make `sum`. -/
structure Sound (b : Arena) (live : List Span) (sum : Nat) : Prop where
  records : page_info_array b = true
  base_pos : 0 < b.buddy_base
  base_aligned : PAGE_SIZE ∣ b.buddy_base
  base_below : b.buddy_base ≤ b.ram_end
  addresses : b.ram_end ≤ 2 ^ 52
  few : (b.ram_end - b.buddy_base) / PAGE_SIZE < 2 ^ 32
  partition : Partition (fun i => (b.infos i).used) (max_pages b) live
  recorded : ∀ k ∈ live, ∀ i, k.Has i →
    (b.infos i).start = b.buddy_base + k.first * PAGE_SIZE ∧ (b.infos i).size = k.count
  unused : ∀ i, b.buddy_base + i * PAGE_SIZE < b.ram_end → ((b.infos i).used = false ∨ max_pages b ≤ i) →
    (b.infos i).size = 0
  unreserved : ∀ i, i < max_pages b → (b.infos i).reserved = false
  counted : b.phys_alloc.free_pages + takenCount (fun i => (b.infos i).used) (max_pages b) = sum
  covered : max_pages b ≤ sum
  managed : sum ≤ b.phys_alloc.total_pages ∧ b.phys_alloc.total_pages < 2 ^ 32

section
variable {b : Arena} {live : List Span} {sum : Nat}

section
variable (sound : Sound b live sum)
include sound

theorem Sound.max_pages_eq : max_pages b = (b.ram_end - b.buddy_base) / PAGE_SIZE := by
  have below := sound.base_below
  have addresses := sound.addresses
  have few := sound.few
  have distance : wrap (b.ram_end + (wordCount - b.buddy_base)) = b.ram_end - b.buddy_base := by
    unfold wrap wordCount
    omega
  rw [max_pages,distance,wrap32_of_lt few]

variable {i : Nat}

theorem Sound.page_inside (inside : i < max_pages b) : b.buddy_base + i * PAGE_SIZE + PAGE_SIZE ≤ b.ram_end := by
  rw [sound.max_pages_eq] at inside
  have below := sound.base_below
  have := (le_div_iff_mul_le (show 0 < PAGE_SIZE by decide)).mp (succ_le_of_lt inside)
  rw [succ_mul] at this
  omega

/-- Addresses that pass the checks are those of pages of the arena. -/
theorem Sound.address_cases (addr : Nat) :
    (addr = 0 ∨ addr % PAGE_SIZE ≠ 0 ∨ addr < b.buddy_base ∨ b.ram_end ≤ addr) ∨
      (¬ (addr = 0 ∨ addr % PAGE_SIZE ≠ 0 ∨ addr < b.buddy_base ∨ b.ram_end ≤ addr) ∧
        ∃ i, addr = b.buddy_base + i * PAGE_SIZE ∧ (addr - b.buddy_base) / PAGE_SIZE = i ∧ addr < b.ram_end) := by
  by_cases refused : addr = 0 ∨ addr % PAGE_SIZE ≠ 0 ∨ addr < b.buddy_base ∨ b.ram_end ≤ addr
  · exact .inl refused
  refine .inr ⟨refused,?_⟩
  have aligned : PAGE_SIZE ∣ addr := dvd_of_mod_eq_zero (by omega)
  obtain ⟨i,addrIs⟩ := steps_between sound.base_aligned aligned (by omega)
  refine ⟨i,addrIs,?_,by omega⟩
  rw [addrIs,Nat.add_sub_cancel_left]
  exact Nat.mul_div_cancel _ (by decide)

theorem Sound.address_accepted (inside : i < max_pages b) :
    ¬ (b.buddy_base + i * PAGE_SIZE = 0 ∨ (b.buddy_base + i * PAGE_SIZE) % PAGE_SIZE ≠ 0 ∨
      b.buddy_base + i * PAGE_SIZE < b.buddy_base ∨ b.ram_end ≤ b.buddy_base + i * PAGE_SIZE) := by
  have last := sound.page_inside inside
  have base := sound.base_pos
  have aligned : (b.buddy_base + i * PAGE_SIZE) % PAGE_SIZE = 0 :=
    mod_eq_zero_of_dvd (dvd_add sound.base_aligned (dvd_mul_left _ _))
  have page : 0 < PAGE_SIZE := by decide
  omega

/-- The record that an accepted address leads to. -/
theorem Sound.page_info_at {addr : Nat}
    (accepted : ¬ (addr = 0 ∨ addr % PAGE_SIZE ≠ 0 ∨ addr < b.buddy_base ∨ b.ram_end ≤ addr))
    (index : (addr - b.buddy_base) / PAGE_SIZE = i) : buddy_page_info b addr =
      if max_pages b ≤ i ∨ (b.infos i).reserved ∨ (b.infos i).used = false then none else some i := by
  have few := sound.few
  have last : i ≤ (b.ram_end - b.buddy_base) / PAGE_SIZE := by
    rw [← index]
    exact Nat.div_le_div_right (by omega)
  rw [buddy_page_info,if_neg (by simp [sound.records]),if_neg accepted,index,wrap32_of_lt (by omega)]

theorem Sound.page_info_some (inside : i < max_pages b)
    (used : (b.infos i).used = true) : buddy_page_info b (b.buddy_base + i * PAGE_SIZE) = some i := by
  have index : (b.buddy_base + i * PAGE_SIZE - b.buddy_base) / PAGE_SIZE = i := by
    rw [Nat.add_sub_cancel_left]
    exact Nat.mul_div_cancel _ (by decide)
  rw [sound.page_info_at (sound.address_accepted inside) index]
  simp [sound.unreserved i inside,used,inside]

theorem Sound.page_info_cases (addr : Nat) :
    buddy_page_info b addr = none ∨ ∃ i, i < max_pages b ∧ (b.infos i).used = true ∧
      addr = b.buddy_base + i * PAGE_SIZE ∧ buddy_page_info b addr = some i := by
  rcases sound.address_cases addr with refused | ⟨accepted,i,addrIs,index,_⟩
  · left
    unfold buddy_page_info
    rw [if_neg (by simp [sound.records]),if_pos refused]
  rw [sound.page_info_at accepted index]
  split
  · exact .inl rfl
  · rename_i usable
    simp only [not_or,not_le,Bool.not_eq_false] at usable
    exact .inr ⟨i,usable.1,usable.2.2,addrIs,rfl⟩

end

/-! ### Allocation -/

def taken (b : Arena) (k : Span) : Arena :=
  let addr := b.buddy_base + k.first * PAGE_SIZE
  { b with
    infos := fun i =>
      if k.Has i then { b.infos i with used := true, start := addr, size := k.count, refcount := 1 } else b.infos i
    phys_alloc := account_buddy_alloc b.phys_alloc k.count
    content := clear_pages b addr k.first k.count }

theorem buddy_alloc_found {n r : Nat} (positive : 0 < n) (fits : n ≤ max_pages b) (records : page_info_array b = true)
    (found : scan (is_free b) n (max_pages b) 0 0 0 = some r) :
    buddy_alloc b n = some (taken b ⟨r,n⟩,b.buddy_base + r * PAGE_SIZE) := by
  unfold buddy_alloc
  rw [if_neg (by omega),if_neg (by simp [records]),found]
  simp only [taken,Option.some.injEq,Prod.mk.injEq,and_true]
  congr 1
  funext i
  exact update_infos_apply _ _ _ _ _

theorem taken_used (b : Arena) (k : Span) (i : Nat) :
    ((taken b k).infos i).used = true ↔ (b.infos i).used = true ∨ k.Has i := by
  by_cases has : k.Has i
  · simp [taken,has]
  · simp [taken,has]

section
variable (sound : Sound b live sum)
include sound

theorem Sound.taken {k : Span} (full : 0 < k.count) (inside : k.first + k.count ≤ max_pages b)
    (free : ∀ i, k.Has i → (b.infos i).used = false) : Sound (taken b k) (k :: live) sum := by
  have used := taken_used b k
  have away : ∀ i, ¬ k.Has i → (Buddy.taken b k).infos i = b.infos i := by
    intro i outside
    simp [Buddy.taken,outside]
  have count := takenCount_add inside free (fun i _ => used i)
  have counted := sound.counted
  have covered := sound.covered
  have bound := takenCount_le (fun i => ((Buddy.taken b k).infos i).used) (max_pages b)
  refine { sound with partition := ?_, recorded := ?_, unused := ?_, unreserved := ?_, counted := ?_, managed := ?_ }
  · exact sound.partition.add full inside free (fun i _ => used i)
  · intro j member i has
    rcases List.mem_cons.mp member with rfl | listed
    · simp [Buddy.taken,has]
    have outside : ¬ k.Has i := by
      intro shared
      have below : i < max_pages b := by
        have := shared.2
        omega
      have before := (sound.partition.taken_iff i below).mpr ⟨j,listed,has⟩
      simp only [free i shared] at before
      cases before
    rw [away i outside]
    exact sound.recorded j listed i has
  · intro i low unused
    have outside : ¬ k.Has i := by
      intro shared
      rcases unused with unused | beyond
      · have := (used i).mpr (.inr shared)
        rw [unused] at this
        cases this
      have : max_pages b ≤ i := beyond
      have := shared.2
      omega
    rw [away i outside] at unused ⊢
    exact sound.unused i low unused
  · intro i low
    by_cases has : k.Has i
    · simpa [Buddy.taken,has] using sound.unreserved i low
    rw [away i has]
    exact sound.unreserved i low
  · have enough : ¬ b.phys_alloc.free_pages < k.count := by omega
    show (account_buddy_alloc b.phys_alloc k.count).free_pages +
      takenCount (fun i => ((Buddy.taken b k).infos i).used) (max_pages b) = sum
    simp only [account_buddy_alloc,enough,if_false]
    omega
  · exact sound.managed

theorem Sound.is_free_iff {i : Nat} (inside : i < max_pages b) : is_free b i = true ↔ (b.infos i).used = false := by
  simp [is_free,sound.unreserved i inside]

theorem Sound.alloc_some {n addr : Nat} {b' : Arena} (allocated : buddy_alloc b n = some (b',addr)) :
    ∃ r, addr = b.buddy_base + r * PAGE_SIZE ∧ 0 < n ∧ r + n ≤ max_pages b ∧
      (∀ i, (Span.mk r n).Has i → (b.infos i).used = false) ∧ b' = Buddy.taken b ⟨r,n⟩ ∧
      Sound b' (⟨r,n⟩ :: live) sum := by
  have sized : ¬ (n = 0 ∨ max_pages b < n) := by
    intro refused
    rw [buddy_alloc,if_pos refused] at allocated
    cases allocated
  have positive : 0 < n := by omega
  cases found : scan (is_free b) n (max_pages b) 0 0 0 with
  | none =>
    rw [buddy_alloc,if_neg sized,if_neg (by simp [sound.records]),found] at allocated
    cases allocated
  | some r =>
    rw [buddy_alloc_found positive (by omega) sound.records found] at allocated
    cases allocated
    obtain ⟨inside,free⟩ := scan_some (Scanned.start positive) found
    have unused : ∀ i, (Span.mk r n).Has i → (b.infos i).used = false := by
      intro i has
      exact (sound.is_free_iff (by have := has.2; simp only at this; omega)).mp (free i has)
    exact ⟨r,rfl,positive,by omega,unused,rfl,sound.taken positive (by simp only; omega) unused⟩

/-- An allocation fails only without a long enough free run. -/
theorem Sound.alloc_none {n : Nat} (positive : 0 < n) (failed : buddy_alloc b n = none) :
    ∀ r, r + n ≤ max_pages b → ∃ i, (Span.mk r n).Has i ∧ (b.infos i).used = true := by
  intro r inside
  unfold buddy_alloc at failed
  rw [if_neg (by omega),if_neg (by simp [sound.records])] at failed
  split at failed
  · rename_i missing
    have closed := scan_none (Scanned.start positive) missing r (by omega)
    by_contra none
    refine closed ?_
    intro i has
    rw [sound.is_free_iff (by have := has.2; simp only at this; omega)]
    cases used : (b.infos i).used with
    | false => rfl
    | true => exact absurd ⟨i,has,used⟩ none
  · cases failed

end

/-! ### Release -/

def released (b : Arena) (k : Span) : Arena :=
  { b with
    infos := fun i =>
      if k.Has i then
        { b.infos i with used := false, size := 0, refcount := 0, start := if i = k.first then 0 else (b.infos i).start }
      else b.infos i
    phys_alloc := account_buddy_free b.phys_alloc k.count }

theorem Sound.released {k : Span} (sound : Sound b live sum) (member : k ∈ live) :
    Sound (released b k) (live.filter (fun j => ((released b k).infos j.first).used)) sum := by
  have used : ∀ i, ((Buddy.released b k).infos i).used = true ↔ (b.infos i).used = true ∧ ¬ k.Has i := by
    intro i
    by_cases has : k.Has i
    · simp [Buddy.released,has]
    · simp [Buddy.released,has]
  have away : ∀ i, ¬ k.Has i → (Buddy.released b k).infos i = b.infos i := by
    intro i outside
    simp [Buddy.released,outside]
  have inside := sound.partition.inside k member
  have held : ∀ i, k.Has i → (b.infos i).used = true := by
    intro i has
    have below : i < max_pages b := by
      have := has.2
      omega
    exact (sound.partition.taken_iff i below).mpr ⟨k,member,has⟩
  have count := @takenCount_add (fun i => ((Buddy.released b k).infos i).used) (fun i => (b.infos i).used) _ k inside
    (by
      grind)
    (by
      grind)
  have counted := sound.counted
  have managed := sound.managed
  refine { sound with partition := ?_, recorded := ?_, unused := ?_, unreserved := ?_, counted := ?_, managed := ?_ }
  · exact sound.partition.remove member (fun i _ => used i)
  · intro j kept i has
    obtain ⟨listed,still⟩ := List.mem_filter.mp kept
    have outside : ¬ k.Has i := by
      intro shared
      have same := sound.partition.eq_of_has listed member has shared
      subst same
      exact ((used _).mp still).2 (Span.has_first (sound.partition.full j listed))
    rw [away i outside]
    exact sound.recorded j listed i has
  · intro i low unused
    by_cases has : k.Has i
    · simp [Buddy.released,has]
    rw [away i has] at unused ⊢
    exact sound.unused i low unused
  · intro i low
    by_cases has : k.Has i
    · simpa [Buddy.released,has] using sound.unreserved i low
    rw [away i has]
    exact sound.unreserved i low
  · have room : ¬ wrap32 (b.phys_alloc.total_pages + (2 ^ 32 - b.phys_alloc.free_pages)) < k.count := by
      unfold wrap32
      omega
    show (account_buddy_free b.phys_alloc k.count).free_pages +
      takenCount (fun i => ((Buddy.released b k).infos i).used) (max_pages b) = sum
    simp only [account_buddy_free,room,if_false]
    omega
  · exact managed

theorem Sound.free_locked_used {i : Nat} (sound : Sound b live sum) (inside : i < max_pages b)
    (used : (b.infos i).used = true) :
    ∃ k ∈ live, k.Has i ∧ buddy_free_locked b (b.buddy_base + i * PAGE_SIZE) = Buddy.released b k := by
  obtain ⟨k,member,has⟩ := (sound.partition.taken_iff i inside).mp used
  obtain ⟨startIs,sizeIs⟩ := sound.recorded k member i has
  have full := sound.partition.full k member
  have fits := sound.partition.inside k member
  have index : (b.buddy_base + i * PAGE_SIZE - b.buddy_base) / PAGE_SIZE = i := by
    rw [Nat.add_sub_cancel_left]
    exact Nat.mul_div_cancel _ (by decide)
  have first : (if b.buddy_base + k.first * PAGE_SIZE ≠ b.buddy_base + i * PAGE_SIZE then
      wrap (b.buddy_base + k.first * PAGE_SIZE + (wordCount - b.buddy_base)) / PAGE_SIZE else i) = k.first := by
    have low := sound.page_inside (show k.first < max_pages b by omega)
    have addresses := sound.addresses
    have below := sound.base_below
    have distance : wrap (b.buddy_base + k.first * PAGE_SIZE + (wordCount - b.buddy_base)) = k.first * PAGE_SIZE := by
      unfold wrap wordCount
      omega
    split
    · rw [distance]
      exact Nat.mul_div_cancel _ (by decide)
    · grind [Physical.PAGE_SIZE]
  refine ⟨k,member,has,?_⟩
  unfold buddy_free_locked
  rw [if_neg (sound.address_accepted inside),if_neg (by simp [sound.records])]
  simp only [index,sizeIs,startIs,first]
  rw [if_neg (by omega)]
  unfold Buddy.released
  congr 1
  funext j
  by_cases own : j = k.first
  · subst own
    have hasFirst : (Span.mk k.first k.count).Has k.first := Span.has_first full
    rw [update_self,update_infos_apply,if_pos hasFirst,if_pos hasFirst]
    simp
  rw [update_of_ne own,update_infos_apply]
  by_cases shared : k.Has j
  · rw [if_pos shared,if_pos shared]
    simp [own]
  · rw [if_neg shared,if_neg shared]

variable {addr : Nat}

theorem Sound.free_locked_unused (sound : Sound b live sum)
    (unused : ∀ i, i < max_pages b → addr = b.buddy_base + i * PAGE_SIZE → (b.infos i).used = false) :
    buddy_free_locked b addr = b := by
  unfold buddy_free_locked
  rcases sound.address_cases addr with refused | ⟨accepted,i,addrIs,index,low⟩
  · rw [if_pos refused]
  rw [if_neg accepted,if_neg (by simp [sound.records])]
  have empty : (b.infos i).size = 0 := by
    refine sound.unused i (by omega) ?_
    by_cases inside : i < max_pages b
    · exact .inl (unused i inside addrIs)
    · exact .inr (by omega)
  simp only [index,empty,true_or,if_true]

/-! ### References -/

section
variable (sound : Sound b live sum)
include sound

theorem Sound.setRefcount (index refcount : Nat) : Sound (setRefcount b index refcount) live sum := by
  have same : ∀ i, ((Buddy.setRefcount b index refcount).infos i).used = (b.infos i).used ∧
      ((Buddy.setRefcount b index refcount).infos i).size = (b.infos i).size ∧
      ((Buddy.setRefcount b index refcount).infos i).reserved = (b.infos i).reserved ∧
      ((Buddy.setRefcount b index refcount).infos i).start = (b.infos i).start := by
    intro i
    unfold Buddy.setRefcount
    by_cases own : i = index
    · subst own
      simp
    · simp [update_of_ne own]
  have used : (fun i => ((Buddy.setRefcount b index refcount).infos i).used) = fun i => (b.infos i).used :=
    funext (fun i => (same i).1)
  refine { sound with partition := ?_, recorded := ?_, unused := ?_, unreserved := ?_, counted := ?_ }
  · rw [used]
    exact sound.partition
  · intro k member i has
    rw [(same i).2.2.2,(same i).2.1]
    exact sound.recorded k member i has
  · intro i low unused
    rw [(same i).1] at unused
    rw [(same i).2.1]
    exact sound.unused i low unused
  · intro i low
    rw [(same i).2.2.1]
    exact sound.unreserved i low
  rw [used]
  exact sound.counted

theorem Sound.page_ref_inc (addr : Nat) : Sound (page_ref_inc b addr).1 live sum := by
  unfold Buddy.page_ref_inc
  split
  · exact sound
  split
  · exact sound
  · exact sound.setRefcount _ _

theorem Sound.page_ref_dec (addr : Nat) : Sound (page_ref_dec b addr).1 live sum := by
  unfold Buddy.page_ref_dec
  split
  · exact sound
  split
  · exact sound.setRefcount _ _
  · exact sound

/-- `free_page` drops a reference, and the block with the last one. -/
theorem Sound.free_page_used {i : Nat} (inside : i < max_pages b) (used : (b.infos i).used = true) :
    (1 < (b.infos i).refcount ∧
      free_page b (b.buddy_base + i * PAGE_SIZE) = Buddy.setRefcount b i ((b.infos i).refcount - 1)) ∨
    ((b.infos i).refcount ≤ 1 ∧ ∃ k ∈ live, k.Has i ∧
      (free_page b (b.buddy_base + i * PAGE_SIZE) = Buddy.released b k ∨
        free_page b (b.buddy_base + i * PAGE_SIZE) = Buddy.released (Buddy.setRefcount b i 0) k)) := by
  have base := sound.base_pos
  unfold free_page
  rw [if_neg (by omega),sound.page_info_some inside used]
  by_cases several : 1 < (b.infos i).refcount
  · left
    refine ⟨several,?_⟩
    simp only
    rw [if_neg (by omega),if_pos (by omega)]
  right
  refine ⟨by omega,?_⟩
  simp only
  rw [if_pos (by omega)]
  by_cases one : 0 < (b.infos i).refcount
  · rw [if_pos one]
    have last : (b.infos i).refcount - 1 = 0 := by omega
    rw [last]
    have still : ((Buddy.setRefcount b i 0).infos i).used = true := by simpa [Buddy.setRefcount] using used
    obtain ⟨k,member,has,freed⟩ := (sound.setRefcount i 0).free_locked_used inside still
    exact ⟨k,member,has,.inr freed⟩
  rw [if_neg one]
  obtain ⟨k,member,has,freed⟩ := sound.free_locked_used inside used
  exact ⟨k,member,has,.inl freed⟩

theorem Sound.free_page_unused
    (unused : ∀ i, i < max_pages b → addr = b.buddy_base + i * PAGE_SIZE → (b.infos i).used = false) :
    free_page b addr = b := by
  unfold free_page
  split
  · rfl
  rcases sound.page_info_cases addr with none | ⟨i,inside,used,addrIs,_⟩
  · rw [none]
  rw [unused i inside addrIs] at used
  cases used

end

end

end ArmOS.Buddy

