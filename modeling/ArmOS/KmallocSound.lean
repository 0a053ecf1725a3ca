import ArmOS.Kmalloc

/-!
The kernel heap as an `Arena`: the list in memory is its free list, the live
allocations with their headers are its used blocks (`Sound`), and `kmalloc` and
`kfree` are `take` and `give` on it.
-/
namespace ArmOS.Kmalloc
open Words Chains FreeLists Function List Nat

/-- A pointer that `kmalloc` returned and that is not freed. -/
structure Allocation where
  (ptr request : Nat)
deriving DecidableEq, Repr

/-- A request for which the sums in `kmalloc` do not wrap. -/
def Far (request : Nat) : Prop := request + 31 < wordCount
instance (request : Nat) : Decidable (Far request) := inferInstanceAs (Decidable (request + 31 < wordCount))
def totalOf (request : Nat) : Nat := sizeof_alloc_header + align_up request 8
def Allocation.block (a : Allocation) : Node := ⟨a.ptr - sizeof_alloc_header,totalOf a.request⟩

structure Sound (h : Heap) (free : List Node) (live : List Allocation) : Prop where
  initialized : h.heap_initialized = true
  base_pos : 0 < h.heap_base
  base_aligned : 8 ∣ h.heap_base
  fits : h.heap_base + h.heap_size ≤ wordCount
  room : 64 * 1024 ≤ h.heap_size ∧ h.heap_size < 2 ^ 63
  list : Segment h.mem h.free_list free 0
  arena : Arena h.heap_base (h.heap_base + (h.heap_size - sizeof_free_block)) free (live.map Allocation.block)
  aligned : ∀ b ∈ free, 8 ∣ b.addr
  large : ∀ b ∈ free, sizeof_free_block + 8 ≤ b.value
  headers : ∀ a ∈ live, sizeof_alloc_header ≤ a.ptr ∧ 8 ∣ a.ptr ∧
    HeaderOk h.mem (a.ptr - sizeof_alloc_header) (align_up a.request 8)
  far : ∀ a ∈ live, Far a.request ∧ 0 < a.request

variable {request : Nat}

theorem far_align (far : Far request) (positive : 0 < request) :
    request ≤ align_up request 8 ∧ align_up request 8 + 24 < wordCount ∧ 8 ≤ align_up request 8 := by
  unfold Far at far
  have low := le_align_up request (show 0 < 8 by omega) (by omega)
  have high := align_up_lt request (show 0 < 8 by omega) (by omega)
  have whole := align_up_dvd request 8
  refine ⟨low,by omega,?_⟩
  exact le_of_dvd (by omega) whole

theorem totalOf_dvd (request : Nat) : 8 ∣ totalOf request := by
  unfold totalOf sizeof_alloc_header
  exact dvd_add (by decide) (align_up_dvd _ _)

section
variable {h : Heap} {free : List Node} {live : List Allocation}

/-- The walks end within the fuel they are given. -/
theorem Sound.length_lt (sound : Sound h free live) : free.length < h.heap_size := by
  have room := sound.room
  cases free with
  | nil => exact lt_of_lt_of_le (by decide) room.1
  | cons b rest =>
    have bound := ordered_bytes sound.arena.ordered sound.arena.freeInside (by simp)
    grind [Kmalloc.sizeof_free_block]

theorem Sound.head_aligned (sound : Sound h free live) : h.free_list % 8 = 0 := by
  have list := sound.list
  cases free with
  | nil =>
    have zero : h.free_list = 0 := list
    simp [zero]
  | cons b rest =>
    rw [list.1]
    exact mod_eq_zero_of_dvd (sound.aligned b (by simp))

variable {before after : List Node} {b : Node}

/-- The first part of the list ends where the next block begins. -/
theorem Sound.split_list (sound : Sound h (before ++ b :: after) live) :
    Segment h.mem h.free_list before b.addr ∧ b.addr ≠ 0 ∧ h.mem b.addr = b.value ∧
      Segment h.mem (h.mem (b.addr + 8)) after 0 := by
  obtain ⟨r,first,rfl,nonzero,value,tail⟩ := (segment_append _ _ _ _ _).mp sound.list
  exact ⟨first,nonzero,value,tail⟩

/-- Relinking a part keeps every word that is no link of it. -/
theorem link_keeps (h' : Heap) {before others : List Node} {p q target : Nat} (list : Segment h'.mem p others q)
    (apart : ∀ c ∈ others, ∀ d ∈ before, Apart c d) (large : ∀ c ∈ others, 16 ≤ c.value)
    (largeBefore : ∀ c ∈ before, 16 ≤ c.value) : Segment (link h' (lastAddr 0 before) target).mem p others q := by
  refine segment_frame ?_ list
  intro c member
  have same := (link_same h' before target).1
  grind [Apart]

theorem Sound.before_apart (sound : Sound h (before ++ b :: after) live) :
    before.Pairwise Below ∧ after.Pairwise Below ∧ (∀ c ∈ before, ∀ d ∈ b :: after, Below c d) ∧
      (∀ c ∈ after, Below b c) := by
  obtain ⟨first,second,across⟩ := pairwise_append.mp sound.arena.ordered
  obtain ⟨above,rest⟩ := pairwise_cons.mp second
  exact ⟨first,rest,across,above⟩

/-- Taking a block off changes only it and the link before it. -/
structure Unlinked (h h' : Heap) (before : List Node) (b : Node) (left : List Node) : Prop where
  list : Segment h'.mem h'.free_list left 0
  kept : ∀ a, a < b.addr ∨ b.addr + b.value ≤ a → (∀ c ∈ before, a ≠ c.addr + 8) → h'.mem a = h.mem a
  heap_base : h'.heap_base = h.heap_base
  heap_size : h'.heap_size = h.heap_size
  heap_initialized : h'.heap_initialized = h.heap_initialized

theorem Unlinked.whole (sound : Sound h (before ++ b :: after) live) :
    Unlinked h (link h (lastAddr 0 before) (h.mem (b.addr + 8))) before b (before ++ after) := by
  obtain ⟨first,_,_,tail⟩ := sound.split_list
  obtain ⟨ordered,_,across,_⟩ := sound.before_apart
  have large : ∀ c ∈ before ++ b :: after, 16 ≤ c.value := fun c member => by
    have := sound.large c member
    unfold sizeof_free_block at this
    omega
  obtain ⟨kept,base,size,initialized⟩ := link_same h before (h.mem (b.addr + 8))
  refine ⟨(segment_append _ _ _ _ _).mpr ⟨_,link_segment ordered first,?_⟩,?_,base,size,initialized⟩
  · exact link_keeps h tail (fun c late d early => (across d early c (by simp [late])).apart.symm)
      (fun c late => large c (by simp [late])) (fun c early => large c (by simp [early]))
  intro a _ other
  exact kept a other

theorem Unlinked.split {total : Nat} (sound : Sound h (before ++ b :: after) live) (enough : 16 ≤ total)
    (rest : total + (sizeof_free_block + 8) ≤ b.value) :
    Unlinked h (split_block h (lastAddr 0 before) b.addr total) before b
      (before ++ ⟨b.addr + total,b.value - total⟩ :: after) := by
  obtain ⟨first,nonzero,value,tail⟩ := sound.split_list
  obtain ⟨ordered,_,across,above⟩ := sound.before_apart
  unfold sizeof_free_block at rest
  have large : ∀ c ∈ before ++ b :: after, 16 ≤ c.value := fun c member => by
    have := sound.large c member
    unfold sizeof_free_block at this
    omega
  have inside := sound.arena.freeInside b (by simp)
  have noWrap : wrap (b.addr + total) = b.addr + total := wrap_of_lt (by
    have := sound.fits
    have := sound.room
    unfold sizeof_free_block at inside
    omega)
  unfold split_block
  rw [noWrap]
  -- The stores before the relinking stay inside the block.
  set m := update (update (update (update h.mem (b.addr + total)
      (h.mem b.addr - total)) (b.addr + total + 8)
      (update h.mem (b.addr + total) (h.mem b.addr - total) (b.addr + 8))) (b.addr + 8) 0) b.addr total with mIs
  have same : SameOutside h.mem m b.addr (b.addr + b.value) :=
    ((((SameOutside.refl h.mem _ _).update (by omega) (by omega)).update (by omega) (by omega)).update
      (by omega) (by omega)).update (by omega) (by omega)
  have newValue : m (b.addr + total) = b.value - total := by
    rw [mIs,update_of_ne (by omega),update_of_ne (by omega),update_of_ne (by omega),
      update_self,value]
  have newNext : m (b.addr + total + 8) = h.mem (b.addr + 8) := by
    rw [mIs,update_of_ne (by omega),update_of_ne (by omega),update_self,
      update_of_ne (by omega)]
  have firstKept : Segment m h.free_list before b.addr :=
    same.segment (fun c early => (across c early b (by simp)).apart) (fun c early => large c (by simp [early])) first
  have tailKept : Segment m (h.mem (b.addr + 8)) after 0 :=
    same.segment (fun c late => (above c late).apart.symm) (fun c late => large c (by simp [late])) tail
  have newTail : Segment m (b.addr + total) (⟨b.addr + total,b.value - total⟩ :: after) 0 :=
    ⟨rfl,by simp only; omega,newValue,by simp only; rw [newNext]; exact tailKept⟩
  obtain ⟨kept,base,size,initialized⟩ := link_same { h with mem := m } before (b.addr + total)
  refine ⟨(segment_append _ _ _ _ _).mpr ⟨_,link_segment (h := { h with mem := m }) ordered firstKept,?_⟩,
    ?_,base,size,initialized⟩
  · refine link_keeps { h with mem := m } newTail ?_ ?_ (fun c early => large c (by simp [early]))
    · intro c member d early
      rcases mem_cons.mp member with rfl | late
      · have := across d early b (by simp)
        simp only [Below,Apart] at this ⊢
        omega
      · exact (across d early c (by simp [late])).apart.symm
    · grind
  intro a outside other
  rw [kept a other]
  exact same a outside

/-! ### `kmalloc` is `take` -/

theorem kmalloc_sums (far : Far request) (positive : 0 < request) :
    wrap (sizeof_alloc_header + align_up request 8) = totalOf request ∧ 32 ≤ totalOf request := by
  obtain ⟨_,high,low⟩ := far_align far positive
  unfold totalOf sizeof_alloc_header
  exact ⟨wrap_of_lt (by omega),by omega⟩

theorem Sound.kmalloc_none (sound : Sound h free live) (far : Far request) (positive : 0 < request)
    (none : take (sizeof_free_block + 8) (totalOf request) free = none) : kmalloc h request = some (h,0) := by
  have walk : first_fit h.mem (totalOf request) h.heap_size 0 h.free_list = some Option.none :=
    first_fit_none sound.list (take_none none) sound.length_lt
  unfold kmalloc
  rw [if_neg (by simp [sound.initialized]; omega)]
  simp only [(kmalloc_sums far positive).1,sound.head_aligned,ne_eq,not_true_eq_false,if_false,walk]

variable {a : Allocation}

open Allocation (block)

/-- A live header shares no word with a free block or its link. -/
theorem Sound.header_kept {h' : Heap} {before after left : List Node}
    (sound : Sound h (before ++ b :: after) live) (unlinked : Unlinked h h' before b left)
    (listed : a ∈ live) : HeaderOk h'.mem (a.ptr - sizeof_alloc_header) (align_up a.request 8) := by
  have blockListed : a.block ∈ live.map block := mem_map_of_mem listed
  have total : a.block.value = sizeof_alloc_header + align_up a.request 8 := rfl
  have addr : a.block.addr = a.ptr - sizeof_alloc_header := rfl
  refine (sound.headers a listed).2.2.frame ?_
  intro w start stop
  refine unlinked.kept w ?_ ?_
  · have := sound.arena.freeUsed b (by simp) a.block blockListed
    unfold Apart at this
    omega
  intro c early
  have := sound.arena.freeUsed c (by simp [early]) a.block blockListed
  have := sound.large c (by simp [early])
  unfold Apart sizeof_free_block at *
  omega

theorem Sound.kmalloc_some {got : Node} {left : List Node} (sound : Sound h free live) (far : Far request)
    (positive : 0 < request) (taken : take (sizeof_free_block + 8) (totalOf request) free = some (got,left)) :
    ∃ h', kmalloc h request = some (h',got.addr + sizeof_alloc_header) ∧
      Sound h' left (⟨got.addr + sizeof_alloc_header,request⟩ :: live) ∧
      h'.heap_base = h.heap_base ∧ h'.heap_size = h.heap_size := by
  obtain ⟨sumIs,sumLow⟩ := kmalloc_sums far positive
  have arena := sound.arena.take (by decide) (by omega) taken
  obtain ⟨before,b,after,rfl,small,enough,parts⟩ := take_some taken
  have addrIs : got.addr = b.addr := by rcases parts with ⟨_,rfl,_⟩ | ⟨_,rfl,_⟩ <;> rfl
  obtain ⟨_,nonzero,value,_⟩ := sound.split_list
  have inside := sound.arena.freeInside b (by simp)
  have room := sound.room
  have fits := sound.fits
  have bAligned := sound.aligned b (by simp)
  have walk : first_fit h.mem (totalOf request) h.heap_size 0 h.free_list = some (some (lastAddr 0 before,b.addr)) := by
    refine first_fit_some sound.list small enough ?_
    have := sound.length_lt
    simp only [length_append] at this
    omega
  have splitSum : wrap (totalOf request + sizeof_free_block + 8) = totalOf request + (sizeof_free_block + 8) := by
    unfold sizeof_free_block at *
    exact wrap_of_lt (by unfold wordCount at *; omega)
  -- The heap once the block is off the list, before its header is written.
  obtain ⟨h1,h1Is,unlinked⟩ : ∃ h1, h1 = (if wrap (totalOf request + sizeof_free_block + 8) ≤ h.mem b.addr then
        split_block h (lastAddr 0 before) b.addr (totalOf request)
      else link h (lastAddr 0 before) (h.mem (b.addr + 8))) ∧ Unlinked h h1 before b left := by
    refine ⟨_,rfl,?_⟩
    rw [splitSum,value]
    rcases parts with ⟨splits,_,rfl⟩ | ⟨whole,_,rfl⟩
    · rw [if_pos splits]
      exact .split sound (by omega) splits
    rw [if_neg (by omega)]
    exact .whole sound
  have pointer : wrap (b.addr + sizeof_alloc_header) = b.addr + sizeof_alloc_header := by
    refine wrap_of_lt ?_
    unfold sizeof_alloc_header sizeof_free_block at *
    omega
  have pointerAligned : align_up (b.addr + sizeof_alloc_header) 8 = b.addr + sizeof_alloc_header := by
    refine align_up_of_dvd (by decide) ?_ (dvd_add bAligned (by decide))
    unfold sizeof_alloc_header sizeof_free_block at *
    omega
  refine ⟨{ h1 with mem := write_header h1.mem b.addr (align_up request 8) },?_,?_,unlinked.heap_base,unlinked.heap_size⟩
  · unfold kmalloc
    rw [if_neg (by simp [sound.initialized]; omega)]
    simp only [sumIs,sound.head_aligned,ne_eq,not_true_eq_false,if_false,walk,pointer,pointerAligned,addrIs,h1Is]
  have header := write_header_same h1.mem b.addr (align_up request 8)
  rw [addrIs] at arena ⊢
  have leftCases : ∀ c ∈ left, c ∈ before ++ b :: after ∨
      (c = ⟨b.addr + totalOf request,b.value - totalOf request⟩ ∧ totalOf request + (sizeof_free_block + 8) ≤ b.value) := by
    intro c member
    rcases parts with ⟨splits,_,rfl⟩ | ⟨_,_,rfl⟩ <;> grind
  have large : ∀ c ∈ left, sizeof_free_block + 8 ≤ c.value := by
    intro c member
    rcases leftCases c member with old | ⟨rfl,splits⟩
    · exact sound.large c old
    simp only
    omega
  refine ⟨unlinked.heap_initialized.trans sound.initialized,by rw [unlinked.heap_base]; exact sound.base_pos,
    by rw [unlinked.heap_base]; exact sound.base_aligned,by rw [unlinked.heap_base,unlinked.heap_size]; exact fits,
    by rw [unlinked.heap_size]; exact room,?_,by simpa [unlinked.heap_base,unlinked.heap_size,block] using arena,?_,
        large,?_,?_⟩
  · refine SameOutside.segment (b := ⟨b.addr,totalOf request⟩) (header.mono le_rfl ?_) ?_ ?_ unlinked.list
    · simp only [totalOf]
      omega
    · intro c member
      exact arena.freeUsed c member _ (by simp)
    intro c member
    have := large c member
    unfold sizeof_free_block at this
    omega
  · intro c member
    rcases leftCases c member with old | ⟨rfl,_⟩
    · exact sound.aligned c old
    · exact dvd_add bAligned (totalOf_dvd request)
  · intro a listed
    rcases mem_cons.mp listed with rfl | old
    · refine ⟨by simp,dvd_add bAligned (by decide),?_⟩
      simp only [Nat.add_sub_cancel]
      exact write_header_ok _ _ _
    obtain ⟨high,aligned,_⟩ := sound.headers a old
    refine ⟨high,aligned,(sound.header_kept unlinked old).frame ?_⟩
    intro w start stop
    refine header w ?_
    have apart := (pairwise_cons.mp arena.usedApart).1 a.block (mem_map_of_mem old)
    have total : a.block.value = sizeof_alloc_header + align_up a.request 8 := rfl
    have addr : a.block.addr = a.ptr - sizeof_alloc_header := rfl
    simp only [Apart,totalOf] at apart
    omega
  exact forall_mem_cons.mpr ⟨⟨far,positive⟩,sound.far⟩

/-! ### `kfree` is `give` -/

theorem align_up_idem (far : Far request) : align_up (align_up request 8) 8 = align_up request 8 := by
  unfold Far at far
  have high := align_up_lt request (show 0 < 8 by omega) (by omega)
  exact align_up_of_dvd (by decide) (by omega) (align_up_dvd _ _)

variable {k joined : Node}

theorem merge_next_segment {current : Nat} {after tail : List Node}
    (value : h.mem k.addr = k.value) (nonzero : k.addr ≠ 0) (list : Segment h.mem current after 0)
    (join : Joined k after joined tail) (large : ∀ c ∈ after, 16 ≤ c.value) (room : 16 ≤ k.value)
    (ordered : after.Pairwise Below) (above : ∀ c ∈ after, k.addr + k.value ≤ c.addr)
    (noWrap : k.addr + k.value < wordCount) (noWrapJoined : joined.value < wordCount) :
    Segment (merge_next h k.addr current).mem k.addr (joined :: tail) 0 ∧
      SameOutside h.mem (merge_next h k.addr current).mem k.addr (k.addr + k.value) ∧
      (merge_next h k.addr current).free_list = h.free_list ∧
      (merge_next h k.addr current).heap_base = h.heap_base ∧
      (merge_next h k.addr current).heap_size = h.heap_size ∧
      (merge_next h k.addr current).heap_initialized = h.heap_initialized := by
  unfold merge_next
  rw [value,wrap_of_lt noWrap]
  rcases join with ⟨c,rfl,touch,rfl⟩ | ⟨rfl,noTouch,rfl⟩
  · obtain ⟨rfl,cNonzero,cValue,rest⟩ := list
    have next : update h.mem k.addr (k.value + c.value) (c.addr + 8) = h.mem (c.addr + 8) :=
      update_of_ne (by omega) _ _
    rw [if_pos ⟨cNonzero,touch⟩,cValue,wrap_of_lt noWrapJoined]
    dsimp only
    rw [next]
    have same : SameOutside h.mem (update (update h.mem k.addr (k.value + c.value)) (k.addr + 8)
        (h.mem (c.addr + 8))) k.addr (k.addr + k.value) :=
      ((SameOutside.refl h.mem _ _).update (by omega) (by omega)).update (by omega) (by omega)
    refine ⟨⟨rfl,nonzero,?_,?_⟩,same,rfl,rfl,rfl,rfl⟩
    · simp only
      rw [update_of_ne (by omega),update_self]
    simp only
    rw [update_self]
    refine same.segment ?_ (fun d late => large d (by simp [late])) rest
    intro d late
    exact .inr (above d (by simp [late]))
  have stays : ¬ (current ≠ 0 ∧ joined.addr + joined.value = current) := by
    rintro ⟨currentNonzero,touch⟩
    cases after with
    | nil => exact currentNonzero list
    | cons d rest => exact noTouch d rfl (touch.trans list.1)
  rw [if_neg stays]
  have same : SameOutside h.mem (update h.mem (joined.addr + 8) current) joined.addr
      (joined.addr + joined.value) := (SameOutside.refl h.mem _ _).update (by omega) (by omega)
  refine ⟨⟨rfl,nonzero,?_,?_⟩,same,rfl,rfl,rfl,rfl⟩
  · simp only
    rw [update_of_ne (by omega)]
    exact value
  simp only
  rw [update_self]
  exact same.segment (fun d late => .inr (above d late)) large list

/-- A block put back, joined with the one before it or linked. -/
theorem merge_prev_segment {r : Nat} {before tail : List Node} (list : Segment h.mem h.free_list before r)
    (rest : Segment h.mem k.addr (joined :: tail) 0) (ordered : before.Pairwise Below)
    (large : ∀ c ∈ before ++ tail, 16 ≤ c.value) (joinedLarge : 16 ≤ joined.value)
    (below : ∀ c ∈ before, c.addr + c.value ≤ k.addr) (apart : ∀ c ∈ before, ∀ d ∈ tail, Below c d)
    (noWrap : k.addr < wordCount) (noWrapJoined : ∀ c ∈ before, c.value + joined.value < wordCount) :
    let h' := merge_prev h (lastAddr 0 before) k.addr
    (∀ list', (∃ init c, before = init ++ [c] ∧ c.addr + c.value = k.addr ∧
          list' = init ++ ⟨c.addr,c.value + joined.value⟩ :: tail) ∨
        ((∀ c, before.getLast? = some c → c.addr + c.value ≠ k.addr) ∧ list' = before ++ joined :: tail) →
        Segment h'.mem h'.free_list list' 0) ∧
      (∀ a, (∀ c ∈ before, a ≠ c.addr ∧ a ≠ c.addr + 8) → h'.mem a = h.mem a) ∧
      h'.heap_base = h.heap_base ∧ h'.heap_size = h.heap_size ∧ h'.heap_initialized = h.heap_initialized := by
  obtain ⟨joinedAddr,nonzero,joinedValue,restTail⟩ := rest
  rcases eq_nil_or_concat before with rfl | ⟨init,c,rfl⟩
  · have noPrev : merge_prev h (lastAddr 0 []) k.addr = link h 0 k.addr := by
      unfold merge_prev
      rw [if_neg (by simp [lastAddr])]
      rfl
    rw [noPrev]
    refine ⟨?_,?_,by simp [link],by simp [link],by simp [link]⟩
    · rintro list' (⟨init,c,empty,_⟩ | ⟨_,rfl⟩)
      · simp at empty
      · exact ⟨joinedAddr,nonzero,joinedValue,restTail⟩
    intro a _
    simp [link]
  rw [concat_eq_append] at *
  obtain ⟨s,first,rfl,cNonzero,cValue,end_c⟩ := (segment_append _ _ _ _ _).mp list
  have cMember : c ∈ init ++ [c] := by simp
  have cLarge := large c (by simp)
  have cBelow := below c cMember
  have initBelow : ∀ d ∈ init, d.addr + d.value < c.addr := fun d early =>
    (pairwise_append.mp ordered).2.2 d early c (by simp)
  have cSum : wrap (c.addr + h.mem c.addr) = c.addr + c.value := by
    rw [cValue]
    exact wrap_of_lt (by omega)
  rw [lastAddr_concat]
  by_cases touch : c.addr + c.value = k.addr
  · set m := update (update h.mem c.addr (c.value + joined.value)) (c.addr + 8)
        (h.mem (k.addr + 8)) with mIs
    have joins : merge_prev h c.addr k.addr = { h with mem := m } := by
      unfold merge_prev
      rw [cSum,if_pos ⟨cNonzero,touch⟩,cValue,show h.mem k.addr = joined.value by rw [joinedAddr]; exact joinedValue,
        wrap_of_lt (noWrapJoined c cMember)]
      simp only
      rw [update_of_ne (by omega),mIs]
    rw [joins]
    refine ⟨?_,?_,rfl,rfl,rfl⟩
    · rintro list' (⟨init',c',same,_,rfl⟩ | ⟨noTouch,_⟩)
      · obtain ⟨rfl,sameLast⟩ := append_inj' same rfl
        cases sameLast
        have revalued := segment_revalue (c.value + joined.value)
          (fun d early => by have := initBelow d early; have := large d (by simp [early]); omega) list
        have retargeted := segment_retarget (b := ⟨c.addr,c.value + joined.value⟩) (h.mem (k.addr + 8))
          (fun d early => by have := initBelow d early; simp only; omega) revalued
        rw [show init ++ (⟨c.addr,c.value + joined.value⟩ : Node) :: tail =
          (init ++ [⟨c.addr,c.value + joined.value⟩]) ++ tail by simp]
        refine (segment_append _ _ _ _ _).mpr ⟨_,retargeted,?_⟩
        rw [joinedAddr]
        refine segment_frame ?_ restTail
        intro d late
        have := apart c cMember d late
        unfold Below at this
        simp only [mIs]
        rw [update_of_ne (by omega),update_of_ne (by omega),update_of_ne (by omega),
          update_of_ne (by omega)]
        exact ⟨rfl,rfl⟩
      · exact absurd touch (noTouch c (by simp))
    · grind
  have links : merge_prev h c.addr k.addr = link h (lastAddr 0 (init ++ [c])) k.addr := by
    unfold merge_prev
    rw [cSum,if_neg (fun both => touch both.2),lastAddr_concat]
  rw [links]
  obtain ⟨kept,base,size,initialized⟩ := link_same h (init ++ [c]) k.addr
  refine ⟨?_,fun a other => kept a (fun d member => (other d member).2),base,size,initialized⟩
  rintro list' (⟨init',c',same,touches,_⟩ | ⟨_,rfl⟩)
  · obtain ⟨_,sameLast⟩ := append_inj' same rfl
    cases sameLast
    exact absurd touches touch
  refine (segment_append _ _ _ _ _).mpr ⟨_,link_segment ordered list,?_⟩
  refine link_keeps h ⟨joinedAddr,nonzero,joinedValue,restTail⟩ ?_ ?_
    (forall_mem_append.mp large).1
  · intro d member e early
    rcases mem_cons.mp member with rfl | late
    · exact .inr (joinedAddr ▸ below e early)
    · exact (apart e early d late).apart.symm
  · grind

theorem Sound.around {k : Node} {used : List Node}
    (arena : Arena h.heap_base (h.heap_base + (h.heap_size - sizeof_free_block)) (before ++ after) (k :: used))
    (earlier : ∀ c ∈ before, c.addr < k.addr) (head : ∀ c, after.head? = some c → k.addr ≤ c.addr) :
    (∀ c ∈ before, c.addr + c.value ≤ k.addr) ∧ (∀ c ∈ after, k.addr + k.value ≤ c.addr) := by
  have full := arena.usedFull k (by simp)
  constructor
  · intro c early
    have := earlier c early
    have := arena.freeUsed c (by simp [early]) k (by simp)
    unfold Apart at this
    omega
  intro c late
  cases after with
  | nil => cases late
  | cons d rest =>
    have start := head d rfl
    have apart := arena.freeUsed d (by simp) k (by simp)
    have dFull := arena.freeFull d (by simp)
    unfold Apart at apart
    rcases mem_cons.mp late with rfl | later
    · omega
    have := (pairwise_cons.mp (pairwise_append.mp arena.ordered).2.1).1 c later
    unfold Below at this
    omega

theorem Sound.kfree_live (sound : Sound h free live) (listed : a ∈ live) :
    ∃ h', kfree h a.ptr = some h' ∧ Sound h' (FreeLists.give a.block free) (live.erase a) ∧
      h'.heap_base = h.heap_base ∧ h'.heap_size = h.heap_size := by
  obtain ⟨high,aligned,start,size,stop⟩ := sound.headers a listed
  obtain ⟨far,positive⟩ := sound.far a listed
  obtain ⟨sumIs,sumLow⟩ := kmalloc_sums far positive
  have perm : (live.map block).Perm (a.block :: (live.erase a).map block) := by
    rw [← map_cons]
    exact (perm_cons_erase listed).map _
  have arena := sound.arena.perm perm
  have fits := sound.fits
  have room := sound.room
  set k := a.block with kIs
  have kAddr : k.addr = a.ptr - sizeof_alloc_header := rfl
  have kValue : k.value = totalOf a.request := rfl
  have inside := arena.usedInside k (by simp)
  have kNonzero : k.addr ≠ 0 := by
    have := sound.base_pos
    omega
  have header : wrap (a.ptr + (wordCount - sizeof_alloc_header)) = k.addr := by
    rw [kAddr]
    unfold wrap
    have bound : a.ptr - sizeof_alloc_header < wordCount := by omega
    have sum : a.ptr + (wordCount - sizeof_alloc_header) = a.ptr - sizeof_alloc_header + wordCount := by
      unfold sizeof_alloc_header wordCount at *
      omega
    rw [sum,add_mod_right,mod_eq_of_lt bound]
  rw [← kAddr] at start size stop
  -- The stores that make the header a free block.
  set m1 := update (update h.mem k.addr (totalOf a.request)) (k.addr + 8) 0 with m1Is
  have same1 : SameOutside h.mem m1 k.addr (k.addr + k.value) :=
    ((SameOutside.refl h.mem _ _).update (by omega) (by omega)).update (by omega) (by omega)
  have value1 : m1 k.addr = k.value := by
    rw [m1Is,update_of_ne (by omega),update_self,kValue]
  obtain ⟨before,after,joined,tail,freeIs,earlier,head,join,placed⟩ := give_cases k free
  subst freeIs
  have large : ∀ c ∈ before ++ after, 16 ≤ c.value := fun c member => by
    have := sound.large c member
    unfold sizeof_free_block at this
    omega
  obtain ⟨below,above⟩ := Sound.around arena earlier head
  obtain ⟨orderedBefore,orderedAfter,across⟩ := pairwise_append.mp arena.ordered
  have list1 : Segment m1 h.free_list (before ++ after) 0 :=
    same1.segment (fun c member => arena.freeUsed c member k (by simp)) large sound.list
  obtain ⟨current,afterList,walk⟩ := @find_place_eq _ _ h.heap_size _ _ k.addr 0 list1 earlier head
    (by have := sound.length_lt; simp only [length_append] at this; omega)
  obtain ⟨joinedHigh,joinedLow,tailAfter⟩ : joined.value ≤ h.heap_size - sizeof_free_block ∧ 16 ≤ joined.value ∧
      (∀ c ∈ tail, c ∈ after) := by
    rcases join with ⟨c,rfl,touch,rfl⟩ | ⟨rfl,_,rfl⟩
    · have := arena.freeInside c (by simp)
      exact ⟨by simp only; omega,by simp only; omega,fun d late => by simp [late]⟩
    · exact ⟨by omega,by omega,fun d late => late⟩
  set h1 : Heap := { h with mem := m1 } with h1Is
  obtain ⟨list2,same2,free2,base2,size2,init2⟩ := merge_next_segment (h := h1) value1 kNonzero afterList join
    (fun c late => large c (by simp [late])) (by omega) orderedAfter above
    (by unfold sizeof_free_block at *; omega) (by unfold wordCount; omega)
  set h2 := merge_next h1 k.addr current with h2Is
  have same12 : SameOutside h.mem h2.mem k.addr (k.addr + k.value) := same1.trans same2
  obtain ⟨r,beforeList,_⟩ := (segment_append _ _ _ _ _).mp sound.list
  have beforeList2 : Segment h2.mem h2.free_list before r := by
    rw [free2]
    exact same12.segment (fun c early => .inl (below c early)) (fun c early => large c (by simp [early])) beforeList
  obtain ⟨list3,kept3,base3,size3,init3⟩ := merge_prev_segment (h := h2) beforeList2 list2 orderedBefore
    (fun c member => by grind) joinedLow below
    (fun c early d late => across c early d (tailAfter d late)) (by unfold sizeof_free_block at *; omega)
    (fun c early => by
      have := arena.freeInside c (by simp [early])
      unfold sizeof_free_block at *
      unfold wordCount
      omega)
  refine ⟨merge_prev h2 (lastAddr 0 before) k.addr,?_,?_,base3.trans base2,size3.trans size2⟩
  · unfold kfree
    rw [if_neg (by
      grind [initialized])]
    simp only [header,start,stop,size,ne_eq,not_true_eq_false,or_self,if_false,align_up_idem far,sumIs]
    rw [← m1Is,walk]
  have give := arena.give
  have kAligned : 8 ∣ k.addr := by
    rw [kAddr]
    exact dvd_sub aligned (by decide)
  have newLarge : ∀ c ∈ FreeLists.give k (before ++ after), sizeof_free_block + 8 ≤ c.value ∧ 8 ∣ c.addr :=
    give_all (fun c more ok => ⟨ok.1.trans (le_add_right _ _),ok.2⟩)
      ⟨by unfold sizeof_free_block; omega,kAligned⟩ fun c member => ⟨sound.large c member,sound.aligned c member⟩
  refine ⟨(init3.trans init2).trans sound.initialized,by rw [base3,base2]; exact sound.base_pos,
    by rw [base3,base2]; exact sound.base_aligned,by rw [base3,base2,size3,size2]; exact fits,
    by rw [size3,size2]; exact room,list3 _ placed,by rw [base3,base2,size3,size2]; exact give,
    fun c member => (newLarge c member).2,fun c member => (newLarge c member).1,?_,
    fun b member => sound.far b (mem_of_mem_erase member)⟩
  intro b member
  obtain ⟨bHigh,bAligned,bHeader⟩ := sound.headers b (mem_of_mem_erase member)
  refine ⟨bHigh,bAligned,bHeader.frame ?_⟩
  intro w start stop
  have blockListed : b.block ∈ (live.erase a).map block := List.mem_map_of_mem member
  have total : b.block.value = sizeof_alloc_header + align_up b.request 8 := rfl
  have addr : b.block.addr = b.ptr - sizeof_alloc_header := rfl
  rw [kept3 w (fun c early => by
    have := arena.freeUsed c (by simp [early]) b.block (by simp [blockListed])
    have := large c (by simp [early])
    unfold Apart at *
    omega)]
  refine same12 w ?_
  have := (pairwise_cons.mp arena.usedApart).1 b.block blockListed
  unfold Apart at this
  omega

theorem Sound.store {w value : Nat} (sound : Sound h free live) (listed : a ∈ live) (start : a.ptr ≤ w)
    (stop : w < a.ptr + a.request) : Sound { h with mem := update h.mem w value } free live := by
  have blockListed : a.block ∈ live.map block := mem_map_of_mem listed
  have total : a.block.value = sizeof_alloc_header + align_up a.request 8 := rfl
  have addr : a.block.addr = a.ptr - sizeof_alloc_header := rfl
  obtain ⟨high,_,_⟩ := sound.headers a listed
  obtain ⟨payload,_,_⟩ := far_align (sound.far a listed).1 (sound.far a listed).2
  have same : SameOutside h.mem (update h.mem w value) a.ptr (a.ptr + a.request) :=
    (SameOutside.refl h.mem _ _).update start stop
  refine { sound with list := ?_, headers := ?_ }
  · refine (same.mono (by omega) (by omega) : SameOutside _ _ a.block.addr (a.block.addr + a.block.value)).segment
      (fun c member => sound.arena.freeUsed c member _ blockListed) ?_ sound.list
    intro c member
    have := sound.large c member
    unfold sizeof_free_block at this
    omega
  intro b member
  obtain ⟨bHigh,bAligned,bHeader⟩ := sound.headers b member
  refine ⟨bHigh,bAligned,bHeader.frame ?_⟩
  intro v vStart vStop
  refine same v ?_
  by_cases own : b = a
  · subst own
    omega
  -- Two different allocations share no byte, whichever is listed first.
  have apart : Apart b.block a.block := by
    have : Std.Symm (fun x y : Allocation => Apart x.block y.block) := ⟨fun _ _ => Apart.symm⟩
    exact (pairwise_map.mp sound.arena.usedApart).forall member listed own
  grind [Kmalloc.Allocation.block,Apart]

end

end ArmOS.Kmalloc

