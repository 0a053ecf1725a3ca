import ArmOS.KmallocSound

/-!
Runs of the kernel heap: what callers do with it, the invariant of every run,
and the bytes a run loses to allocations that take a whole block.
-/
namespace ArmOS.Kmalloc
open Words Chains FreeLists Runs List

structure State where
  heap : Heap
  live : List Allocation

/-- `kmalloc(request)`, `kfree(ptr)`, and a store into held memory. -/
inductive Op
  | kmalloc (request : Nat)
  | kfree (ptr : Nat)
  | store (addr value : Nat)
deriving DecidableEq, Repr

inductive Step (s : State) : Op → State → Prop
  | kmalloc {h : Heap} {request ptr : Nat} (far : Far request)
      (returned : kmalloc s.heap request = some (h,ptr)) :
      Step s (.kmalloc request) ⟨h,if ptr = 0 then s.live else ⟨ptr,request⟩ :: s.live⟩
  | kfree {h : Heap} {a : Allocation} (listed : a ∈ s.live) (returned : kfree s.heap a.ptr = some h) :
      Step s (.kfree a.ptr) ⟨h,s.live.erase a⟩
  | store {a : Allocation} {w value : Nat} (listed : a ∈ s.live) (aligned : 8 ∣ w) (start : a.ptr ≤ w)
      (stop : w < a.ptr + a.request) :
      Step s (.store w value) ⟨{ s.heap with mem := Function.update s.heap.mem w value },s.live⟩

/-- A heap that `init_kernel_heap_region` has set up. -/
def Started (h : Heap) : Prop :=
  ∃ h0 base size, init_kernel_heap_region h0 base size = (h,true) ∧ base + size ≤ wordCount ∧ size < 2 ^ 63
def initialBlock (h : Heap) : Node := ⟨h.heap_base,h.heap_size - sizeof_free_block⟩

variable {h : Heap} {free : List Node} {live : List Allocation} {request : Nat} {a : Allocation} {ops : List Op}
  {s t : State}

theorem Started.sound (started : Started h) : Sound h [initialBlock h] [] := by
  obtain ⟨h0,base,size,accepted,region,small⟩ := started
  unfold init_kernel_heap_region at accepted
  dsimp only at accepted
  split at accepted
  · cases accepted
  rename_i based
  split at accepted
  · cases accepted
  rename_i lossSmall
  split at accepted
  · cases accepted
  rename_i roomy
  cases accepted
  simp only [initialBlock] at *
  have up := align_up_le base 8
  have aligned := align_up_dvd base 8
  refine ⟨rfl,by simp only; omega,aligned,by simp only; omega,by simp only; omega,?_,?_,?_,?_,by simp,by simp⟩
  · grind [Segment]
  · refine ⟨pairwise_singleton _ _,?_,by simp,by simp,by simp,?_,by simp⟩
    · simp
    intro b member
    rw [mem_singleton.mp member]
    simp only [sizeof_free_block]
    omega
  · intro b member
    rw [mem_singleton.mp member]
    exact aligned
  intro b member
  rw [mem_singleton.mp member]
  simp only [sizeof_free_block]
  omega

/-- The heap holds the live allocations and some free list. -/
def Holds (base size : Nat) (s : State) : Prop :=
  ∃ free, Sound s.heap free s.live ∧ s.heap.heap_base = base ∧ s.heap.heap_size = size

variable {ptr : Nat} {h' : Heap}

/-- `kmalloc` does nothing without a large enough block, else `take`. -/
theorem Sound.kmalloc_cases
    (sound : Sound h free live) (far : Far request) (returned : kmalloc h request = some (h',ptr)) :
    (ptr = 0 ∧ h' = h ∧ (0 < request → free.find? (totalOf request ≤ ·.value) = none)) ∨ ∃ got left, 0 < request ∧
      take (sizeof_free_block + 8) (totalOf request) free = some (got,left) ∧
      ptr = got.addr + sizeof_alloc_header ∧ Sound h' left (⟨ptr,request⟩ :: live) ∧
      h'.heap_base = h.heap_base ∧ h'.heap_size = h.heap_size := by
  rcases Nat.eq_zero_or_pos request with rfl | positive
  · grind [Kmalloc.kmalloc]
  cases taken : take (sizeof_free_block + 8) (totalOf request) free with
  | none =>
    rw [sound.kmalloc_none far positive taken] at returned
    cases returned
    refine .inl ⟨rfl,rfl,fun _ => find?_eq_none.mpr ?_⟩
    intro b member
    have := take_none taken b member
    simpa using this
  | some found =>
    obtain ⟨got,left⟩ := found
    obtain ⟨h1,executed,after,base,size⟩ := sound.kmalloc_some far positive taken
    rw [executed] at returned
    cases returned
    exact .inr ⟨got,left,positive,rfl,rfl,after,base,size⟩

theorem Sound.kfree_cases (sound : Sound h free live) (listed : a ∈ live) (returned : kfree h a.ptr = some h') :
    Sound h' (give a.block free) (live.erase a) ∧
      h'.heap_base = h.heap_base ∧ h'.heap_size = h.heap_size := by
  obtain ⟨h1,executed,after⟩ := sound.kfree_live listed
  rw [executed] at returned
  cases returned
  exact after

theorem step_holds {base size : Nat} (s : State) (op : Op) (t : State) (holds : Holds base size s) (step : Step s op t) :
    Holds base size t := by
  obtain ⟨free,sound,baseIs,sizeIs⟩ := holds
  cases step with
  | @kmalloc h request ptr far returned =>
    rcases sound.kmalloc_cases far returned with ⟨zero,same,_⟩ | ⟨got,left,_,_,pointer,after,base',size'⟩
    · subst same
      exact ⟨free,by simpa [zero] using sound,baseIs,sizeIs⟩
    · have nonzero : ptr ≠ 0 := by unfold sizeof_alloc_header at pointer; omega
      exact ⟨left,by simpa [nonzero] using after,base'.trans baseIs,size'.trans sizeIs⟩
  | kfree listed returned =>
    obtain ⟨after,base',size'⟩ := sound.kfree_cases listed returned
    exact ⟨_,after,base'.trans baseIs,size'.trans sizeIs⟩
  | store listed _ start stop => exact ⟨free,sound.store listed start stop,baseIs,sizeIs⟩

theorem run_holds (started : Started h) (run : Run Step ⟨h,[]⟩ ops s) : Holds h.heap_base h.heap_size s :=
  run.invariant step_holds ⟨_,started.sound,rfl,rfl⟩

/-- The header and the requested bytes of an allocation. -/
def Allocation.extent (a : Allocation) : Node := ⟨a.ptr - sizeof_alloc_header,sizeof_alloc_header + a.request⟩

open Allocation (block)

theorem Sound.extent_within (sound : Sound h free live) (listed : a ∈ live) :
    a.extent.addr = a.block.addr ∧ a.extent.value ≤ a.block.value := by
  have := far_align (sound.far a listed).1 (sound.far a listed).2
  refine ⟨rfl,?_⟩
  unfold Allocation.extent block totalOf
  dsimp only
  omega

theorem Apart.shrink {a b c d : Node} (apart : Apart a b) (first : c.addr = a.addr ∧ c.value ≤ a.value)
    (second : d.addr = b.addr ∧ d.value ≤ b.value) : Apart c d := by
  unfold Apart at *
  omega
def sampleHeap : Heap := (init_kernel_heap_region bootHeap 4096 65536).1
theorem sampleHeap_started : Started sampleHeap :=
  ⟨bootHeap,4096,65536,rfl,by decide,by decide⟩

variable {left : List Node} {got : Node}

section
variable (started : Started h) (far : Far request) (positive : 0 < request)
  (taken : FreeLists.take (sizeof_free_block + 8) (totalOf request) [initialBlock h] = some (got,left))
include started far positive taken

/-- The first `kmalloc` of a run takes from the initial block. -/
theorem Started.first_kmalloc :
    ∃ h', Step ⟨h,[]⟩ (.kmalloc request) ⟨h',[⟨got.addr + sizeof_alloc_header,request⟩]⟩ ∧
      Sound h' left [⟨got.addr + sizeof_alloc_header,request⟩] := by
  obtain ⟨h',returned,after,_⟩ := started.sound.kmalloc_some far positive taken
  refine ⟨h',?_,after⟩
  have step := Step.kmalloc (s := ⟨h,[]⟩) far returned
  rwa [if_neg (by unfold sizeof_alloc_header; omega)] at step

/-- A `kmalloc` on a new heap and its `kfree`. -/
theorem Started.first_round :
    ∃ s, Run Step ⟨h,[]⟩ [.kmalloc request,.kfree (got.addr + sizeof_alloc_header)] s ∧ s.live = [] ∧
      Segment s.heap.mem s.heap.free_list (give ⟨got.addr,totalOf request⟩ left) 0 := by
  obtain ⟨h1,first,middle⟩ := started.first_kmalloc far positive taken
  obtain ⟨h2,returned,last,_⟩ := middle.kfree_live (mem_singleton_self _)
  refine ⟨⟨h2,[]⟩,.next first (.single ?_),rfl,last.list⟩
  have step := Step.kfree (s := ⟨h1,[⟨got.addr + sizeof_alloc_header,request⟩]⟩) (mem_singleton_self _) returned
  rwa [erase_cons_head] at step

end

/-- In every state the list is a free list in address order without touching blocks,
    and allocations lie apart from it and each other. Both calls return. -/
theorem free_list_and_allocations_apart {h : Heap} (started : Started h) {ops : List Op} {s : State}
    (run : Run Step ⟨h,[]⟩ ops s) :
    ∃ free : List Node, Segment s.heap.mem s.heap.free_list free 0 ∧
      (free.map Node.addr).Pairwise (· < ·) ∧ free.Pairwise (fun b c => b.addr + b.value < c.addr) ∧
      (∀ b ∈ free, 8 ∣ b.addr ∧ h.heap_base ≤ b.addr ∧ b.addr + b.value ≤ h.heap_base + h.heap_size) ∧
      (∀ a ∈ s.live, h.heap_base + sizeof_alloc_header ≤ a.ptr ∧ a.ptr + a.request ≤ h.heap_base + h.heap_size) ∧
      (∀ a ∈ s.live, ∀ b ∈ free, Apart b a.extent) ∧ s.live.Pairwise (fun a b => Apart a.extent b.extent) ∧
      (∀ request, Far request → ∃ result, kmalloc s.heap request = some result) ∧
      (∀ a ∈ s.live, ∃ result, kfree s.heap a.ptr = some result) := by
  obtain ⟨free,sound,baseIs,sizeIs⟩ := run_holds started run
  have room := sound.room
  refine ⟨free,sound.list,?_,sound.arena.ordered,?_,?_,?_,?_,?_,?_⟩
  · refine pairwise_map.mpr (sound.arena.ordered.imp ?_)
    intro b c below
    unfold Below at below
    omega
  · intro b member
    have inside := sound.arena.freeInside b member
    exact ⟨sound.aligned b member,by omega,by omega⟩
  · intro a listed
    have inside := sound.arena.usedInside _ (List.mem_map_of_mem listed)
    have high := (sound.headers a listed).1
    have within := sound.extent_within listed
    unfold Allocation.extent at within
    dsimp only at within
    omega
  · intro a listed b member
    exact Apart.shrink (sound.arena.freeUsed b member _ (List.mem_map_of_mem listed)) ⟨rfl,le_rfl⟩
      (sound.extent_within listed)
  · refine (pairwise_map.mp sound.arena.usedApart).imp_of_mem ?_
    intro a b first second apart
    exact Apart.shrink apart (sound.extent_within first) (sound.extent_within second)
  · intro request far
    rcases Nat.eq_zero_or_pos request with rfl | positive
    · exact ⟨(s.heap,0),by simp [kmalloc]⟩
    cases taken : FreeLists.take (sizeof_free_block + 8) (totalOf request) free with
    | none => exact ⟨_,sound.kmalloc_none far positive taken⟩
    | some found =>
      obtain ⟨h1,executed,_⟩ := sound.kmalloc_some far positive taken
      exact ⟨_,executed⟩
  intro a listed
  obtain ⟨h1,executed,_⟩ := sound.kfree_live listed
  exact ⟨h1,executed⟩

theorem free_list_and_allocations_apart_sample : ∃ s, Run Step ⟨sampleHeap,[]⟩ [.kmalloc 8] s ∧ s.live = [⟨4120,8⟩] ∧
    ∃ free, Segment s.heap.mem s.heap.free_list free 0 ∧ ∀ a ∈ s.live, ∀ b ∈ free, Apart b a.extent := by
  obtain ⟨h,step,_⟩ := sampleHeap_started.first_kmalloc (by decide : Far 8) (by decide) rfl
  have run := Run.single step
  obtain ⟨free,list,_,_,_,_,apart,_⟩ := free_list_and_allocations_apart sampleHeap_started run
  exact ⟨_,run,rfl,free,list,apart⟩

/-! ### Bytes over a run -/

/-- The first fit is used up or large enough to be split. -/
def NoRemainder (h : Heap) (request : Nat) : Prop :=
  ∀ free b, Segment h.mem h.free_list free 0 → free.find? (totalOf request ≤ ·.value) = some b →
    b.value = totalOf request ∨ totalOf request + (sizeof_free_block + 8) ≤ b.value

/-- A step that loses no bytes of a block handed out whole. -/
def ExactStep (s : State) (op : Op) (t : State) : Prop :=
  Step s op t ∧ ∀ request, op = .kmalloc request → 0 < request → NoRemainder s.heap request
def held (free : List Node) (live : List Allocation) : Nat := bytes free + bytes (live.map Allocation.block)

theorem held_erase (listed : a ∈ live) :
    bytes (live.map block) = a.block.value + bytes ((live.erase a).map block) := by
  have perm := (perm_cons_erase listed).map block
  have sums := (perm.map Node.value).sum_eq
  simpa [bytes] using sums

theorem NoRemainder.iff_find (sound : Sound h free live) : NoRemainder h request ↔
      ∀ b, free.find? (totalOf request ≤ ·.value) = some b →
        b.value = totalOf request ∨ totalOf request + (sizeof_free_block + 8) ≤ b.value := by
  constructor
  · intro exact b found
    exact exact free b sound.list found
  intro exact others b list found
  rw [segment_unique list sound.list] at found
  exact exact b found

/-- What a step loses is the remainder of a whole block. -/
theorem step_held {op : Op} (sound : Sound s.heap free s.live)
    (step : Step s op t) : ∃ left lost, Sound t.heap left t.live ∧ held left t.live + lost = held free s.live ∧
      t.heap.heap_base = s.heap.heap_base ∧ t.heap.heap_size = s.heap.heap_size ∧ (lost = 0 ↔ ExactStep s op t) := by
  cases whole : step with
  | @kmalloc h request ptr far returned =>
    rcases sound.kmalloc_cases far returned with ⟨zero,same,small⟩ | ⟨got,left,positive,taken,pointer,after,base,size⟩
    · subst same
      refine ⟨free,0,by simpa [zero] using sound,by simp [zero],rfl,rfl,?_⟩
      refine ⟨fun _ => ⟨step,?_⟩,fun _ => rfl⟩
      intro request' opIs positive
      cases opIs
      rw [NoRemainder.iff_find sound,small positive]
      simp
    have nonzero : ptr ≠ 0 := by unfold sizeof_alloc_header at pointer; omega
    obtain ⟨conserved,_⟩ := take_bytes taken
    refine ⟨left,got.value - totalOf request,by simpa [nonzero] using after,?_,base,size,?_⟩
    · simp only [held,nonzero,if_false,map_cons,bytes_cons,block] at conserved ⊢
      omega
    have exactIff := take_exact taken
    constructor
    · intro noLoss
      refine ⟨step,?_⟩
      intro request' opIs _
      cases opIs
      exact (NoRemainder.iff_find sound).mpr (exactIff.mp noLoss)
    · rintro ⟨_,noRemainder⟩
      exact exactIff.mpr ((NoRemainder.iff_find sound).mp (noRemainder request rfl positive))
  | kfree listed returned =>
    obtain ⟨after,base,size⟩ := sound.kfree_cases listed returned
    refine ⟨_,0,after,?_,base,size,fun _ => ⟨step,by simp⟩,fun _ => rfl⟩
    simp only [held,give_bytes,held_erase listed]
    omega
  | store listed _ start stop =>
    exact ⟨free,0,sound.store listed start stop,rfl,rfl,rfl,fun _ => ⟨step,by simp⟩,fun _ => rfl⟩

theorem exact_run_held (run : Run ExactStep s ops t) (sound : Sound s.heap free s.live) :
    ∃ left, Sound t.heap left t.live ∧ held left t.live = held free s.live ∧
      t.heap.heap_base = s.heap.heap_base ∧ t.heap.heap_size = s.heap.heap_size := by
  induction run generalizing free with
  | done s => exact ⟨free,sound,rfl,rfl,rfl⟩
  | next taken _ ih =>
    obtain ⟨middle,lost,after,conserved,base,size,exactly⟩ := step_held sound taken.1
    grind

/-- A run that has kept every byte had no remainder in any step. -/
theorem held_run_exact (run : Run Step s ops t) (sound : Sound s.heap free s.live) :
    ∃ left, Sound t.heap left t.live ∧ held left t.live ≤ held free s.live ∧
      (held left t.live = held free s.live → Run ExactStep s ops t) := by
  induction run generalizing free with
  | done s => exact ⟨free,sound,le_rfl,fun _ => .done s⟩
  | next taken _ ih =>
    obtain ⟨middle,lost,after,conserved,_,_,exactly⟩ := step_held sound taken
    obtain ⟨left,last,bound,rest⟩ := ih after
    refine ⟨left,last,by omega,?_⟩
    intro equal
    exact .next (exactly.mp (by omega)) (rest (by omega))

theorem held_initial (h : Heap) : held [initialBlock h] [] = h.heap_size - sizeof_free_block := by
  simp [held,bytes,initialBlock]

/-- With all freed the heap is its first block again exactly where no remainder was lost. -/
theorem all_freed_iff_exact {h : Heap} (started : Started h) {ops : List Op} {s : State} (run : Run Step ⟨h,[]⟩ ops s)
    (freed : s.live = []) : Segment s.heap.mem s.heap.free_list [initialBlock h] 0 ↔ Run ExactStep ⟨h,[]⟩ ops s := by
  have initial : Sound h [initialBlock h] [] := started.sound
  constructor
  · intro whole
    obtain ⟨left,sound,_,exactly⟩ := held_run_exact run initial
    refine exactly ?_
    rw [segment_unique sound.list whole,freed]
  intro exactly
  obtain ⟨left,sound,kept,base,size⟩ := exact_run_held exactly initial
  dsimp only at base size
  have room := sound.room
  rw [freed,held_initial] at kept
  have all : left = [initialBlock h] := by
    have arena := sound.arena
    rw [base,size] at arena
    have bytesAll : bytes left = h.heap_size - sizeof_free_block := by simpa [held,bytes] using kept
    unfold sizeof_free_block at *
    have := ordered_whole arena.ordered arena.freeInside (by omega) (by omega)
    rw [this,initialBlock,sizeof_free_block]
    congr 2
    omega
  rw [← all]
  exact sound.list

theorem all_freed_iff_exact_sample : ∃ s, Run Step ⟨sampleHeap,[]⟩ [.kmalloc 8,.kfree 4120] s ∧ s.live = [] ∧
    Run ExactStep ⟨sampleHeap,[]⟩ [.kmalloc 8,.kfree 4120] s := by
  obtain ⟨s,run,freed,list⟩ := sampleHeap_started.first_round (by decide : Far 8) (by decide) rfl
  exact ⟨s,run,freed,(all_freed_iff_exact sampleHeap_started run freed).mp list⟩

/-- A request for all but 32 bytes takes 8 that `kfree` does not give back. -/
theorem freed_heap_short : ∃ s, Run Step ⟨sampleHeap,[]⟩ [.kmalloc 65488,.kfree 4120] s ∧ s.live = [] ∧
    Segment s.heap.mem s.heap.free_list [⟨4096,65512⟩] 0 ∧
    ¬ Segment s.heap.mem s.heap.free_list [initialBlock sampleHeap] 0 := by
  obtain ⟨s,run,freed,list⟩ := sampleHeap_started.first_round (by decide : Far 65488) (by decide) rfl
  refine ⟨s,run,freed,list,?_⟩
  intro whole
  exact absurd (segment_unique list whole) (by decide)

/-! ### Sizes that wrap -/

/-- `memset` to zero; of the last word it may clear only the low bytes. -/
def memset_zero (m : Memory) (ptr size : Nat) : Memory := fun w =>
  if ptr ≤ w ∧ w < ptr + size then m w / 256 ^ min 8 (ptr + size - w) * 256 ^ min 8 (ptr + size - w) else m w
def kcalloc (h : Heap) (nmemb size : Nat) : Option (Heap × Nat) :=
  let total_size := wrap (nmemb * size)
  (kmalloc h total_size).map fun (h,ptr) =>
    (if ptr ≠ 0 then { h with mem := memset_zero h.mem ptr total_size } else h,ptr)

/-- The bytes are in the heap, apart from the free blocks of `h` and the live ones of `s`. -/
def Owns (s : State) (h : Heap) (ptr size : Nat) : Prop :=
  s.heap.heap_base ≤ ptr ∧ ptr + size ≤ s.heap.heap_base + s.heap.heap_size ∧
    ∃ free, Segment h.mem h.free_list free 0 ∧ ∀ b ∈ free ++ s.live.map Allocation.block, Apart b ⟨ptr,size⟩

theorem Sound.kmalloc_owns {m : Memory} (sound : Sound s.heap free s.live) (far : Far request)
    (returned : kmalloc s.heap request = some (h,ptr)) (nonnull : ptr ≠ 0)
    (same : SameOutside h.mem m ptr (ptr + request)) : Owns s { h with mem := m } ptr request := by
  obtain ⟨zero,_⟩ | ⟨got,left,positive,_,_,after,base,size⟩ := sound.kmalloc_cases far returned
  · exact absurd zero nonnull
  have high := (after.headers ⟨ptr,request⟩ (by simp)).1
  have inside := after.arena.usedInside (block ⟨ptr,request⟩) (by simp)
  have within := (far_align far positive).1
  simp only [block,totalOf] at inside
  have apart : ∀ b ∈ left ++ s.live.map block, Apart b ⟨ptr,request⟩ := by
    intro b member
    have whole : Apart b (block ⟨ptr,request⟩) := by
      rcases mem_append.mp member with spare | held
      · exact after.arena.freeUsed b spare _ (by simp)
      · exact ((pairwise_cons.mp after.arena.usedApart).1 b held).symm
    simp only [Apart,block,totalOf] at whole ⊢
    omega
  refine ⟨by omega,by omega,left,?_,apart⟩
  refine same.segment (b := ⟨ptr,request⟩) (fun c spare => apart c (by simp [spare])) (fun c spare => ?_) after.list
  have := after.large c spare
  unfold sizeof_free_block at this
  omega

/-- What is in the heap is far from wrapping. -/
theorem Sound.owns_far (sound : Sound s.heap free s.live) (owns : Owns s h ptr request) : Far request := by
  have := sound.room
  obtain ⟨low,high,_⟩ := owns
  unfold Far wordCount
  omega

/-- A pointer has the bytes asked for exactly where the size with its header does not wrap. -/
theorem allocations_own_iff {h : Heap} (started : Started h) {ops : List Op} {s : State} (run : Run Step ⟨h,[]⟩ ops s) :
    (∀ n h' ptr, kmalloc s.heap n = some (h',ptr) → ptr ≠ 0 → (Owns s h' ptr n ↔ Far n)) ∧
    ∀ nmemb size h' ptr, kcalloc s.heap nmemb size = some (h',ptr) → ptr ≠ 0 →
      (Owns s h' ptr (nmemb * size) ↔ Far (nmemb * size)) := by
  obtain ⟨free,sound,_⟩ := run_holds started run
  refine ⟨fun n h' ptr returned nonnull => ⟨sound.owns_far,fun far => ?_⟩,
    fun nmemb size h' ptr returned nonnull => ⟨sound.owns_far,fun far => ?_⟩⟩
  · exact sound.kmalloc_owns far returned nonnull (.refl _ _ _)
  obtain ⟨⟨h1,p⟩,inner,same⟩ := Option.map_eq_some_iff.mp returned
  rw [wrap_of_lt (by unfold Far at far; omega)] at inner same
  cases same
  rw [if_pos nonnull]
  exact sound.kmalloc_owns far inner nonnull fun w outside => if_neg (by omega)

theorem allocations_own_first : ∃ h', kcalloc sampleHeap 3 5 = some (h',4120) ∧ Owns ⟨sampleHeap,[]⟩ h' 4120 15 := by
  obtain ⟨⟨h',ptr⟩,returned,rfl⟩ : ∃ r, kcalloc sampleHeap 3 5 = some r ∧ r.2 = 4120 :=
    Option.map_eq_some_iff.mp (by decide +kernel)
  exact ⟨h',returned,((allocations_own_iff sampleHeap_started (.done _)).2 3 5 _ _ returned (by decide)).mpr (by decide)⟩

/-- `kmalloc` of all bytes but one gets a header only, and `kcalloc` 8 bytes of 2^64 + 8. -/
theorem allocations_not_owned : (kmalloc sampleHeap (2 ^ 64 - 1)).map Prod.snd = some 4120 ∧
    (kcalloc sampleHeap (2 ^ 61 + 1) 8).map Prod.snd = some 4120 ∧
    ∀ h', ¬ Owns ⟨sampleHeap,[]⟩ h' 4120 (2 ^ 64 - 1) ∧ ¬ Owns ⟨sampleHeap,[]⟩ h' 4120 ((2 ^ 61 + 1) * 8) :=
  ⟨by decide +kernel,by decide +kernel,
    fun _ => ⟨fun owns => absurd owns.2.1 (by decide),fun owns => absurd owns.2.1 (by decide)⟩⟩

end ArmOS.Kmalloc

