import ArmOS.Vma

/-!
Lists of areas in order. A list is ordered above a bound when its areas are not
empty and none reaches past the start of a later one, except below the bound.
Inserting and cutting areas keep the order, whatever the bound.
-/
namespace ArmOS.Areas
open Words Vma List

def Before (bound : Nat) (a b : Area) : Prop := a.stop ≤ b.start ∨ a.stop ≤ bound
structure Ordered (bound : Nat) (vmas : List Area) : Prop where
  nonempty : ∀ vma ∈ vmas, vma.start < vma.stop
  user : ∀ vma ∈ vmas, vma.stop ≤ USER_SPACE_END
  before : vmas.Pairwise (Before bound)
theorem Ordered.nil (bound : Nat) : Ordered bound [] := ⟨by simp,by simp,.nil⟩

variable {bound : Nat} {vma : Area} {vmas after : List Area} {rest : List Area}

theorem Ordered.tail (ordered : Ordered bound (vma :: rest)) : Ordered bound rest :=
  ⟨(forall_mem_cons.mp ordered.nonempty).2,
    (forall_mem_cons.mp ordered.user).2,(pairwise_cons.mp ordered.before).2⟩

theorem Ordered.mono {low high : Nat} (le : low ≤ high) (ordered : Ordered low vmas) : Ordered high vmas := by
  refine ⟨ordered.nonempty,ordered.user,ordered.before.imp ?_⟩
  rintro a b (apart | below)
  · exact .inl apart
  · exact .inr (below.trans le)

/-- Sorted by start, ranges not empty and apart. -/
structure Sorted (vmas : List Area) : Prop where
  sorted : vmas.Pairwise (fun a b => a.start < b.start)
  nonempty : ∀ vma ∈ vmas, vma.start < vma.stop
  disjoint : vmas.Pairwise (fun a b => ∀ address, ¬ (a.Has address ∧ b.Has address))

theorem Ordered.sorted (ordered : Ordered 0 vmas) : Sorted vmas := by
  have apart : vmas.Pairwise (fun a b => a.stop ≤ b.start ∧ a.start < a.stop) := by
    refine ordered.before.imp_of_mem ?_
    rintro a b first - order
    have := ordered.nonempty a first
    exact ⟨by rcases order with apart | below <;> omega,this⟩
  refine ⟨apart.imp ?_,ordered.nonempty,apart.imp ?_⟩
  · rintro a b ⟨apart,nonempty⟩
    omega
  rintro a b ⟨apart,nonempty⟩ address ⟨first,second⟩
  unfold Area.Has at first second
  omega

/-! ### Insertion -/

variable {v : Area}

theorem insert_mem (inserted : insert_area vma vmas = some after) : v ∈ after ↔ v = vma ∨ v ∈ vmas := by
  induction vmas generalizing after with
  | nil =>
    cases inserted
    simp
  | cons next rest ih =>
    unfold insert_area at inserted
    split at inserted
    · obtain ⟨after',later,rfl⟩ := Option.map_eq_some_iff.mp inserted
      simp only [mem_cons,ih later]
      tauto
    split at inserted
    · cases inserted
    cases inserted
    simp

theorem insert_before (ordered : Ordered bound vmas) (nonempty : vma.start < vma.stop)
    (inserted : insert_area vma vmas = some after) : after.Pairwise (Before bound) := by
  induction vmas generalizing after with
  | nil =>
    cases inserted
    exact pairwise_singleton _ _
  | cons next rest ih =>
    have here := pairwise_cons.mp ordered.before
    have some_next := ordered.nonempty next (mem_cons_self ..)
    unfold insert_area at inserted
    split at inserted
    · rename_i passed
      obtain ⟨after',later,rfl⟩ := Option.map_eq_some_iff.mp inserted
      refine pairwise_cons.mpr ⟨?_,ih ordered.tail later⟩
      intro v member
      rcases (insert_mem later).mp member with rfl | old
      · exact .inl passed
      · exact here.1 v old
    split at inserted
    · cases inserted
    rename_i above
    cases inserted
    refine pairwise_cons.mpr ⟨?_,ordered.before⟩
    intro v member
    rcases mem_cons.mp member with rfl | old
    · exact .inl (by omega)
    -- a later area starts after `next` ends, unless `next` is below the bound
    rcases here.1 v old with apart | below
    · exact .inl (by omega)
    · exact .inr (by omega)

variable {start size shm_id : Nat} {flags : Flags} {node : Bool}

theorem create_vma_ordered (ordered : Ordered bound vmas)
    (created : create_vma vmas start size flags shm_id node = some after) : Ordered bound after := by
  unfold create_vma at created
  dsimp only at created
  split at created
  · cases created
  have inserted : insert_area ⟨start,wrap (start + size),flags,shm_id⟩ vmas = some after := by grind
  refine ⟨?_,?_,insert_before ordered (by grind) inserted⟩
  · intro v member
    rcases (insert_mem inserted).mp member with rfl | old
    · grind
    · exact ordered.nonempty v old
  intro v member
  rcases (insert_mem inserted).mp member with rfl | old
  · grind
  · exact ordered.user v old

/-! ### Cutting -/

/-- The areas that are left of one after a cut, in order. -/
structure Pieces (vma : Area) (pieces : List Area) : Prop where
  inside : ∀ piece ∈ pieces, vma.start ≤ piece.start ∧ piece.start < piece.stop ∧ piece.stop ≤ vma.stop
  apart : pieces.Pairwise (fun a b => a.stop ≤ b.start)
theorem Pieces.none (vma : Area) : Pieces vma [] := ⟨by simp,.nil⟩
variable {piece : Area}

theorem Pieces.one (low : vma.start ≤ piece.start) (some_piece : piece.start < piece.stop)
    (high : piece.stop ≤ vma.stop) : Pieces vma [piece] :=
  ⟨by simpa using ⟨low,some_piece,high⟩,pairwise_singleton _ _⟩

/-- Every area of the first list is cut to its pieces. -/
inductive Trimmed : List Area → List Area → Prop
  | nil : Trimmed [] []
  | cons {vma : Area} {pieces rest after : List Area} :
      Pieces vma pieces → Trimmed rest after → Trimmed (vma :: rest) (pieces ++ after)
theorem Trimmed.keep (some_area : vma.start < vma.stop)
    (trimmed : Trimmed rest after) : Trimmed (vma :: rest) (vma :: after) :=
  .cons (.one le_rfl some_area le_rfl) trimmed

theorem Trimmed.refl (nonempty : ∀ vma ∈ vmas, vma.start < vma.stop) : Trimmed vmas vmas := by
  induction vmas with
  | nil => exact .nil
  | cons vma rest ih =>
    obtain ⟨here,later⟩ := forall_mem_cons.mp nonempty
    exact .keep here (ih later)

theorem Trimmed.inside (trimmed : Trimmed vmas after) (member : piece ∈ after) :
    ∃ vma ∈ vmas, vma.start ≤ piece.start ∧ piece.start < piece.stop ∧ piece.stop ≤ vma.stop := by
  induction trimmed with
  | nil => simp at member
  | cons pieces _ ih =>
    rcases mem_append.mp member with here | later
    · exact ⟨_,mem_cons_self ..,pieces.inside piece here⟩
    obtain ⟨vma,old,within⟩ := ih later
    exact ⟨vma,mem_cons_of_mem _ old,within⟩

theorem Trimmed.ordered (trimmed : Trimmed vmas after) (ordered : Ordered bound vmas) : Ordered bound after := by
  induction trimmed with
  | nil => exact ordered
  | @cons vma pieces rest after cut later ih =>
    have here := pairwise_cons.mp ordered.before
    have rest_ordered := ih ordered.tail
    refine ⟨?_,?_,pairwise_append.mpr ⟨cut.apart.imp (fun apart => .inl apart),rest_ordered.before,?_⟩⟩
    · exact forall_mem_append.mpr ⟨fun v piece => (cut.inside v piece).2.1,rest_ordered.nonempty⟩
    · refine forall_mem_append.mpr ⟨fun v piece => ?_,rest_ordered.user⟩
      exact (cut.inside v piece).2.2.trans (ordered.user vma (mem_cons_self ..))
    intro piece member v tail
    obtain ⟨old,from_rest,within⟩ := later.inside tail
    have bounds := cut.inside piece member
    rcases here.1 old from_rest with apart | below
    · exact .inl (by omega)
    · exact .inr (by omega)

theorem remove_vma_trimmed (nonempty : ∀ vma ∈ vmas, vma.start < vma.stop) (start stop : Nat) :
    Trimmed vmas (remove_vma vmas start stop) := by
  induction vmas with
  | nil => exact .nil
  | cons vma rest ih =>
    obtain ⟨here,later⟩ := forall_mem_cons.mp nonempty
    unfold remove_vma
    by_cases exact_bounds : vma.start = start ∧ vma.stop = stop
    · rw [eraseP_cons_of_pos (by simpa using exact_bounds)]
      exact .cons (.none vma) (.refl later)
    rw [eraseP_cons_of_neg (by simpa using exact_bounds)]
    exact .keep here (ih later)

/-! ### The end of the heap -/

variable {heap_start stop : Nat}

theorem set_heap_end_mem
    (member : v ∈ set_heap_end vmas heap_start stop) : v ∈ vmas ∨ ∃ old ∈ vmas, old.start = heap_start ∧
      v = { old with stop := stop } := by
  induction vmas with
  | nil => exact .inl member
  | cons vma rest ih =>
    unfold set_heap_end at member
    grind

/-- The heap may end where no other area starts before. -/
theorem set_heap_end_ordered (ordered : Ordered bound vmas) (above : heap_start < stop) (user : stop ≤ USER_SPACE_END)
    (clear : stop ≤ bound ∨ bound = 0 ∧ ∀ v ∈ vmas, heap_start < v.start → stop ≤ v.start) :
    Ordered bound (set_heap_end vmas heap_start stop) := by
  induction vmas with
  | nil => exact ordered
  | cons vma rest ih =>
    have here := pairwise_cons.mp ordered.before
    have some_area := ordered.nonempty vma (mem_cons_self ..)
    unfold set_heap_end
    split
    · rename_i heap
      refine ⟨?_,?_,pairwise_cons.mpr ⟨?_,here.2⟩⟩
      · exact forall_mem_cons.mpr ⟨heap ▸ above,ordered.tail.nonempty⟩
      · exact forall_mem_cons.mpr ⟨user,ordered.tail.user⟩
      intro v member
      rcases clear with below | ⟨rfl,clear⟩
      · exact .inr below
      have later : heap_start < v.start := by rcases here.1 v member with apart | low <;> omega
      exact .inl (clear v (mem_cons_of_mem _ member) later)
    have rest_ordered := ih ordered.tail (clear.imp_right
      (fun clear => ⟨clear.1,fun v member => clear.2 v (mem_cons_of_mem _ member)⟩))
    refine ⟨?_,?_,pairwise_cons.mpr ⟨?_,rest_ordered.before⟩⟩
    · exact forall_mem_cons.mpr ⟨some_area,rest_ordered.nonempty⟩
    · exact forall_mem_cons.mpr ⟨ordered.user _ (mem_cons_self ..),rest_ordered.user⟩
    intro v member
    rcases set_heap_end_mem member with old | ⟨old,from_rest,_,rfl⟩
    · exact here.1 v old
    · exact here.1 old from_rest

end ArmOS.Areas

