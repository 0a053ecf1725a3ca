import Mathlib.Tactic

/-!
Singly linked lists in a memory of words. A node keeps a value at its address
and the address of the next node eight bytes further; address 0 ends a list.
-/
namespace ArmOS.Chains
open Function

abbrev Memory := Nat → Nat
structure Node where
  (addr value : Nat)
deriving DecidableEq, Repr

/-- The links of `m` from `p` pass exactly the nodes and stop at `q`. -/
def Segment (m : Memory) : Nat → List Node → Nat → Prop
  | p, [], q => p = q
  | p, b :: rest, q => p = b.addr ∧ b.addr ≠ 0 ∧ m b.addr = b.value ∧ Segment m (m (b.addr + 8)) rest q
def lastAddr (prev : Nat) : List Node → Nat
  | [] => prev
  | b :: rest => lastAddr b.addr rest

theorem segment_append (m : Memory) (p q : Nat) (before after : List Node) :
    Segment m p (before ++ after) q ↔ ∃ r, Segment m p before r ∧ Segment m r after q := by
  induction before generalizing p with
  | nil => simp [Segment]
  | cons b rest ih => grind [Segment]

variable {m : Memory} {p q : Nat} {nodes : List Node}

theorem segment_frame {m' : Memory} (same : ∀ b ∈ nodes, m' b.addr = m b.addr ∧ m' (b.addr + 8) = m (b.addr + 8))
    (segment : Segment m p nodes q) : Segment m' p nodes q := by
  induction nodes generalizing p with
  | nil => exact segment
  | cons b rest ih =>
    obtain ⟨at_p,nonzero,value,tail⟩ := segment
    obtain ⟨sameValue,sameNext⟩ := same b (by simp)
    refine ⟨at_p,nonzero,by rw [sameValue,value],?_⟩
    rw [sameNext]
    exact ih (fun c member => same c (by simp [member])) tail

theorem lastAddr_concat (prev : Nat) (nodes : List Node) (b : Node) : lastAddr prev (nodes ++ [b]) = b.addr := by
  induction nodes generalizing prev with
  | nil => rfl
  | cons c rest ih => exact ih c.addr
theorem lastAddr_mem (prev : Nat) (nonempty : nodes ≠ []) : ∃ b ∈ nodes, lastAddr prev nodes = b.addr := by
  obtain ⟨rest,b,rfl⟩ := List.eq_nil_or_concat nodes |>.resolve_left nonempty
  exact ⟨b,by simp,by rw [List.concat_eq_append,lastAddr_concat]⟩

variable {b : Node}

/-- Rewriting the last link moves the end of the segment. -/
theorem segment_retarget (target : Nat) (apart : ∀ c ∈ nodes, c.addr ≠ b.addr + 8 ∧ c.addr ≠ b.addr)
    (segment : Segment m p (nodes ++ [b]) q) : Segment (update m (b.addr + 8) target) p (nodes ++ [b]) target := by
  obtain ⟨r,first,second⟩ := (segment_append _ _ _ _ _).mp segment
  obtain ⟨at_r,nonzero,value,_⟩ := second
  refine (segment_append _ _ _ _ _).mpr ⟨r,segment_frame ?_ first,at_r,nonzero,?_,?_⟩
  · grind
  · rw [update_of_ne (by omega)]
    exact value
  · simp [Segment]

theorem segment_revalue (value : Nat) (apart : ∀ c ∈ nodes, c.addr + 8 ≠ b.addr ∧ c.addr ≠ b.addr)
    (segment : Segment m p (nodes ++ [b]) q) : Segment (update m b.addr value) p (nodes ++ [⟨b.addr,value⟩]) q := by
  obtain ⟨r,first,second⟩ := (segment_append _ _ _ _ _).mp segment
  obtain ⟨at_r,nonzero,_,tail⟩ := second
  refine (segment_append _ _ _ _ _).mpr ⟨r,segment_frame ?_ first,at_r,nonzero,by simp,?_⟩
  · grind
  · grind [Segment]

theorem segment_unique {left right : List Node} (first : Segment m p left 0)
    (second : Segment m p right 0) : left = right := by
  induction left generalizing p right with
  | nil =>
    cases right with
    | nil => rfl
    | cons c rest =>
      obtain ⟨at_p,nonzero,_⟩ := second
      exact absurd (at_p.symm.trans first) nonzero
  | cons b rest ih =>
    obtain ⟨at_p,nonzero,value,tail⟩ := first
    cases right with
    | nil => exact absurd (at_p.symm.trans second) nonzero
    | cons c others =>
      obtain ⟨at_p',_,value',tail'⟩ := second
      have sameAddr : b.addr = c.addr := at_p.symm.trans at_p'
      have sameValue : b.value = c.value := by rw [← value,← value',sameAddr]
      rw [← sameAddr] at tail'
      rw [ih tail tail']
      cases b
      cases c
      simp_all

end ArmOS.Chains

