import Mathlib.Data.Finset.Card
import Mathlib.Data.List.Pairwise
import Mathlib.Order.Interval.Finset.Nat
import Mathlib.Tactic.Linarith

/-!
Spans of consecutive numbers: the search for the first span of free numbers, and
the partition of the taken numbers into spans.
-/
namespace ArmOS.Spans
open List

/-- `count` numbers from `first` on. -/
structure Span where
  (first count : Nat)
deriving DecidableEq, Repr
def Span.Has (k : Span) (i : Nat) : Prop := k.first ≤ i ∧ i < k.first + k.count
instance (k : Span) (i : Nat) : Decidable (k.Has i) := inferInstanceAs (Decidable (_ ∧ _))
def Span.Apart (j k : Span) : Prop := ∀ i, ¬ (j.Has i ∧ k.Has i)
theorem Span.Apart.symm {j k : Span} (apart : j.Apart k) : k.Apart j := fun i both => apart i ⟨both.2,both.1⟩
theorem Span.has_first {k : Span} (full : 0 < k.count) : k.Has k.first := ⟨le_rfl,by omega⟩

/-! ### The first span of free numbers -/

section
variable (free : Nat → Bool) (n : Nat)

/-- Walks over `rest` numbers to a free span of `n`. -/
def scan : Nat → Nat → Nat → Nat → Option Nat
  | 0, _, _, _ => none
  | rest + 1, index, start, length =>
    let start := if free index ∧ length = 0 then index else start
    let length := if free index then length + 1 else 0
    if length = n then some start else scan rest (index + 1) start length

def AllFree (k : Span) : Prop := ∀ i, k.Has i → free i = true

/-- The free span before `index`; none of `n` has ended. -/
structure Scanned (index start length : Nat) : Prop where
  ends : 0 < length → start + length = index
  short : length < n
  open_ : AllFree free ⟨index - length,length⟩
  inside : length ≤ index
  maximal : length = index ∨ free (index - length - 1) = false
  before : ∀ r, r + n ≤ index → ¬ AllFree free ⟨r,n⟩

variable {free n}

theorem Scanned.next {index start length : Nat} (scanned : Scanned free n index start length)
    (longer : (if free index then length + 1 else 0) ≠ n) :
    Scanned free n (index + 1) (if free index ∧ length = 0 then index else start)
      (if free index then length + 1 else 0) := by
  have short := scanned.short
  have inside := scanned.inside
  cases openHere : free index with
  | true =>
    simp only [openHere,if_true,true_and] at longer ⊢
    refine ⟨?_,by omega,?_,by omega,?_,?_⟩
    · intro _
      split
      · omega
      have := scanned.ends (by omega)
      omega
    · intro i has
      unfold Span.Has at has
      by_cases last : i = index
      · rw [last]
        exact openHere
      · refine scanned.open_ i ⟨?_,?_⟩ <;> simp only at has ⊢ <;> omega
    · grind [maximal]
    intro r stop allFree
    by_cases earlier : r + n ≤ index
    · exact scanned.before r earlier allFree
    -- A span that ends here would hold the closed number before the walk's span.
    rcases scanned.maximal with all | closed
    · omega
    have := allFree (index - length - 1) ⟨by simp only; omega,by simp only; omega⟩
    rw [closed] at this
    cases this
  | false =>
    simp only [openHere,Bool.false_eq_true,if_false,false_and] at longer ⊢
    refine ⟨by omega,by omega,?_,by omega,.inr (by simpa using openHere),?_⟩
    · intro i has
      unfold Span.Has at has
      simp only at has
      omega
    intro r stop allFree
    by_cases earlier : r + n ≤ index
    · exact scanned.before r earlier allFree
    have := allFree index ⟨by simp only; omega,by simp only; omega⟩
    rw [openHere] at this
    cases this

theorem scan_some {rest index start length r : Nat} (scanned : Scanned free n index start length)
    (found : scan free n rest index start length = some r) : r + n ≤ index + rest ∧ AllFree free ⟨r,n⟩ := by
  induction rest generalizing index start length with
  | zero => cases found
  | succ rest ih =>
    simp only [scan] at found
    by_cases full : (if free index then length + 1 else 0) = n
    · rw [if_pos full] at found
      cases found
      have short := scanned.short
      have inside := scanned.inside
      cases openHere : free index with
      | false =>
        simp only [openHere,Bool.false_eq_true,if_false] at full
        omega
      | true =>
        simp only [openHere,if_true,true_and] at full ⊢
        have startIs : (if length = 0 then index else start) + n = index + 1 := by
          split
          · omega
          have := scanned.ends (by omega)
          omega
        refine ⟨by omega,?_⟩
        intro i has
        unfold Span.Has at has
        simp only at has
        by_cases last : i = index
        · rw [last]
          exact openHere
        · exact scanned.open_ i ⟨by simp only; omega,by simp only; omega⟩
    rw [if_neg full] at found
    have := ih (scanned.next full) found
    exact ⟨by omega,this.2⟩

theorem scan_none {rest index start length : Nat} (scanned : Scanned free n index start length)
    (missing : scan free n rest index start length = none) : ∀ r, r + n ≤ index + rest → ¬ AllFree free ⟨r,n⟩ := by
  induction rest generalizing index start length with
  | zero =>
    intro r inside
    exact scanned.before r inside
  | succ rest ih =>
    simp only [scan] at missing
    by_cases full : (if free index then length + 1 else 0) = n
    · rw [if_pos full] at missing
      cases missing
    rw [if_neg full] at missing
    intro r inside
    exact ih (scanned.next full) missing r (by omega)

theorem Scanned.start (positive : 0 < n) : Scanned free n 0 0 0 := by
  refine ⟨fun _ => rfl,positive,?_,le_rfl,.inl rfl,?_⟩
  · intro i has
    unfold Span.Has at has
    simp only at has
    omega
  intro r inside
  omega

/-- Where everything is free the span starts at 0. -/
theorem scan_all (positive : 0 < n) (all : ∀ i, i < n → free i = true) : scan free n n 0 0 0 = some 0 := by
  cases found : scan free n n 0 0 0 with
  | none =>
    refine absurd ?_ (scan_none (Scanned.start positive) found 0 (by omega))
    intro i has
    exact all i (by have := has.2; simp only at this; omega)
  | some r =>
    have := (scan_some (Scanned.start positive) found).1
    congr 1
    omega

end

/-! ### The taken numbers -/

/-- Below `bound` the listed spans, apart, are what is taken. -/
structure Partition (taken : Nat → Bool) (bound : Nat) (live : List Span) : Prop where
  full : ∀ k ∈ live, 0 < k.count
  inside : ∀ k ∈ live, k.first + k.count ≤ bound
  apart : live.Pairwise Span.Apart
  taken_iff : ∀ i, i < bound → (taken i = true ↔ ∃ k ∈ live, k.Has i)

def takenCount (taken : Nat → Bool) (bound : Nat) : Nat := ((Finset.range bound).filter (taken · = true)).card
theorem takenCount_le (taken : Nat → Bool) (bound : Nat) : takenCount taken bound ≤ bound :=
  (Finset.card_filter_le _ _).trans (le_of_eq (Finset.card_range bound))

theorem takenCount_zero {taken : Nat → Bool} {bound : Nat} (none : ∀ i, i < bound → taken i = false) :
    takenCount taken bound = 0 := by
  refine Finset.card_eq_zero.mpr (Finset.filter_eq_empty_iff.mpr ?_)
  intro i member
  simp [none i (Finset.mem_range.mp member)]

theorem takenCount_add {taken taken' : Nat → Bool} {bound : Nat} {k : Span} (inside : k.first + k.count ≤ bound)
    (free : ∀ i, k.Has i → taken i = false) (changed : ∀ i, i < bound → (taken' i = true ↔ taken i = true ∨ k.Has i)) :
    takenCount taken' bound = takenCount taken bound + k.count := by
  have split : (Finset.range bound).filter (taken' · = true) =
      (Finset.range bound).filter (taken · = true) ∪ Finset.Ico k.first (k.first + k.count) := by
    ext i
    simp only [Finset.mem_filter,Finset.mem_range,Finset.mem_union,Finset.mem_Ico]
    constructor
    · rintro ⟨below,now⟩
      rcases (changed i below).mp now with before | has
      · exact .inl ⟨below,before⟩
      · exact .inr has
    rintro (⟨below,before⟩ | has)
    · exact ⟨below,(changed i below).mpr (.inl before)⟩
    · exact ⟨by omega,(changed i (by omega)).mpr (.inr has)⟩
  have disjoint : Disjoint ((Finset.range bound).filter (taken · = true)) (Finset.Ico k.first (k.first + k.count)) := by
    refine Finset.disjoint_left.mpr ?_
    intro i before has
    have := free i (Finset.mem_Ico.mp has)
    simp [this] at before
  unfold takenCount
  rw [split,Finset.card_union_of_disjoint disjoint,Nat.card_Ico,Nat.add_sub_cancel_left]

section
variable {taken taken' : Nat → Bool} {bound : Nat} {live : List Span} {k : Span}

section
variable (partition : Partition taken bound live)
include partition

theorem Partition.eq_of_has {j : Span} {i : Nat} (first : j ∈ live)
    (second : k ∈ live) (has : j.Has i) (also : k.Has i) : j = k := by
  by_contra different
  have : Std.Symm Span.Apart := ⟨fun _ _ => Span.Apart.symm⟩
  exact partition.apart.forall first second different i ⟨has,also⟩

theorem Partition.add (full : 0 < k.count) (inside : k.first + k.count ≤ bound) (free : ∀ i, k.Has i → taken i = false)
    (changed : ∀ i, i < bound → (taken' i = true ↔ taken i = true ∨ k.Has i)) : Partition taken' bound (k :: live) := by
  refine ⟨?_,?_,?_,?_⟩
  · simpa using ⟨full,partition.full⟩
  · simpa using ⟨inside,partition.inside⟩
  · refine pairwise_cons.mpr ⟨?_,partition.apart⟩
    intro j member i both
    have below : i < bound := by
      have := both.1.2
      omega
    have before := (partition.taken_iff i below).mpr ⟨j,member,both.2⟩
    rw [free i both.1] at before
    cases before
  intro i below
  rw [changed i below,partition.taken_iff i below]
  simp only [mem_cons,exists_eq_or_imp]
  exact or_comm

/-- Giving a span back: the others remain. -/
theorem Partition.remove (member : k ∈ live) (changed : ∀ i, i < bound → (taken' i = true ↔ taken i = true ∧ ¬ k.Has i)) :
    Partition taken' bound (live.filter (fun j => taken' j.first)) := by
  refine ⟨?_,?_,partition.apart.filter _,?_⟩
  · intro j kept
    exact partition.full j (mem_of_mem_filter kept)
  · intro j kept
    exact partition.inside j (mem_of_mem_filter kept)
  intro i below
  rw [changed i below,partition.taken_iff i below]
  constructor
  · rintro ⟨⟨j,listed,has⟩,away⟩
    have firstBelow : j.first < bound := by
      have := partition.inside j listed
      have := partition.full j listed
      omega
    refine ⟨j,mem_filter.mpr ⟨listed,(changed _ firstBelow).mpr ⟨?_,?_⟩⟩,has⟩
    · exact (partition.taken_iff _ firstBelow).mpr ⟨j,listed,Span.has_first (partition.full j listed)⟩
    intro shared
    have same := partition.eq_of_has listed member (Span.has_first (partition.full j listed)) shared
    rw [same] at has
    exact away has
  rintro ⟨j,kept,has⟩
  obtain ⟨listed,still⟩ := mem_filter.mp kept
  refine ⟨⟨j,listed,has⟩,?_⟩
  intro shared
  have same := partition.eq_of_has listed member has shared
  have firstBelow : j.first < bound := by
    have := partition.inside j listed
    have := partition.full j listed
    omega
  have away := ((changed _ firstBelow).mp still).2
  rw [same] at away
  exact away (Span.has_first (partition.full k member))

theorem Partition.keep (same : ∀ i, i < bound → taken' i = taken i) :
    Partition taken' bound (live.filter (fun j => taken' j.first)) ∧
      live.filter (fun j => taken' j.first) = live := by
  have all : live.filter (fun j => taken' j.first) = live := by
    refine filter_eq_self.mpr ?_
    intro j listed
    have := partition.inside j listed
    have full := partition.full j listed
    rw [same _ (by omega)]
    exact (partition.taken_iff _ (by omega)).mpr ⟨j,listed,Span.has_first full⟩
  refine ⟨?_,all⟩
  rw [all]
  exact ⟨partition.full,partition.inside,partition.apart,fun i below => by
    rw [same i below]
    exact partition.taken_iff i below⟩

end

end

end ArmOS.Spans

