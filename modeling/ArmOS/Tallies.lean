import ArmOS.Bytes

/-!
Bitmaps in groups with their counts: for each group the number of its clear bits,
and for all groups the sum of these numbers.
-/
namespace ArmOS.Tallies
open Bytes Function Finset Bool
open Finset (range sum_congr)

/-- The clear bits among the first `n` of a bitmap. -/
def clear_bits (bitmap : Buffer) (n : Nat) : Finset Nat :=
  (Finset.range n).filter fun bit => bitmap_test bitmap bit = false
variable {bitmap : Buffer} {n bit : Nat}

theorem mem_clear_bits : bit ∈ clear_bits bitmap n ↔ bit < n ∧ bitmap_test bitmap bit = false := by
  simp [clear_bits]
theorem clear_bits_card_le (bitmap : Buffer) (n : Nat) : (clear_bits bitmap n).card ≤ n :=
  (card_filter_le _ _).trans (card_range n).le

theorem clear_bits_set : clear_bits (bitmap_set bitmap bit) n = (clear_bits bitmap n).erase bit := by
  ext other
  simp only [mem_clear_bits,mem_erase,bitmap_test_set,or_eq_false_iff,decide_eq_false_iff_not]
  tauto

theorem clear_bits_clear (inside : bit < n) :
    clear_bits (bitmap_clear bitmap bit) n = insert bit (clear_bits bitmap n) := by
  ext other
  simp only [mem_clear_bits,mem_insert,bitmap_test_clear,and_eq_false_iff,not_eq_false',
    decide_eq_true_eq]
  grind

theorem sum_update {n g : Nat} (f : Nat → Nat) (x : Nat) (inside : g < n) :
    ∑ i ∈ range n, update f g x i + f g = ∑ i ∈ range n, f i + x := by
  rw [sum_update_of_mem (mem_range.mpr inside),
    ← add_sum_erase _ f (mem_range.mpr inside),sdiff_singleton_eq_erase]
  omega

/-- `count` are the clear bits of each group, `total` of all. -/
structure Tally (n : Nat) (size : Nat → Nat) (bitmap : Nat → Buffer) (count : Nat → Nat) (total : Nat) : Prop where
  counts : ∀ g < n, count g = (clear_bits (bitmap g) (size g)).card
  sum : total = ∑ g ∈ Finset.range n, count g

section
variable {n : Nat} {size count : Nat → Nat} {bitmap : Nat → Buffer} {total : Nat}

section
variable (tally : Tally n size bitmap count total)
include tally

theorem Tally.bits : total = ∑ g ∈ range n, (clear_bits (bitmap g) (size g)).card := by
  rw [tally.sum]
  exact sum_congr rfl (fun g inside => tally.counts g (mem_range.mp inside))

theorem Tally.congr {bitmap' : Nat → Buffer} {count' : Nat → Nat} (bitmaps : ∀ g < n, bitmap' g = bitmap g)
    (counts : ∀ g < n, count' g = count g) : Tally n size bitmap' count' total := by
  constructor
  · intro g inside
    rw [counts g inside,bitmaps g inside,tally.counts g inside]
  rw [tally.sum]
  exact sum_congr rfl (fun g inside => (counts g (mem_range.mp inside)).symm)

theorem Tally.total_le : total ≤ ∑ g ∈ range n, size g := by
  rw [tally.bits]
  exact sum_le_sum (fun g _ => clear_bits_card_le _ _)

variable {g bit : Nat}

theorem Tally.none_in (inside : g < n) (zero : count g = 0)
    (below : bit < size g) : bitmap_test (bitmap g) bit = true := by
  have empty := tally.counts g inside
  rw [zero] at empty
  by_contra clear
  have member := mem_clear_bits.mpr ⟨below,eq_false_iff.mpr clear⟩
  rw [card_eq_zero.mp empty.symm] at member
  cases member

theorem Tally.none_anywhere (inside : g < n)
    (zero : total = 0) (below : bit < size g) : bitmap_test (bitmap g) bit = true := by
  refine tally.none_in inside ?_ below
  have part := single_le_sum (fun i _ => Nat.zero_le (count i)) (mem_range.mpr inside)
  have sum := tally.sum
  omega

/-- One group's bitmap is replaced, its count and the total corrected. -/
theorem Tally.replace (inside : g < n) (next : Buffer)
    {total' : Nat} (same : total' + count g = total + (clear_bits next (size g)).card) :
    Tally n size (update bitmap g next)
      (update count g (clear_bits next (size g)).card) total' := by
  constructor
  · grind [counts]
  have moved := sum_update count (clear_bits next (size g)).card inside
  have sum := tally.sum
  omega

theorem Tally.count_pos (inside : g < n) (below : bit < size g)
    (clear : bitmap_test (bitmap g) bit = false) : 0 < count g ∧ count g ≤ total := by
  have member := mem_clear_bits.mpr ⟨below,clear⟩
  have part := single_le_sum (fun i _ => Nat.zero_le (count i)) (mem_range.mpr inside)
  rw [← tally.sum] at part
  exact ⟨by rw [tally.counts g inside]; exact card_pos.mpr ⟨bit,member⟩,part⟩

/-- Taking a clear bit lowers both counts by one. -/
theorem Tally.take (inside : g < n) (below : bit < size g) (clear : bitmap_test (bitmap g) bit = false) :
    Tally n size (update bitmap g (bitmap_set (bitmap g) bit)) (update count g (count g - 1))
      (total - 1) := by
  have member := mem_clear_bits.mpr ⟨below,clear⟩
  have fewer : (clear_bits (bitmap_set (bitmap g) bit) (size g)).card = count g - 1 := by
    rw [clear_bits_set,card_erase_of_mem member,tally.counts g inside]
  have positive := tally.count_pos inside below clear
  rw [← fewer]
  exact tally.replace inside _ (by omega)

/-- Clearing bits raises both counts. -/
theorem Tally.give {g freed : Nat} (inside : g < n) {next : Buffer}
    (more : (clear_bits next (size g)).card = count g + freed) :
    Tally n size (update bitmap g next) (update count g (count g + freed)) (total + freed) := by
  rw [← more]
  exact tally.replace inside next (by omega)

end

end

end ArmOS.Tallies

