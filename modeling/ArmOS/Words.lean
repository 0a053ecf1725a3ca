import Mathlib.Tactic

/-!
64-bit words as natural numbers: `wrap` for sums in `size_t`, `vaddr_t` or
`paddr_t`, `wrap32` for values stored in a `uint32_t`, and the macros `align_up` and
`align_down` of `include/kernel/util.h`.
-/
namespace ArmOS.Words
open Nat

/-- The number of values of a 64-bit word. -/
def wordCount : Nat := 2 ^ 64

/-- The value a 64-bit register keeps of a sum. -/
def wrap (x : Nat) : Nat := x % wordCount

/-- The value a `uint32_t` keeps. -/
def wrap32 (x : Nat) : Nat := x % 2 ^ 32

/-- `ALIGN_DOWN(x, align)`. -/
def align_down (x align : Nat) : Nat := x / align * align

/-- `ALIGN_UP(x, align)`; the addition wraps first. -/
def align_up (x align : Nat) : Nat := align_down (wrap (x + align - 1)) align

/-- `ALIGN_UP` with a 32-bit `align` clears the upper half. -/
def align_up_narrow (x align : Nat) : Nat := align_down (wrap32 (wrap (x + align - 1))) align

variable {x align y : Nat}

theorem wrap_of_lt (fits : x < wordCount) : wrap x = x := mod_eq_of_lt fits
theorem wrap32_of_lt (fits : x < 2 ^ 32) : wrap32 x = x := mod_eq_of_lt fits
theorem align_down_le (x align : Nat) : align_down x align ≤ x := div_mul_le_self x align
theorem align_down_dvd (x align : Nat) : align ∣ align_down x align := dvd_mul_left _ _

theorem lt_align_down (pos : 0 < align) : x < align_down x align + align := by
  have split := div_add_mod x align
  have small := mod_lt x pos
  rw [mul_comm] at split
  unfold align_down
  omega

theorem align_down_of_dvd (aligned : align ∣ x) : align_down x align = x :=
  Nat.div_mul_cancel aligned
theorem le_align_down (pos : 0 < align) (aligned : align ∣ y) (below : y ≤ x) : y ≤ align_down x align := by
  obtain ⟨k,rfl⟩ := aligned
  simp_all [mul_comm,align_down,Nat.le_div_iff_mul_le]
theorem align_up_dvd (x align : Nat) : align ∣ align_up x align := align_down_dvd _ _

theorem le_align_up (x : Nat) (pos : 0 < align) (fits : x + align - 1 < wordCount) : x ≤ align_up x align := by
  unfold align_up
  rw [wrap_of_lt fits]
  have := lt_align_down (x := x + align - 1) pos
  omega

theorem align_up_lt (x : Nat) (pos : 0 < align) (fits : x + align - 1 < wordCount) : align_up x align < x + align := by
  unfold align_up
  rw [wrap_of_lt fits]
  have := align_down_le (x + align - 1) align
  omega

theorem align_up_le (x align : Nat) : align_up x align ≤ x + align - 1 :=
  (align_down_le _ _).trans (mod_le _ _)

theorem align_up_le_of_dvd (pos : 0 < align) (aligned : align ∣ y) (above : x ≤ y) : align_up x align ≤ y := by
  obtain ⟨k,rfl⟩ := aligned
  unfold align_up align_down
  rw [mul_comm align k]
  refine mul_le_mul_right _ ?_
  have bound : wrap (x + align - 1) ≤ x + align - 1 := mod_le _ _
  refine le_of_lt_succ ((div_lt_iff_lt_mul pos).mpr ?_)
  rw [succ_mul,mul_comm k]
  omega

theorem steps_between (first : align ∣ x) (second : align ∣ y) (ordered : x ≤ y) : ∃ n, y = x + n * align := by
  obtain ⟨n,distance⟩ := (dvd_sub second first)
  exact ⟨n,by rw [mul_comm,← distance]; omega⟩

theorem align_up_of_dvd (pos : 0 < align) (fits : x + align - 1 < wordCount) (aligned : align ∣ x) :
    align_up x align = x := by
  obtain ⟨k,rfl⟩ := aligned
  unfold align_up align_down
  rw [wrap_of_lt fits]
  have same : align * k + align - 1 = align * k + (align - 1) := by omega
  rw [same,mul_add_div pos,div_eq_of_lt (by omega),add_zero,mul_comm]

theorem align_up_add (pos : 0 < align) (fits : x + y + align - 1 < wordCount) (aligned : align ∣ x) :
    align_up (x + y) align = x + align_up y align := by
  obtain ⟨k,rfl⟩ := aligned
  unfold align_up align_down
  rw [wrap_of_lt fits,wrap_of_lt (by omega)]
  have same : align * k + y + align - 1 = align * k + (y + align - 1) := by omega
  rw [same,mul_add_div pos,add_mul,mul_comm align k]

end ArmOS.Words

