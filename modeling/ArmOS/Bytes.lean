import Mathlib.Tactic

/-!
Buffers of bytes: little-endian numbers stored in them, copies and fills of a
range, and single bits of a bitmap. A buffer gives a byte at every offset; a
block of a file system is the part below its block size.
-/
namespace ArmOS.Bytes
open Function
open UInt8 (ofNat size toNat_ofNat')

/-- The byte at each offset. -/
abbrev Buffer := Nat → UInt8

/-- The number in `n` bytes from `off` on, the low byte first. -/
def load : Nat → Buffer → Nat → Nat
  | 0, _, _ => 0
  | n + 1, b, off => (b off).toNat + 256 * load n b (off + 1)

/-- Writes the low `n` bytes of `value` from `off` on. -/
def store (n : Nat) (b : Buffer) (off value : Nat) : Buffer := fun i =>
  if off ≤ i ∧ i < off + n then UInt8.ofNat (value / 256 ^ (i - off)) else b i

/-- `memcpy(dst + off, src + start, n)`. -/
def copy (dst : Buffer) (off : Nat) (src : Buffer) (start n : Nat) : Buffer := fun i =>
  if off ≤ i ∧ i < off + n then src (start + (i - off)) else dst i

/-- `memset(dst + off, 0, n)`. -/
def clear (dst : Buffer) (off n : Nat) : Buffer := fun i => if off ≤ i ∧ i < off + n then 0 else dst i
def zeroes : Buffer := fun _ => 0

/-! ### Numbers -/

theorem load_lt (n : Nat) (b : Buffer) (off : Nat) : load n b off < 256 ^ n := by
  induction n generalizing off with
  | zero => simp [load]
  | succ n ih =>
    have low := (b off).toNat_lt
    have high := ih (off + 1)
    rw [load,pow_succ]
    omega

variable {n off value m : Nat} {b : Buffer}

theorem load_congr {c : Buffer} (same : ∀ i, off ≤ i → i < off + n → b i = c i) : load n b off = load n c off := by
  induction n generalizing off with
  | zero => rfl
  | succ n ih =>
    rw [load,load,same off le_rfl (by omega),ih (fun i low high => same i (by omega) (by omega))]

theorem load_zeroes (n off : Nat) : load n zeroes off = 0 := by
  induction n generalizing off with
  | zero => rfl
  | succ n ih => rw [load,ih]; rfl
theorem store_outside {i : Nat} (outside : i < off ∨ off + n ≤ i) : store n b off value i = b i := if_neg (by omega)

/-- The bytes a store writes are those of the number. -/
theorem load_bytes (bytes : ∀ i, i < n → b (off + i) = ofNat (value / 256 ^ i)) : load n b off = value % 256 ^ n := by
  induction n generalizing off value with
  | zero => simp [load,Nat.mod_one]
  | succ n ih =>
    have first := bytes 0 (by omega)
    have rest : ∀ i, i < n → b (off + 1 + i) = ofNat (value / 256 / 256 ^ i) := by
      intro i below
      rw [Nat.div_div_eq_div_mul,← pow_succ',← bytes (i + 1) (by omega)]
      congr 1
      omega
    rw [add_zero,pow_zero,Nat.div_one] at first
    rw [load,first,ih rest,toNat_ofNat',show 2 ^ 8 = 256 from rfl,pow_succ',Nat.mod_mul]

theorem load_store (n : Nat) (b : Buffer) (off value : Nat) : load n (store n b off value) off = value % 256 ^ n := by
  refine load_bytes (fun i below => ?_)
  rw [store,if_pos (by omega),Nat.add_sub_cancel_left]
theorem load_store_apart {other : Nat} (apart : other + m ≤ off ∨ off + n ≤ other) :
    load m (store n b off value) other = load m b other :=
  load_congr (fun _ low high => store_outside (by omega))

/-! ### Bits -/

/-- `bitmap[bit / 8] & (1u << (bit % 8))`. -/
def bitmap_test (bitmap : Buffer) (bit : Nat) : Bool := (bitmap (bit / 8)).toNat.testBit (bit % 8)

/-- `bitmap[bit / 8] |= 1u << (bit % 8)`. -/
def bitmap_set (bitmap : Buffer) (bit : Nat) : Buffer :=
  update bitmap (bit / 8) (bitmap (bit / 8) ||| UInt8.ofNat (2 ^ (bit % 8)))

/-- `bitmap[bit / 8] &= ~(1u << (bit % 8))`. -/
def bitmap_clear (bitmap : Buffer) (bit : Nat) : Buffer :=
  update bitmap (bit / 8) (bitmap (bit / 8) &&& ~~~UInt8.ofNat (2 ^ (bit % 8)))
theorem byte_bit_set (byte : UInt8) (i j : Nat) (low : i < 8) :
    (byte ||| ofNat (2 ^ i)).toNat.testBit j = (byte.toNat.testBit j || decide (i = j)) := by
  have small : 2 ^ i < 2 ^ 8 := Nat.pow_lt_pow_right (by omega) low
  rw [UInt8.toNat_or,toNat_ofNat',Nat.mod_eq_of_lt small,Nat.testBit_or,Nat.testBit_two_pow]

theorem byte_bit_clear (byte : UInt8) (i j : Nat) (low : i < 8) (inside : j < 8) :
    (byte &&& ~~~ofNat (2 ^ i)).toNat.testBit j = (byte.toNat.testBit j && !decide (i = j)) := by
  have small : 2 ^ i < 2 ^ 8 := Nat.pow_lt_pow_right (by omega) low
  have flipped : (~~~ofNat (2 ^ i)).toNat = 2 ^ 8 - (2 ^ i + 1) := by
    rw [UInt8.toNat_not,toNat_ofNat',Nat.mod_eq_of_lt small,show size = 2 ^ 8 from rfl]
    omega
  rw [UInt8.toNat_and,Nat.testBit_and,flipped,Nat.testBit_two_pow_sub_succ small,Nat.testBit_two_pow]
  simp [inside]

theorem bitmap_test_set (bitmap : Buffer) (bit other : Nat) :
    bitmap_test (bitmap_set bitmap bit) other = (bitmap_test bitmap other || decide (bit = other)) := by
  have low := Nat.mod_lt bit (show 8 > 0 by omega)
  unfold bitmap_test bitmap_set
  by_cases same : other / 8 = bit / 8
  · rw [same,update_self,byte_bit_set _ _ _ low]
    congr 1
    exact decide_eq_decide.mpr ⟨fun _ => by omega,fun _ => by omega⟩
  · grind

theorem bitmap_test_clear (bitmap : Buffer) (bit other : Nat) :
    bitmap_test (bitmap_clear bitmap bit) other = (bitmap_test bitmap other && !decide (bit = other)) := by
  have low := Nat.mod_lt bit (show 8 > 0 by omega)
  unfold bitmap_test bitmap_clear
  by_cases same : other / 8 = bit / 8
  · rw [same,update_self,byte_bit_clear _ _ _ low (Nat.mod_lt other (by omega))]
    congr 2
    exact decide_eq_decide.mpr ⟨fun _ => by omega,fun _ => by omega⟩
  rw [update_of_ne same]
  have other_bit : bit ≠ other := fun equal => same (by rw [equal])
  simp [other_bit]

end ArmOS.Bytes

