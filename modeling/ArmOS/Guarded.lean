import ArmOS.Bytes

/-!
Buffers of a known size, and computations that fault as soon as they leave one, never
end, or enter themselves. `Safe` says that a computation does not fault and what it returns.
-/
namespace ArmOS.Guarded
open List
open Bytes (Buffer)

inductive Fault where
  | read
  | write
  | stuck
  | nested
deriving DecidableEq, Repr
abbrev Checked (α : Type) := Except Fault α
structure Span where
  bytes : Buffer
  size : Nat

namespace Span

def byte (s : Span) (i : Nat) : Checked Nat := if i < s.size then .ok (s.bytes i).toNat else .error .read

/-- The number in `n` bytes from `off` on, the low byte first. -/
def load (s : Span) (n off : Nat) : Checked Nat :=
  if off + n ≤ s.size then .ok (Bytes.load n s.bytes off) else .error .read
def slice (s : Span) (off n : Nat) : Checked (List UInt8) :=
  if off + n ≤ s.size then .ok ((List.range n).map fun i => s.bytes (off + i)) else .error .read
def of (bytes : List UInt8) : Span := { bytes := fun i => bytes.getD i 0, size := bytes.length }
variable {s : Span}

theorem byte_eq {i : Nat} (inside : i < s.size) : s.byte i = .ok (s.bytes i).toNat := if_pos inside
theorem load_eq {n off : Nat} (inside : off + n ≤ s.size) : s.load n off = .ok (Bytes.load n s.bytes off) := if_pos inside

end Span

section Safe
variable {α β σ : Type} {P : α → Prop} {Q : β → Prop}

/-- The computation does not fault, and what it returns has `P`. -/
def Safe (c : Checked α) (P : α → Prop) : Prop := ∃ a, c = .ok a ∧ P a
theorem Safe.ok {a : α} (holds : P a) : Safe (.ok a) P := ⟨a,rfl,holds⟩
variable {c : Checked α}

theorem Safe.bind {f : α → Checked β} (first : Safe c P) (rest : ∀ a, P a → Safe (f a) Q) : Safe (c >>= f) Q := by
  obtain ⟨a,rfl,holds⟩ := first
  exact rest a holds
theorem Safe.map {f : α → β} (first : Safe c P) (rest : ∀ a, P a → Q (f a)) : Safe (f <$> c) Q := by
  obtain ⟨a,rfl,holds⟩ := first
  exact ⟨f a,rfl,rest a holds⟩
/-- Bytes written from `off` on into a buffer of a given size. -/
def fill (size off : Nat) (bytes : List UInt8) : Checked (List UInt8) :=
  if off + bytes.length ≤ size then .ok bytes else .error .write
/-- A loop over indexes; the body may end it. -/
def for_each (read : Nat → Checked α) (body : σ → α → Option σ) : Nat → Nat → σ → Checked (Option σ)
  | 0, _, s => .ok (some s)
  | left + 1, index, s => do
    let item ← read index
    match body s item with
    | none => .ok none
    | some next => for_each read body left (index + 1) next

/-- Where no read faults, the loop is the fold. -/
theorem for_each_eq {read : Nat → Checked α} {item : Nat → α} {body : σ → α → Option σ} {left index : Nat} {s : σ}
    (reads : ∀ i, index ≤ i → i < index + left → read i = .ok (item i)) :
    for_each read body left index s = .ok (((range' index left).map item).foldlM body s) := by
  induction left generalizing index s with
  | zero => rfl
  | succ left ih =>
    have first := reads index le_rfl (by omega)
    have rest : ∀ i, index + 1 ≤ i → i < index + 1 + left → read i = .ok (item i) :=
      fun i low high => reads i (by omega) (by omega)
    rw [for_each,first,range'_succ,map_cons,foldlM_cons]
    cases next : body s (item index) with
    | none => simp [bind,Except.bind,next]
    | some t => simpa [bind,Except.bind,next] using ih rest

end Safe

end ArmOS.Guarded

