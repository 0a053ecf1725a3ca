import ArmOS.Guarded
import ArmOS.Words

/-!
Network byte order and the Internet checksum over buffers of a known size.
-/
namespace ArmOS.Packets
open Guarded
open Words (wrap32)

def net_be32 (value : Nat) : Nat :=
  value % 256 * 2 ^ 24 + value / 256 % 256 * 2 ^ 16 + value / 2 ^ 16 % 256 * 2 ^ 8 + value / 2 ^ 24 % 256
def be16_bytes (value : Nat) : List UInt8 := [UInt8.ofNat (value / 256),UInt8.ofNat value]
def be32_bytes (value : Nat) : List UInt8 :=
  [UInt8.ofNat (value / 2 ^ 24),UInt8.ofNat (value / 2 ^ 16),UInt8.ofNat (value / 256),UInt8.ofNat value]

/-- A 32-bit field in network byte order. -/
def load32 (s : Span) (off : Nat) : Checked Nat := net_be32 <$> s.load 4 off

def net_ip_to_bytes (address : Nat) : List UInt8 := be32_bytes address

/-- `net_checksum_add`: the sum of 16-bit words, the last byte padded. -/
def net_checksum_add (s : Span) (sum off : Nat) : Nat → Checked Nat
  | 0 => .ok sum
  | 1 => do
    let b ← s.byte off
    .ok (wrap32 (sum + b * 256))
  | length + 2 => do
    let b0 ← s.byte off
    let b1 ← s.byte (off + 1)
    net_checksum_add s (wrap32 (sum + (b0 * 256 + b1))) (off + 2) length

/-- The loop that adds the carries. -/
def fold_carries (sum : Nat) : Nat :=
  if sum / 65536 ≠ 0 then fold_carries (sum % 65536 + sum / 65536) else sum
termination_by sum
decreasing_by omega

/-- `(uint16_t)~sum` after the carries. -/
def complement (sum : Nat) : Nat := 65535 - fold_carries sum % 65536
def net_checksum (s : Span) (off length : Nat) : Checked Nat := complement <$> net_checksum_add s 0 off length
section
variable {s : Span} {off length : Nat}

end

end ArmOS.Packets

