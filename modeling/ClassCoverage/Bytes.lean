/-! Byte strings and numbers of a fixed width in them, least significant byte first. -/
namespace ClassCoverage

-- Powers and sums of numbers are those of the core library, also in modules that know the ones of
-- algebra.
attribute [scoped instance (2000)] instPowNat
attribute [scoped instance (2000)] Zero.ofOfNat0

abbrev Bytes := List UInt8

namespace Bytes

def ofNat : (width : Nat) → Nat → Bytes
  | 0, _ => []
  | width + 1, number => UInt8.ofNat number :: ofNat width (number / 256)

def toNat : Bytes → Nat
  | [] => 0
  | byte :: rest => byte.toNat + 256 * toNat rest

/-- The bytes of an ASCII or any other text in UTF-8. -/
def ofString (text : String) : Bytes := text.toUTF8.toList

@[simp] theorem length_ofNat (width number : Nat) : (ofNat width number).length = width := by
  induction width generalizing number with
  | zero => rfl
  | succ width ih => simp [ofNat, ih]

theorem toNat_ofNat (width number : Nat) : toNat (ofNat width number) = number % 256 ^ width := by
  induction width generalizing number with
  | zero => simp [ofNat, toNat, Nat.mod_one]
  | succ width ih =>
    have byte : (UInt8.ofNat number).toNat = number % 256 := by simp
    rw [ofNat, toNat, ih, byte, Nat.pow_succ, Nat.mul_comm (256 ^ width) 256, Nat.mod_mul]

theorem toNat_lt (bytes : Bytes) : toNat bytes < 256 ^ bytes.length := by
  induction bytes with
  | nil => simp [toNat]
  | cons byte rest ih =>
    have small := byte.toNat_lt
    rw [toNat, List.length_cons, Nat.pow_succ]
    omega

/-- Big-endian words, as digests are written. -/
def ofWord (word : UInt32) : Bytes :=
  [(word >>> 24).toUInt8, (word >>> 16).toUInt8, (word >>> 8).toUInt8, word.toUInt8]

end Bytes
end ClassCoverage
