import ClassCoverage.Text.Utf8
import Mathlib.Data.Char
import Mathlib.Data.List.Lex
import Mathlib.Data.UInt

/-! Texts are ordered as their bytes are: of two characters the smaller has the smaller bytes,
whatever follows. -/
namespace ClassCoverage

namespace Utf8

/-- Of two numbers written to the base 64 the last digits only count where all before them are
equal. -/
private theorem digits_lt {a b : Nat} (less : a < b) :
    a / 64 < b / 64 ∨ a / 64 = b / 64 ∧ a % 64 < b % 64 := by
  omega

/-- The bytes of a smaller character are smaller, whatever follows. -/
theorem utf8EncodeChar_append_lt {one other : Char} (less : one < other) (behind behind' : Bytes) :
    String.utf8EncodeChar one ++ behind < String.utf8EncodeChar other ++ behind' := by
  have codes : one.val.toNat < other.val.toNat := UInt32.lt_iff_toNat_lt.mp (Char.lt_def.mp less)
  have bound : other.val.toNat < 0x110000 := by
    have valid := other.valid
    simp only [UInt32.isValidChar, Nat.isValidChar] at valid
    omega
  unfold String.utf8EncodeChar
  generalize one.val.toNat = a at codes
  generalize other.val.toNat = b at codes bound
  have byte {value : Nat} (small : value < 256) : (UInt8.ofNat value).toNat = value := by
    rw [UInt8.toNat_ofNat', Nat.mod_eq_of_lt small]
  -- All bytes but those that show the length are digits to the base 64.
  have first : a / 262144 % 8 = a / 64 / 64 / 64 ∧ b / 262144 % 8 = b / 64 / 64 / 64 := by omega
  have second (value : Nat) : value / 4096 = value / 64 / 64 := by omega
  have last := digits_lt codes
  have third (more : a / 64 < b / 64) := digits_lt more
  have fourth (more : a / 64 / 64 < b / 64 / 64) := digits_lt more
  simp only
  -- Longer characters have larger leading bytes; those of one length differ in their digits.
  split_ifs <;>
    simp (disch := omega) only [List.cons_append, List.nil_append, List.cons_lt_cons_iff,
    UInt8.lt_iff_toNat_lt,
      ← UInt8.toNat_inj, byte, first, second] <;> omega

theorem encode_lt_encode {one other : List Char} (less : one < other) :
    encode one < encode other := by
  induction less with
  | nil =>
    obtain ⟨lead, tail, shown, -⟩ := encode_cons _ _
    rw [shown]
    exact List.nil_lt_cons ..
  | cons _ ih => exact List.append_left_lt ih
  | rel less => exact utf8EncodeChar_append_lt less ..

/-- Texts are ordered as their bytes are. -/
theorem encode_lt_encode_iff (one other : List Char) : encode one < encode other ↔ one < other := by
  refine ⟨fun less => ?_, encode_lt_encode⟩
  rcases lt_trichotomy one other with before | rfl | behind
  · exact before
  · exact absurd less (List.lt_irrefl _)
  · exact absurd less (List.lt_asymm (encode_lt_encode behind))

theorem encode_lt_iff (one other : String) :
    encode one.toList < encode other.toList ↔ one < other := by
  rw [encode_lt_encode_iff, String.lt_iff]

theorem encode_le_encode {one other : String} (notLess : ¬ other < one) :
    encode one.toList ≤ encode other.toList := by
  rcases Std.lt_trichotomy one other with less | rfl | greater
  · exact Std.le_of_lt ((encode_lt_iff one other).mpr less)
  · exact Std.le_refl _
  · exact absurd greater notLess

end Utf8

end ClassCoverage
