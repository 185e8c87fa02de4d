import Mathlib
import Chiptune.Bytes

/-!
# Numbers as bytes

A number is stored by its lowest bytes, the lowest first. Read back it is the number modulo a power
of 256, and as a signed number it is the number itself if the width admits it.
-/

namespace Chiptune.Bytes

/-- The lowest bytes of a value, the lowest first. -/
def ofValue : (width : Nat) → (value : Int) → Bytes
  | 0, _ => []
  | width + 1, value => low value :: ofValue width (value / 256)

@[simp] lemma length_ofValue (width : Nat) (value : Int) :
    (ofValue width value).length = width := by
  induction width generalizing value with
  | zero => rfl
  | succ width ih => rw [ofValue, List.length_cons, ih]

lemma littleEndian_ofValue (width : Nat) (value : Int) :
    ((ofValue width value).littleEndian : Int) = value % 256 ^ width := by
  induction width generalizing value with
  | zero => simp [ofValue, littleEndian]
  | succ width ih =>
    have hlow : ((low value).toNat : Int) = value % 256 := by
      rw [low, UInt8.toNat_ofNat_of_lt' (show (value % 256).toNat < 256 by omega)]
      omega
    have hdiv : value / (256 * 256 ^ width) = value / 256 / 256 ^ width := by
      rw [Int.ediv_ediv_of_nonneg (by decide)]
    rw [ofValue, littleEndian]
    push_cast
    rw [ih, hlow, pow_succ', Int.emod_def, Int.emod_def, Int.emod_def, hdiv]
    ring

lemma signed_ofValue {width : Nat} {value : Int} (hwidth : 0 < width)
    (hlow : -2 ^ (8 * width - 1) ≤ value) (hhigh : value < 2 ^ (8 * width - 1)) :
    signed (8 * width) (ofValue width value).littleEndian = value := by
  have hhalf : ((Nat.pow 2 (8 * width - 1) : Nat) : Int) = 2 ^ (8 * width - 1) := by simp
  have hwhole : ((Nat.pow 2 (8 * width) : Nat) : Int) = 2 * 2 ^ (8 * width - 1) := by
    rw [← pow_succ', Nat.sub_add_cancel (by omega)]
    simp
  have hbytes : ((ofValue width value).littleEndian : Int) =
      value % (2 * 2 ^ (8 * width - 1)) := by
    have hpower : (256 : Int) ^ width = ((Nat.pow 2 (8 * width) : Nat) : Int) := by
      simp [pow_mul]
    rw [littleEndian_ofValue, hpower, hwhole]
  unfold signed
  rcases le_or_gt 0 value with hpos | hneg
  · rw [Int.emod_eq_of_lt hpos (by omega)] at hbytes
    rw [if_pos (by omega), hbytes]
  · rw [← Int.add_emod_right, Int.emod_eq_of_lt (by omega) (by omega)] at hbytes
    rw [if_neg (by omega), hbytes, hwhole, Int.add_sub_cancel]

end Chiptune.Bytes
