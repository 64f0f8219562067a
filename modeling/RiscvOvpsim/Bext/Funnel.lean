import Mathlib.Tactic
import RiscvOvpsim.Lib.Concat

/-!
The funnel shifts of the B extension (`doFSL32`, `doFSL64`, `doFSR32`,
`doFSR64` in `riscvBExtension.c`).

The shift amount is `rs2 & (2*XLEN - 1)`. From `XLEN` on the two operands
swap and the amount drops by `XLEN`; the result is then one shift of each
operand, or the first operand alone for a zero amount, where the shift by
`XLEN` would be undefined in C.

* `fslShift_eq`, `fsrShift_eq`: the zero case is the general formula, since a
  shift by the full width clears the word;
* `fsl_eq_rotateLeft`: `fsl(A, s, B)` is the upper half of `A:B` rotated left
  by `s mod 2*XLEN`; `fsr_eq_rotateRight`: `fsr(A, s, B)` is the lower half of
  `B:A` rotated right by it;
* `fsr_eq_fsl`: a right funnel shift is the left one by the complementary
  amount;
* `funnel_shifts_rotate`: the three facts for the four source functions.
-/

namespace RiscvOvpsim

open BitVec

variable {w : ℕ}

/-! ### The model -/

/-- The result of `doFSL`: `shamt ? (A << shamt) | (B >> (XLEN-shamt)) : A`. -/
def fslShift (A B : BitVec w) (shamt : ℕ) : BitVec w :=
  if shamt ≠ 0 then A <<< shamt ||| B >>> (w - shamt) else A

/-- The result of `doFSR`: `shamt ? (A >> shamt) | (B << (XLEN-shamt)) : A`. -/
def fsrShift (A B : BitVec w) (shamt : ℕ) : BitVec w :=
  if shamt ≠ 0 then A >>> shamt ||| B <<< (w - shamt) else A

/-- `doFSL32`/`doFSL64` at `XLEN = w`: the amount `rs2 & (2*XLEN - 1)`, with
the operands swapped from `XLEN` on. -/
def fsl (rs1 : BitVec w) (rs2 : BitVec 32) (rs3 : BitVec w) : BitVec w :=
  let shamt := (rs2 &&& BitVec.ofNat 32 (2 * w - 1)).toNat
  if shamt ≥ w then fslShift rs3 rs1 (shamt - w) else fslShift rs1 rs3 shamt

/-- `doFSR32`/`doFSR64` at `XLEN = w`. -/
def fsr (rs1 : BitVec w) (rs2 : BitVec 32) (rs3 : BitVec w) : BitVec w :=
  let shamt := (rs2 &&& BitVec.ofNat 32 (2 * w - 1)).toNat
  if shamt ≥ w then fsrShift rs3 rs1 (shamt - w) else fsrShift rs1 rs3 shamt

def doFSL32 (rs1 rs2 rs3 : BitVec 32) : BitVec 32 :=
  fsl rs1 rs2 rs3

def doFSL64 (rs1 : BitVec 64) (rs2 : BitVec 32) (rs3 : BitVec 64) : BitVec 64 :=
  fsl rs1 rs2 rs3

def doFSR32 (rs1 rs2 rs3 : BitVec 32) : BitVec 32 :=
  fsr rs1 rs2 rs3

def doFSR64 (rs1 : BitVec 64) (rs2 : BitVec 32) (rs3 : BitVec 64) : BitVec 64 :=
  fsr rs1 rs2 rs3

/-! ### The shifts -/

/-- The special case of a zero amount is the general formula. -/
lemma fslShift_eq (A B : BitVec w) (shamt : ℕ) :
    fslShift A B shamt = A <<< shamt ||| B >>> (w - shamt) := by
  unfold fslShift
  split_ifs with h
  · rfl
  · rw [not_not.mp h, shiftLeft_zero, Nat.sub_zero, ushiftRight_eq_zero (le_refl w),
      BitVec.or_zero]

lemma fsrShift_eq (A B : BitVec w) (shamt : ℕ) :
    fsrShift A B shamt = A >>> shamt ||| B <<< (w - shamt) := by
  unfold fsrShift
  split_ifs with h
  · rfl
  · rw [not_not.mp h, ushiftRight_zero, Nat.sub_zero, shiftLeft_eq_zero (le_refl w),
      BitVec.or_zero]

/-- `rs2 & (2*XLEN - 1)` is `rs2 mod 2*XLEN` when `2*XLEN` is a power of two
that fits in 32 bits. -/
lemma toNat_and_two_mul_sub_one {j : ℕ} (hw : 2 * w = 2 ^ j) (hj : j ≤ 32) (rs2 : BitVec 32) :
    (rs2 &&& BitVec.ofNat 32 (2 * w - 1)).toNat = rs2.toNat % (2 * w) := by
  have hle : 2 * w - 1 < 2 ^ 32 := by
    have := Nat.pow_le_pow_right (show 0 < 2 by norm_num) hj
    omega
  rw [toNat_and, toNat_ofNat, Nat.mod_eq_of_lt hle, hw, Nat.and_two_pow_sub_one_eq_mod]

section Rotation

variable {j : ℕ} (hw : 2 * w = 2 ^ j) (hj : j ≤ 32)
include hw hj

/-- **`fsl(A, s, B)` is the upper half of `A:B` rotated left by `s mod 2*XLEN`.** -/
theorem fsl_eq_rotateLeft (rs1 : BitVec w) (rs2 : BitVec 32) (rs3 : BitVec w) :
    fsl rs1 rs2 rs3 = ((rs1 ++ rs3).rotateLeft (rs2.toNat % (2 * w))).extractLsb' w w := by
  have hk : rs2.toNat % (2 * w) < 2 * w := Nat.mod_lt _ (by rw [hw]; positivity)
  unfold fsl
  rw [toNat_and_two_mul_sub_one hw hj]
  dsimp only
  split_ifs with hge
  · -- from `XLEN` on, the operands swap
    rw [rotateLeft_append_swap _ _ hge (by omega), extractLsb'_rotateLeft_append _ _ (by omega),
      fslShift_eq]
  · rw [extractLsb'_rotateLeft_append _ _ (by omega), fslShift_eq]

/-- **`fsr(A, s, B)` is the lower half of `B:A` rotated right by `s mod 2*XLEN`.** -/
theorem fsr_eq_rotateRight (rs1 : BitVec w) (rs2 : BitVec 32) (rs3 : BitVec w) :
    fsr rs1 rs2 rs3 = ((rs3 ++ rs1).rotateRight (rs2.toNat % (2 * w))).setWidth w := by
  have hk : rs2.toNat % (2 * w) < 2 * w := Nat.mod_lt _ (by rw [hw]; positivity)
  unfold fsr
  rw [toNat_and_two_mul_sub_one hw hj]
  dsimp only
  split_ifs with hge
  · rw [rotateRight_append_swap _ _ hge (by omega), setWidth_rotateRight_append _ _ (by omega),
      fsrShift_eq]
  · rw [setWidth_rotateRight_append _ _ (by omega), fsrShift_eq]

/-- **A right funnel shift is the left one by the complementary amount**:
`fsr(A, s, B) = fsl(A, (2*XLEN - s mod 2*XLEN) mod 2*XLEN, B)`. -/
theorem fsr_eq_fsl (rs1 : BitVec w) (rs2 : BitVec 32) (rs3 : BitVec w) :
    fsr rs1 rs2 rs3 =
      fsl rs1 (BitVec.ofNat 32 ((2 * w - rs2.toNat % (2 * w)) % (2 * w))) rs3 := by
  have hw0 : 0 < w := by
    have := Nat.one_le_two_pow (n := j)
    omega
  have h2w : 2 * w ≤ 2 ^ 32 := hw ▸ Nat.pow_le_pow_right (by norm_num) hj
  set k := rs2.toNat % (2 * w) with hkdef
  have hk : k < 2 * w := Nat.mod_lt _ (by omega)
  -- the complementary amount is below `2*XLEN`, so the mask keeps it
  have ht : (BitVec.ofNat 32 ((2 * w - k) % (2 * w))).toNat % (2 * w) = (2 * w - k) % (2 * w) := by
    have hlt := Nat.mod_lt (2 * w - k) (show 0 < 2 * w by omega)
    rw [toNat_ofNat, Nat.mod_eq_of_lt (show (2 * w - k) % (2 * w) < 2 ^ 32 by omega), Nat.mod_mod]
  unfold fsl fsr
  rw [toNat_and_two_mul_sub_one hw hj, toNat_and_two_mul_sub_one hw hj, ht, ← hkdef]
  dsimp only
  simp only [fslShift_eq, fsrShift_eq]
  rcases Nat.lt_trichotomy k w with hlt | heq | hgt
  · by_cases h0 : k = 0
    · -- no shift: both return `rs1`
      rw [h0]
      simp [show ¬ w ≤ 0 by omega, ushiftRight_eq_zero, shiftLeft_eq_zero]
    · -- the left shift swaps, and shifts `rs3` by `XLEN - s`
      rw [Nat.mod_eq_of_lt (show 2 * w - k < 2 * w by omega), if_neg (by omega),
        if_pos (show 2 * w - k ≥ w by omega), show 2 * w - k - w = w - k by omega,
        show w - (w - k) = k by omega, BitVec.or_comm]
  · -- a shift by `XLEN`: both return `rs3`
    rw [heq, show 2 * w - w = w by omega, Nat.mod_eq_of_lt (show w < 2 * w by omega),
      if_pos (le_refl w), if_pos (le_refl w), Nat.sub_self]
    simp [ushiftRight_eq_zero, shiftLeft_eq_zero]
  · -- the right shift swaps, and shifts `rs3` by `s - XLEN`
    rw [Nat.mod_eq_of_lt (show 2 * w - k < 2 * w by omega), if_pos (show k ≥ w by omega),
      if_neg (show ¬ 2 * w - k ≥ w by omega), show w - (2 * w - k) = k - w by omega,
      show w - (k - w) = 2 * w - k by omega, BitVec.or_comm]

end Rotation

/-! ### The source functions -/

/-- `fsl` brings the top of `rs3` in below `rs1`. -/
example : doFSL32 0x12345678#32 8#32 0x9ABCDEF0#32 = 0x3456789A#32 := by decide

/-- **Funnel shifts are rotations of the concatenation**: for XLEN 32 and 64,
`doFSL(A, s, B)` is the upper half of `A:B` rotated left by `s mod 2*XLEN`,
`doFSR(A, s, B)` the lower half of `B:A` rotated right by it, and so
`doFSR(A, s, B) = doFSL(A, (2*XLEN - s mod 2*XLEN) mod 2*XLEN, B)`. -/
theorem funnel_shifts_rotate :
    (∀ rs1 rs2 rs3 : BitVec 32,
      doFSL32 rs1 rs2 rs3 = ((rs1 ++ rs3).rotateLeft (rs2.toNat % 64)).extractLsb' 32 32 ∧
      doFSR32 rs1 rs2 rs3 = ((rs3 ++ rs1).rotateRight (rs2.toNat % 64)).setWidth 32 ∧
      doFSR32 rs1 rs2 rs3 = doFSL32 rs1 (BitVec.ofNat 32 ((64 - rs2.toNat % 64) % 64)) rs3) ∧
    (∀ (rs1 : BitVec 64) (rs2 : BitVec 32) (rs3 : BitVec 64),
      doFSL64 rs1 rs2 rs3 = ((rs1 ++ rs3).rotateLeft (rs2.toNat % 128)).extractLsb' 64 64 ∧
      doFSR64 rs1 rs2 rs3 = ((rs3 ++ rs1).rotateRight (rs2.toNat % 128)).setWidth 64 ∧
      doFSR64 rs1 rs2 rs3 =
        doFSL64 rs1 (BitVec.ofNat 32 ((128 - rs2.toNat % 128) % 128)) rs3) := by
  -- `2*XLEN` is `2^6` and `2^7`
  have h32 : 2 * 32 = 2 ^ 6 := by norm_num
  have h64 : 2 * 64 = 2 ^ 7 := by norm_num
  refine ⟨fun rs1 rs2 rs3 => ⟨?_, ?_, ?_⟩, fun rs1 rs2 rs3 => ⟨?_, ?_, ?_⟩⟩
  · exact fsl_eq_rotateLeft h32 (by norm_num) rs1 rs2 rs3
  · exact fsr_eq_rotateRight h32 (by norm_num) rs1 rs2 rs3
  · exact fsr_eq_fsl h32 (by norm_num) rs1 rs2 rs3
  · exact fsl_eq_rotateLeft h64 (by norm_num) rs1 rs2 rs3
  · exact fsr_eq_rotateRight h64 (by norm_num) rs1 rs2 rs3
  · exact fsr_eq_fsl h64 (by norm_num) rs1 rs2 rs3

end RiscvOvpsim
