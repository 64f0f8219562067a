import Mathlib.Tactic
import RiscvOvpsim.Lib.Bits

/-!
Bit fields of a 64-bit register, read and written as C bit-field members are:
a read gives the bits of the field as a number, a write stores the value
truncated to the width of the field and leaves every other bit as it was.

* `BitField`: a field of `width` bits at bit `lo`, inside the word;
* `get`, `set`, `mask`: the read, the write and the bits of a field;
* `testBit_set`: the write, bit by bit, from which the rest follows;
* `get_set`, `get_set_of_disjoint`, `set_set`, `set_comm`, `set_get`: how
  reads and writes of one field or of two disjoint fields compose;
* `set_and_not_mask`: a write changes no bit outside its field;
* `get_clamp_le`, `get_ite_set_of_disjoint`: a write that clamps a field, and
  what it leaves of another;
* `get_of_width_eq_zero`, `set_of_width_eq_zero`: a field of no bits;
* `get_beq_one`, `testBit_set_toNat`, `set_lt_two_pow`: a field of one bit
  read and written as a flag, and a write that keeps a word below a bound;
* `ofNat_get`, `toBitVec_set_zero`, `set_zero_get`: a read as a bit vector
  is a slice of the word, and a field at bit 0 alone in a word is its value;
* `get_and_of_get_eq`: a mask that has every bit of a field keeps it;
* `get_toUInt8`: a field of the low byte, read from the byte.
-/

/-- A field of `width` bits starting at bit `lo` of a 64-bit word. -/
structure BitField where
  lo : ℕ
  width : ℕ
  fits : lo + width ≤ 64

namespace BitField

/-- Bit 0 alone fits: the flags at bit 0 of several registers. -/
theorem fits_bit_zero : 0 + 1 ≤ 64 := by norm_num

variable (f g : BitField)

/-- The bits of the field. -/
def mask : UInt64 := UInt64.ofNat ((2 ^ f.width - 1) * 2 ^ f.lo)

/-- Read the field. -/
def get (x : UInt64) : ℕ := x.toNat / 2 ^ f.lo % 2 ^ f.width

/-- Write `v`, truncated to the width, into the field. -/
def set (x : UInt64) (v : ℕ) : UInt64 :=
  (x &&& ~~~f.mask) ||| UInt64.ofNat (v % 2 ^ f.width * 2 ^ f.lo)

/-- Two fields share no bit. -/
def Disjoint : Prop := f.lo + f.width ≤ g.lo ∨ g.lo + g.width ≤ f.lo

instance : Decidable (f.Disjoint g) := by
  unfold Disjoint
  infer_instance

/-- Bit `j` lies in the field. -/
def Mem (j : ℕ) : Prop := f.lo ≤ j ∧ j < f.lo + f.width

instance (j : ℕ) : Decidable (f.Mem j) := by
  unfold Mem
  infer_instance

variable {f g}

lemma Disjoint.symm (h : f.Disjoint g) : g.Disjoint f := Or.symm h

lemma two_pow_width_mul_lt {n : ℕ} (hn : n < 2 ^ f.width) : n * 2 ^ f.lo < 2 ^ 64 :=
  calc n * 2 ^ f.lo < 2 ^ f.width * 2 ^ f.lo := Nat.mul_lt_mul_of_pos_right hn (Nat.two_pow_pos _)
    _ = 2 ^ (f.lo + f.width) := by rw [← pow_add, add_comm]
    _ ≤ 2 ^ 64 := Nat.pow_le_pow_right (by norm_num) f.fits

lemma toNat_mask : f.mask.toNat = (2 ^ f.width - 1) * 2 ^ f.lo := by
  rw [mask, UInt64.toNat_ofNat_of_lt' (by unfold UInt64.size; exact two_pow_width_mul_lt (by
    have := Nat.two_pow_pos f.width; omega))]

lemma testBit_mask (j : ℕ) : f.mask.toNat.testBit j = decide (f.Mem j) := by
  rw [toNat_mask, Nat.testBit_mul_two_pow, Nat.testBit_two_pow_sub_one]
  by_cases hj : f.lo ≤ j
  · simp only [Mem, hj, true_and, decide_true, Bool.true_and]
    exact decide_eq_decide.mpr (by omega)
  · simp [Mem, hj]

/-- **The write, bit by bit**: the bits of the value inside the field, the old
bits outside it. -/
lemma testBit_set (x : UInt64) (v j : ℕ) :
    (f.set x v).toNat.testBit j = if f.Mem j then v.testBit (j - f.lo) else x.toNat.testBit j := by
  have hv : v % 2 ^ f.width * 2 ^ f.lo < 2 ^ 64 := two_pow_width_mul_lt (Nat.mod_lt _ (Nat.two_pow_pos _))
  rw [set, UInt64.toNat_or, UInt64.toNat_and, UInt64.toNat_ofNat_of_lt' (by unfold UInt64.size; exact hv),
    Nat.testBit_or, Nat.testBit_and, Nat.testBit_mul_two_pow, Nat.testBit_mod_two_pow]
  by_cases hj : j < 64
  · rw [UInt64.testBit_toNat_not, decide_eq_true hj, Bool.true_and, testBit_mask]
    by_cases hm : f.Mem j
    · obtain ⟨hlo, hhi⟩ := hm
      simp [Mem, hlo, hhi, show j - f.lo < f.width by omega]
    · simp only [Mem] at hm
      by_cases hlo : f.lo ≤ j
      · have hhi : ¬ j < f.lo + f.width := fun h => hm ⟨hlo, h⟩
        simp [Mem, hlo, hhi, show ¬ j - f.lo < f.width by omega]
      · simp [Mem, hlo]
  · -- above the word neither side has a bit
    have hout : ¬ f.Mem j := fun h => hj (by have := f.fits; unfold Mem at h; omega)
    have hx : x.toNat.testBit j = false :=
      Nat.testBit_lt_two_pow (lt_of_lt_of_le x.toNat_lt (Nat.pow_le_pow_right (by norm_num) (by omega)))
    have hlow : (v % 2 ^ f.width * 2 ^ f.lo).testBit j = false :=
      Nat.testBit_lt_two_pow (lt_of_lt_of_le hv (Nat.pow_le_pow_right (by norm_num) (by omega)))
    rw [Nat.testBit_mul_two_pow, Nat.testBit_mod_two_pow] at hlow
    simp only [hout, if_false, hx, Bool.false_and, Bool.false_or]
    exact hlow

lemma testBit_get (x : UInt64) (k : ℕ) :
    (f.get x).testBit k = (decide (k < f.width) && x.toNat.testBit (f.lo + k)) := by
  rw [get, Nat.testBit_mod_two_pow, Nat.testBit_div_two_pow, add_comm]

/-- Reading a field just written gives the value, truncated. -/
@[simp] lemma get_set (x : UInt64) (v : ℕ) : f.get (f.set x v) = v % 2 ^ f.width := by
  apply Nat.eq_of_testBit_eq
  intro k
  rw [testBit_get, testBit_set, Nat.testBit_mod_two_pow]
  by_cases hk : k < f.width
  · simp [Mem, hk]
  · simp [hk]

/-- Writing a field leaves a disjoint field as it was. -/
lemma get_set_of_disjoint (h : f.Disjoint g) (x : UInt64) (v : ℕ) :
    g.get (f.set x v) = g.get x := by
  apply Nat.eq_of_testBit_eq
  intro k
  rw [testBit_get, testBit_get, testBit_set]
  by_cases hk : k < g.width
  · have hout : ¬ f.Mem (g.lo + k) := by unfold Mem Disjoint at *; omega
    simp [hout]
  · simp [hk]

/-- A write changes no bit outside its field. -/
lemma set_and_not_mask (x : UInt64) (v : ℕ) : f.set x v &&& ~~~f.mask = x &&& ~~~f.mask := by
  apply UInt64.toNat_inj.mp
  apply Nat.eq_of_testBit_eq
  intro j
  rw [UInt64.toNat_and, UInt64.toNat_and, Nat.testBit_and, Nat.testBit_and, testBit_set]
  by_cases hm : f.Mem j
  · have hbit : (~~~f.mask).toNat.testBit j = false := by
      rw [UInt64.testBit_toNat_not, testBit_mask, decide_eq_true hm, Bool.not_true, Bool.and_false]
    rw [hbit, Bool.and_false, Bool.and_false]
  · rw [if_neg hm]

lemma set_ext {x y : UInt64} (h : ∀ j, x.toNat.testBit j = y.toNat.testBit j) : x = y :=
  UInt64.toNat_inj.mp (Nat.eq_of_testBit_eq h)

/-- The last of two writes of one field wins. -/
@[simp] lemma set_set (x : UInt64) (v w : ℕ) : f.set (f.set x v) w = f.set x w := by
  apply set_ext
  intro j
  rw [testBit_set, testBit_set, testBit_set]
  split_ifs <;> rfl

/-- Writes of disjoint fields commute. -/
lemma set_comm (h : f.Disjoint g) (x : UInt64) (v w : ℕ) :
    f.set (g.set x w) v = g.set (f.set x v) w := by
  apply set_ext
  intro j
  rw [testBit_set, testBit_set, testBit_set, testBit_set]
  by_cases hf : f.Mem j
  · have hg : ¬ g.Mem j := by unfold Mem Disjoint at *; omega
    simp [hf, hg]
  · simp [hf]

/-- Writing back what a field holds changes nothing. -/
@[simp] lemma set_get (x : UInt64) : f.set x (f.get x) = x := by
  apply set_ext
  intro j
  rw [testBit_set, testBit_get]
  by_cases hf : f.Mem j
  · obtain ⟨hlo, hhi⟩ := hf
    simp [Mem, hlo, hhi, show j - f.lo < f.width by omega, show f.lo + (j - f.lo) = j by omega]
  · simp [hf]

lemma get_lt (x : UInt64) : f.get x < 2 ^ f.width := Nat.mod_lt _ (Nat.two_pow_pos _)

/-- A field of the low byte reads the same from the byte alone. -/
lemma get_toUInt8 (hf : f.lo + f.width ≤ 8) (x : UInt64) :
    f.get x.toUInt8.toUInt64 = f.get x := by
  unfold get
  rw [UInt8.toNat_toUInt64, UInt64.toNat_toUInt8]
  -- the byte is the bits below the field, the field, and bits above it
  have h8 : 2 ^ 8 = 2 ^ f.lo * 2 ^ (8 - f.lo) := by
    rw [← Nat.pow_add, Nat.add_sub_cancel' (by omega)]
  rw [h8, Nat.mod_mul_right_div_self, Nat.mod_mod_of_dvd _ (Nat.pow_dvd_pow 2 (by omega))]

/-- Clamping a field to `m` leaves it at most `m`. -/
lemma get_clamp_le (x : UInt64) (m : ℕ) : f.get (if m < f.get x then f.set x m else x) ≤ m := by
  split_ifs with h
  · rw [get_set]
    exact Nat.mod_le m _
  · exact not_lt.mp h

/-- A write of a field, made or not, leaves a disjoint field as it was. -/
lemma get_ite_set_of_disjoint (h : f.Disjoint g) (p : Prop) [Decidable p] (x : UInt64) (v : ℕ) :
    g.get (if p then f.set x v else x) = g.get x := by
  split_ifs
  · exact get_set_of_disjoint h x v
  · rfl

/-- A field of no bits reads as zero. -/
lemma get_of_width_eq_zero (h : f.width = 0) (x : UInt64) : f.get x = 0 := by
  rw [get, h, pow_zero, Nat.mod_one]

/-- A write of a field of no bits changes nothing. -/
lemma set_of_width_eq_zero (h : f.width = 0) (x : UInt64) (v : ℕ) : f.set x v = x := by
  apply set_ext
  intro j
  have hj : ¬ f.Mem j := by unfold Mem; omega
  rw [testBit_set, if_neg hj]

/-- A field of one bit, read as a flag, is that bit. -/
lemma get_beq_one (h : f.width = 1) (x : UInt64) : (f.get x == 1) = x.toNat.testBit f.lo := by
  rw [get, h, pow_one, Nat.testBit_eq_decide_div_mod_eq]
  exact Bool.beq_eq_decide_eq _ _

/-- A flag written into a field of one bit is that bit. -/
lemma testBit_set_toNat (h : f.width = 1) (x : UInt64) (b : Bool) (j : ℕ) :
    (f.set x b.toNat).toNat.testBit j = if j = f.lo then b else x.toNat.testBit j := by
  rw [testBit_set]
  by_cases hj : j = f.lo
  · have hm : f.Mem j := by unfold Mem; omega
    rw [if_pos hm, if_pos hj, hj, Nat.sub_self]
    cases b <;> rfl
  · have hm : ¬ f.Mem j := by unfold Mem; omega
    rw [if_neg hm, if_neg hj]

/-- A field read as a bit vector of its width is the slice of the word. -/
lemma ofNat_get (f : BitField) (x : UInt64) :
    BitVec.ofNat f.width (f.get x) = x.toBitVec.extractLsb' f.lo f.width := by
  apply BitVec.eq_of_toNat_eq
  rw [BitVec.toNat_ofNat, BitVec.extractLsb'_toNat, UInt64.toNat_toBitVec, get,
    Nat.shiftRight_eq_div_pow, Nat.mod_mod]

/-- A field at bit 0 written into a clear word is the value, truncated. -/
lemma toBitVec_set_zero (h : f.lo = 0) (v : ℕ) :
    (f.set 0 v).toBitVec = (BitVec.ofNat f.width v).setWidth 64 := by
  apply BitVec.eq_of_getLsbD_eq
  intro i hi
  rw [← BitVec.testBit_toNat, UInt64.toNat_toBitVec, testBit_set, BitVec.getLsbD_setWidth,
    BitVec.getLsbD_ofNat]
  by_cases hm : f.Mem i
  · have hw : i < f.width := by unfold Mem at hm; omega
    simp [hm, hw, hi, h]
  · have hw : ¬ i < f.width := by unfold Mem at hm; omega
    simp [hm, hw]

/-- A word with no bit above a field at bit 0 is that field written into a
clear word. -/
lemma set_zero_get (h : f.lo = 0) {x : UInt64} (hx : x.toNat < 2 ^ f.width) : f.set 0 (f.get x) = x := by
  apply set_ext
  intro j
  rw [testBit_set]
  by_cases hm : f.Mem j
  · have hw : j < f.width := by unfold Mem at hm; omega
    rw [if_pos hm, testBit_get, h, Nat.sub_zero, zero_add, decide_eq_true hw, Bool.true_and]
  · have hw : f.width ≤ j := by unfold Mem at hm; omega
    rw [if_neg hm, Nat.testBit_lt_two_pow (lt_of_lt_of_le hx (Nat.pow_le_pow_right (by norm_num) hw))]
    simp

/-- A write of a field below bit `k` keeps a word below `2 ^ k`. -/
lemma set_lt_two_pow {x : UInt64} {k : ℕ} (hx : x.toNat < 2 ^ k) (hf : f.lo + f.width ≤ k) (v : ℕ) :
    (f.set x v).toNat < 2 ^ k := by
  apply Nat.lt_pow_two_of_testBit
  intro j hj
  have hout : ¬ f.Mem j := by unfold Mem; omega
  rw [testBit_set, if_neg hout]
  exact Nat.testBit_lt_two_pow (lt_of_lt_of_le hx (Nat.pow_le_pow_right (by norm_num) hj))

/-- A mask that has every bit of a field leaves the field of a word as it
was. -/
lemma get_and_of_get_eq {m : UInt64} (h : f.get m = 2 ^ f.width - 1) (x : UInt64) :
    f.get (x &&& m) = f.get x := by
  apply Nat.eq_of_testBit_eq
  intro k
  rw [testBit_get, testBit_get, UInt64.toNat_and, Nat.testBit_and]
  by_cases hk : k < f.width
  · have hm : m.toNat.testBit (f.lo + k) = true := by
      have hbit := testBit_get (f := f) m k
      rw [h, Nat.testBit_two_pow_sub_one, decide_eq_true hk, Bool.true_and] at hbit
      exact hbit.symm
    rw [hm, Bool.and_true]
  · simp [hk]

end BitField
