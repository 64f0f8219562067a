import Mathlib.Tactic

/-!
The upper bits of a word: a narrow value held in the low bits of a wider
register, with the bits above it all ones.

* `BitVec.UpperOnes x k`: bits `k` to the top of `x` are all ones; it is
  decidable, weakens upwards (`UpperOnes.mono`) and holds vacuously from the
  width on;
* `BitVec.writeLow`: a store of a narrow value into the low bits, which keeps
  the bits above it (`upperOnes_writeLow_iff`) and is read back
  (`setWidth_writeLow`); `BitVec.fillUpper`: a store of ones above the low
  bits (`upperOnes_fillUpper`);
* `BitVec.allOnes_shiftLeft_le_iff`: the unsigned comparison
  `x ≥ ~0 << k` is the test that bits `k` and up are all ones.
-/

namespace BitVec

variable {w : ℕ}

/-- Bits `k` to the top of `x` are all ones. -/
def UpperOnes (x : BitVec w) (k : ℕ) : Prop :=
  ∀ j < w, k ≤ j → x.getLsbD j = true

instance (x : BitVec w) (k : ℕ) : Decidable (x.UpperOnes k) := by
  unfold UpperOnes
  infer_instance

lemma UpperOnes.mono {x : BitVec w} {k k' : ℕ} (h : x.UpperOnes k) (hk : k ≤ k') :
    x.UpperOnes k' :=
  fun j hj hkj => h j hj (hk.trans hkj)

/-- From the width on there are no bits to fill. -/
lemma upperOnes_of_le (x : BitVec w) {k : ℕ} (hk : w ≤ k) : x.UpperOnes k :=
  fun _ hj hkj => absurd (hj.trans_le hk) (not_lt.mpr hkj)

/-! ### Stores to the low and the upper bits -/

/-- `x` with its low `k` bits replaced by `v`. -/
def writeLow (x : BitVec w) (k : ℕ) (v : BitVec k) : BitVec w :=
  x >>> k <<< k ||| v.setWidth w

lemma getLsbD_writeLow (x : BitVec w) {k : ℕ} (v : BitVec k) (j : ℕ) :
    (x.writeLow k v).getLsbD j = if j < k then v.getLsbD j && decide (j < w) else x.getLsbD j := by
  unfold writeLow
  rw [getLsbD_or, getLsbD_shiftLeft, getLsbD_ushiftRight, getLsbD_setWidth]
  by_cases hj : j < k
  · simp [hj, Bool.and_comm]
  · have hv : v.getLsbD j = false := getLsbD_of_ge v j (not_lt.mp hj)
    by_cases hjw : j < w
    · simp [hj, hjw, hv, Nat.add_sub_cancel' (not_lt.mp hj)]
    · simp [hj, hjw, hv, getLsbD_of_ge x j (not_lt.mp hjw)]

/-- A store to the low `k` bits keeps the bits from `k` up. -/
lemma upperOnes_writeLow_iff (x : BitVec w) {k : ℕ} (v : BitVec k) :
    (x.writeLow k v).UpperOnes k ↔ x.UpperOnes k := by
  have hhigh : ∀ j, k ≤ j → (x.writeLow k v).getLsbD j = x.getLsbD j := fun j hj => by
    rw [getLsbD_writeLow, if_neg (not_lt.mpr hj)]
  exact forall₂_congr fun j _ => imp_congr_right fun hj => by rw [hhigh j hj]

/-- A narrow read after a store to the low bits returns the stored value. -/
lemma setWidth_writeLow (x : BitVec w) {k : ℕ} (v : BitVec k) (hk : k ≤ w) :
    (x.writeLow k v).setWidth k = v := by
  apply eq_of_getLsbD_eq
  intro j hj
  rw [getLsbD_setWidth, getLsbD_writeLow]
  simp [hj, show j < w by omega]

/-- `x` with bits `k` to the top set. -/
def fillUpper (x : BitVec w) (k : ℕ) : BitVec w :=
  x ||| allOnes w <<< k

lemma upperOnes_fillUpper (x : BitVec w) (k : ℕ) : (x.fillUpper k).UpperOnes k := by
  intro j hj hkj
  simp [fillUpper, hj, hkj]

/-- Filling the upper bits leaves the low `k` bits. -/
lemma setWidth_fillUpper (x : BitVec w) (k : ℕ) : (x.fillUpper k).setWidth k = x.setWidth k := by
  apply eq_of_getLsbD_eq
  intro j hj
  simp [fillUpper, getLsbD_shiftLeft, hj]

/-! ### The comparison that tests the upper bits -/

/-- The upper bits of `x` from `k` are all ones exactly when `x / 2^k` is the
largest value of the `w - k` bits left. -/
lemma upperOnes_iff_div (x : BitVec w) {k : ℕ} (hk : k ≤ w) :
    x.UpperOnes k ↔ x.toNat / 2 ^ k = 2 ^ (w - k) - 1 := by
  constructor
  · intro h
    apply Nat.eq_of_testBit_eq
    intro i
    rw [Nat.testBit_div_two_pow, Nat.testBit_two_pow_sub_one]
    by_cases hi : i < w - k
    · rw [decide_eq_true hi, testBit_toNat]
      exact h (i + k) (by omega) (by omega)
    · rw [decide_eq_false hi]
      exact Nat.testBit_lt_two_pow
        ((x.isLt).trans_le (Nat.pow_le_pow_right (by norm_num) (by omega)))
  · intro h j hj hkj
    have hbit := congrArg (Nat.testBit · (j - k)) h
    simp only [Nat.testBit_div_two_pow, Nat.testBit_two_pow_sub_one, Nat.sub_add_cancel hkj] at hbit
    rw [← testBit_toNat, hbit]
    simp
    omega

/-- The word `~0 << k` is `(2^(w-k) - 1) 2^k`. -/
lemma toNat_allOnes_shiftLeft {k : ℕ} (hk : k ≤ w) :
    (allOnes w <<< k).toNat = (2 ^ (w - k) - 1) * 2 ^ k := by
  rw [← Nat.shiftLeft_eq]
  apply Nat.eq_of_testBit_eq
  intro i
  rw [testBit_toNat, getLsbD_shiftLeft, getLsbD_allOnes, Nat.testBit_shiftLeft,
    Nat.testBit_two_pow_sub_one]
  by_cases hik : k ≤ i
  · by_cases hiw : i < w
    · simp [hik, hiw, show i - k < w by omega, show i - k < w - k by omega]
    · simp [hik, hiw, show ¬ i - k < w - k by omega]
  · simp [hik, show i < k by omega]

/-- **The unsigned test `x ≥ ~0 << k` reads the upper bits**: it holds
exactly when bits `k` to the top of `x` are all ones. -/
lemma allOnes_shiftLeft_le_iff (x : BitVec w) {k : ℕ} (hk : k ≤ w) :
    allOnes w <<< k ≤ x ↔ x.UpperOnes k := by
  rw [le_def, toNat_allOnes_shiftLeft hk, upperOnes_iff_div x hk]
  have hlt : x.toNat / 2 ^ k < 2 ^ (w - k) := by
    rw [Nat.div_lt_iff_lt_mul (Nat.two_pow_pos k), ← Nat.pow_add, Nat.sub_add_cancel hk]
    exact x.isLt
  rw [← Nat.le_div_iff_mul_le (Nat.two_pow_pos k)]
  omega

end BitVec
