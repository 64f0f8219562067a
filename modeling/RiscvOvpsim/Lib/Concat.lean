import Mathlib.Tactic

/-!
Rotations of the concatenation `A ++ B` of two words of the same width.

* `BitVec.extractLsb'_rotateLeft_append`: for `k < w` the upper half of
  `(A ++ B)` rotated left by `k` is `A << k | B >> (w - k)`;
* `BitVec.setWidth_rotateRight_append`: for `k < w` the lower half of
  `(B ++ A)` rotated right by `k` is `A >> k | B << (w - k)`;
* `BitVec.rotateLeft_append_swap`, `BitVec.rotateRight_append_swap`: a
  rotation by `k` from `w` on is the rotation by `k - w` of the concatenation
  with its halves swapped.
-/

namespace BitVec

variable {w : ℕ}

/-- The upper half of `A ++ B` rotated left by `k < w`: `A` shifted up, with
the top of `B` shifted in. -/
theorem extractLsb'_rotateLeft_append (A B : BitVec w) {k : ℕ} (hk : k < w) :
    ((A ++ B).rotateLeft k).extractLsb' w w = A <<< k ||| B >>> (w - k) := by
  apply eq_of_getLsbD_eq
  intro i hi
  simp only [getLsbD_extractLsb', getLsbD_rotateLeft_of_le (show k < w + w by omega),
    getLsbD_append, getLsbD_or, getLsbD_shiftLeft, getLsbD_ushiftRight]
  simp only [hi, show ¬ w + i < k by omega, show w + i < w + w by omega, decide_true,
    decide_false, Bool.true_and, cond_false]
  by_cases hik : i < k
  · -- the bit comes from the top of `B`
    rw [if_pos (show w + i - k < w by omega), show w - k + i = w + i - k by omega]
    simp [hik]
  · rw [if_neg (show ¬ w + i - k < w by omega), show w + i - k - w = i - k by omega,
      getLsbD_of_ge B (w - k + i) (by omega)]
    simp [hik]

/-- The lower half of `B ++ A` rotated right by `k < w`: `A` shifted down,
with the bottom of `B` shifted in. -/
theorem setWidth_rotateRight_append (A B : BitVec w) {k : ℕ} (hk : k < w) :
    ((B ++ A).rotateRight k).setWidth w = A >>> k ||| B <<< (w - k) := by
  apply eq_of_getLsbD_eq
  intro i hi
  simp only [getLsbD_setWidth, getLsbD_rotateRight_of_lt (show k < w + w by omega),
    getLsbD_append, getLsbD_or, getLsbD_shiftLeft, getLsbD_ushiftRight]
  simp only [hi, show i < w + w - k by omega, decide_true, Bool.true_and, cond_true]
  by_cases hik : i < w - k
  · rw [if_pos (show k + i < w by omega)]
    simp [hik]
  · -- the bit comes from the bottom of `B`
    rw [if_neg (show ¬ k + i < w by omega), show k + i - w = i - (w - k) by omega,
      getLsbD_of_ge A (k + i) (by omega)]
    simp [hik]

/-- Rotating left by `w` swaps the halves. -/
theorem rotateLeft_append_swap (A B : BitVec w) {k : ℕ} (hk : w ≤ k) (hk' : k < w + w) :
    (A ++ B).rotateLeft k = (B ++ A).rotateLeft (k - w) := by
  apply eq_of_getLsbD_eq
  intro i hi
  simp only [getLsbD_rotateLeft_of_le hk', getLsbD_rotateLeft_of_le (show k - w < w + w by omega),
    getLsbD_append, hi, decide_true, Bool.true_and]
  -- three ranges of `i`: the bits brought round from `B`, from `A`, and the rest of `B`
  by_cases h1 : i < k - w
  · simp only [h1, show i < k by omega, decide_true, cond_true,
      if_pos (show w + w - k + i < w by omega), if_neg (show ¬ w + w - (k - w) + i < w by omega),
      show w + w - (k - w) + i - w = w + w - k + i by omega]
  · by_cases h2 : i < k
    · simp only [h1, h2, decide_true, decide_false, cond_true, cond_false,
        if_neg (show ¬ w + w - k + i < w by omega), if_pos (show i - (k - w) < w by omega),
        show w + w - k + i - w = i - (k - w) by omega]
    · simp only [h1, h2, decide_false, cond_false,
        if_pos (show i - k < w by omega), if_neg (show ¬ i - (k - w) < w by omega),
        show i - (k - w) - w = i - k by omega]

/-- Rotating right by `w` swaps the halves. -/
theorem rotateRight_append_swap (A B : BitVec w) {k : ℕ} (hk : w ≤ k) (hk' : k < w + w) :
    (B ++ A).rotateRight k = (A ++ B).rotateRight (k - w) := by
  apply eq_of_getLsbD_eq
  intro i hi
  simp only [getLsbD_rotateRight_of_lt hk',
    getLsbD_rotateRight_of_lt (show k - w < w + w by omega), getLsbD_append, hi, decide_true,
    Bool.true_and]
  by_cases h1 : i < w + w - k
  · simp only [h1, show i < w + w - (k - w) by omega, decide_true, cond_true,
      if_neg (show ¬ k + i < w by omega), if_pos (show k - w + i < w by omega),
      show k + i - w = k - w + i by omega]
  · by_cases h2 : i < w + w - (k - w)
    · simp only [h1, h2, decide_true, decide_false, cond_true, cond_false,
        if_pos (show i - (w + w - k) < w by omega), if_neg (show ¬ k - w + i < w by omega),
        show k - w + i - w = i - (w + w - k) by omega]
    · simp only [h1, h2, decide_false, cond_false,
        if_neg (show ¬ i - (w + w - k) < w by omega),
        if_pos (show i - (w + w - (k - w)) < w by omega),
        show i - (w + w - k) - w = i - (w + w - (k - w)) by omega]

end BitVec
