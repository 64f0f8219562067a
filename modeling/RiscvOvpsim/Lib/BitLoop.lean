import Mathlib.Tactic

/-!
Loops that build a word one bit per pass, and the rank of a position within
a mask, which a loop with a second counter `j` advancing only on mask bits
keeps.

* `BitVec.getLsbD_foldl_setBit`: the loop `x = 0; for i < n: if (c i) x |=
  1 << i` sets exactly the bits `i < n` with `c i`;
* `BitVec.maskRank m i`: the number of set bits of `m` below `i`, with
  `popCount m` its value at the width; it grows by one exactly at the set bits
  (`maskRank_succ`), strictly between set bits (`maskRank_lt_maskRank`), and
  takes every value below `maskRank m n` at a set bit below `n`
  (`exists_maskRank_eq_iff`);
* `BitVec.bne_ushiftRight_and_one`, `BitVec.and_twoPow_bne_zero`: the tests
  `(x >> i) & 1` and `x & (1 << i)` read bit `i`;
  `BitVec.bne_zero_iff`: a word is nonzero when some bit is set.
-/

namespace BitVec

variable {w : ℕ}

/-- Bit `k` of `1 << j`. -/
lemma getLsbD_one_shiftLeft (j k : ℕ) :
    (1#w <<< j).getLsbD k = (decide (j < w) && decide (j = k)) := by
  rw [← twoPow_eq, getLsbD_twoPow]

/-- The test `(x >> i) & 1` reads bit `i`. -/
lemma bne_ushiftRight_and_one (x : BitVec w) {i : ℕ} (hi : i < w) :
    ((x >>> i) &&& 1#w != 0#w) = x.getLsbD i := by
  have hbit : (x >>> i) &&& 1#w = if x.getLsbD i then 1#w else 0#w := by
    apply eq_of_getLsbD_eq
    intro k hk
    rw [getLsbD_and, getLsbD_ushiftRight, getLsbD_one]
    by_cases hk0 : k = 0
    · subst hk0
      by_cases hx : x.getLsbD i <;> simp [hx, hk]
    · by_cases hx : x.getLsbD i <;> simp [hx, hk0]
  have hone : (1#w) ≠ 0#w := by
    intro h
    have h0 := congrArg (getLsbD · 0) h
    simp only [getLsbD_one, getLsbD_zero, show 0 < w by omega, decide_true,
      Bool.true_and] at h0
    exact absurd h0 (by decide)
  rw [hbit]
  by_cases hx : x.getLsbD i <;> simp [hx, hone]

lemma twoPow_ne_zero {i : ℕ} (hi : i < w) : twoPow w i ≠ 0#w := by
  intro h
  have htoNat := congrArg BitVec.toNat h
  rw [toNat_twoPow_of_lt hi, toNat_zero] at htoNat
  exact absurd htoNat (Nat.two_pow_pos _).ne'

/-- The test `x & (1 << i)` reads bit `i`. -/
lemma and_twoPow_bne_zero (x : BitVec w) {i : ℕ} (hi : i < w) :
    (x &&& twoPow w i != 0#w) = x.getLsbD i := by
  rw [and_twoPow]
  by_cases h : x.getLsbD i <;> simp [h, twoPow_ne_zero hi]

/-- A word is nonzero when some bit below the width is set. -/
lemma bne_zero_iff (x : BitVec w) : (x != 0#w) = true ↔ ∃ t < w, x.getLsbD t = true := by
  rw [bne_iff_ne, ne_eq]
  constructor
  · intro hx
    by_contra hall
    apply hx
    apply eq_of_getLsbD_eq
    intro t ht
    rw [getLsbD_zero]
    by_contra hxt
    exact hall ⟨t, ht, by simpa using hxt⟩
  · rintro ⟨t, -, hxt⟩ rfl
    rw [getLsbD_zero] at hxt
    exact absurd hxt (by decide)

/-- **The bits a set-bit loop sets**: pass `i` sets bit `i` when `c i`. -/
lemma getLsbD_foldl_setBit (c : ℕ → Bool) (n k : ℕ) :
    ((List.range n).foldl (fun x i => if c i then x ||| 1#w <<< i else x) 0#w).getLsbD k =
      (decide (k < n) && decide (k < w) && c k) := by
  induction n with
  | zero => simp
  | succ n ih =>
      rw [List.range_succ, List.foldl_append, List.foldl_cons, List.foldl_nil]
      by_cases hc : c n
      · rw [if_pos hc, getLsbD_or, ih, getLsbD_one_shiftLeft]
        by_cases hkn : k = n
        · subst hkn
          simp [hc]
        · have hlt : k < n + 1 ↔ k < n := by omega
          simp [hlt, Ne.symm hkn]
      · rw [if_neg hc, ih]
        by_cases hkn : k = n
        · subst hkn
          simp [hc]
        · have hlt : k < n + 1 ↔ k < n := by omega
          simp [hlt]

/-! ### Rank within a mask -/

/-- The number of set bits of `m` below position `i`. -/
def maskRank (m : BitVec w) (i : ℕ) : ℕ :=
  (List.range i).countP (m.getLsbD ·)

/-- The number of set bits of `m`. -/
def popCount (m : BitVec w) : ℕ :=
  maskRank m w

@[simp] lemma maskRank_zero (m : BitVec w) : maskRank m 0 = 0 := rfl

lemma maskRank_succ (m : BitVec w) (n : ℕ) :
    maskRank m (n + 1) = maskRank m n + if m.getLsbD n then 1 else 0 := by
  rw [maskRank, List.range_succ, List.countP_append, maskRank]
  by_cases h : m.getLsbD n <;> simp [h]

lemma maskRank_le (m : BitVec w) (n : ℕ) : maskRank m n ≤ n := by
  induction n with
  | zero => simp
  | succ n ih =>
      rw [maskRank_succ]
      split_ifs <;> omega

lemma maskRank_mono (m : BitVec w) {n n' : ℕ} (h : n ≤ n') : maskRank m n ≤ maskRank m n' := by
  induction h with
  | refl => exact le_refl _
  | step _ ih =>
      rw [maskRank_succ]
      omega

/-- Past a set bit the rank has grown. -/
lemma maskRank_lt_maskRank (m : BitVec w) {i i' : ℕ} (hm : m.getLsbD i = true) (h : i < i') :
    maskRank m i < maskRank m i' := by
  have hsucc : maskRank m (i + 1) = maskRank m i + 1 := by
    rw [maskRank_succ, if_pos hm]
  have hmono := maskRank_mono m (show i + 1 ≤ i' by omega)
  omega

/-- Two set bits of the same rank are the same bit. -/
lemma eq_of_maskRank_eq (m : BitVec w) {i i' : ℕ} (hm : m.getLsbD i = true)
    (hm' : m.getLsbD i' = true) (h : maskRank m i = maskRank m i') : i = i' := by
  rcases Nat.lt_trichotomy i i' with hlt | heq | hgt
  · exact absurd h (maskRank_lt_maskRank m hm hlt).ne
  · exact heq
  · exact absurd h (maskRank_lt_maskRank m hm' hgt).ne'

/-- The rank as a sum of the bits below `n`. -/
lemma maskRank_eq_sum (m : BitVec w) (n : ℕ) :
    maskRank m n = ∑ t ∈ Finset.range n, if m.getLsbD t then 1 else 0 := by
  induction n with
  | zero => simp
  | succ n ih => rw [maskRank_succ, ih, Finset.sum_range_succ]

/-- The rank below `n` reads only the bits below `n`. -/
lemma maskRank_congr {m m' : BitVec w} {n : ℕ} (h : ∀ t < n, m.getLsbD t = m'.getLsbD t) :
    maskRank m n = maskRank m' n := by
  rw [maskRank_eq_sum, maskRank_eq_sum]
  exact Finset.sum_congr rfl fun t ht => by rw [h t (Finset.mem_range.mp ht)]

/-- Past the last set bit the rank stays put. -/
lemma maskRank_add_of_zero {m : BitVec w} {n : ℕ} (h : ∀ t, n ≤ t → m.getLsbD t = false) (d : ℕ) :
    maskRank m (n + d) = maskRank m n := by
  induction d with
  | zero => rfl
  | succ d ih =>
      rw [← Nat.add_assoc, maskRank_succ, h _ (by omega), ih]
      rfl

/-- **Every rank below `maskRank m n` is the rank of a set bit below `n`.** -/
lemma exists_maskRank_eq_iff (m : BitVec w) (n j : ℕ) :
    (∃ i < n, m.getLsbD i = true ∧ maskRank m i = j) ↔ j < maskRank m n := by
  induction n with
  | zero => simp
  | succ n ih =>
      rw [maskRank_succ]
      constructor
      · rintro ⟨i, hi, hm, rfl⟩
        rcases Nat.lt_succ_iff_lt_or_eq.mp hi with hlt | rfl
        · have := ih.mp ⟨i, hlt, hm, rfl⟩
          omega
        · rw [if_pos hm]
          omega
      · intro hj
        by_cases hn : m.getLsbD n = true ∧ j = maskRank m n
        · exact ⟨n, by omega, hn.1, hn.2.symm⟩
        · -- otherwise `j` is already a rank below `n`
          have hj' : j < maskRank m n := by
            by_cases hm : m.getLsbD n = true
            · rw [if_pos hm] at hj
              have : j ≠ maskRank m n := fun h => hn ⟨hm, h⟩
              omega
            · rw [if_neg hm] at hj
              omega
          obtain ⟨i, hi, hm, hr⟩ := ih.mpr hj'
          exact ⟨i, by omega, hm, hr⟩

end BitVec
