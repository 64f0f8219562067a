import Mathlib.Tactic
import Mathlib.Data.Nat.BitIndices
import Mathlib.Data.Nat.Bitwise

/-!
Bit fields of natural numbers and the masks of 64-bit words, as machine code
computes them: `(x >> lo) & ((1 << w) - 1)` for a field, `x & -(1 << n)` to
align down, `(1 << n) - 1` for the offset within an aligned block.

* `Nat.div_two_pow_mod_two_pow_of_mod`: a field of a field is a field of the
  whole number;
* `Nat.and_two_pow_sub_two_pow`: clearing the low `n` bits of a number below
  `2 ^ m` rounds it down to a multiple of `2 ^ n`;
* `Nat.eq_div_two_pow_mul_of_mod`, `Nat.div_two_pow_mul_le_of_le`,
  `Nat.div_two_pow_mul_add_le_of_le`: a naturally aligned block is the
  rounding down of any number in it, and the aligned blocks around a number
  nest;
* `UInt64.toNat_one_shiftLeft`, `UInt64.ofNat_shiftLeft_eq_mul`,
  `UInt64.toNat_and_neg_two_pow`: the same facts for `UInt64` operations;
* `BitVec.toNat_and_neg_two_pow`, `BitVec.toNat_not_neg_two_pow`,
  `BitVec.and_two_pow_sub_one_eq_zero_iff`: the same at any width: the
  block of `2 ^ k` around an address, its offset mask, and alignment;
* `Nat.bitIndices_map_add`: the set bits of a number, in the order a loop
  that tests bit 0 and shifts right visits them;
* `UInt64.testBit_toNat_not`, `UInt32.and_one_shiftLeft_eq_zero_iff`: single
  bits of a complement, and the test `x & (1 << i)` of one bit;
  `UInt64.lt_of_testBit_toNat`: a set bit lies below the width;
* `UInt64.toUInt32_toUInt64_and_eq_zero`: truncation to 32 bits sets no bit;
* `UInt64.shiftLeft_two_mod_four` and the lemmas after it: how the wrapping
  operations act on the two low bits of a word, the alignment of a byte
  address to a four-byte word.
-/

namespace Nat

/-- Field `[c, c + d)` of the field `[0, b)` of `x` is field `[c, c + d)` of
`x`, when it lies inside. -/
lemma div_two_pow_mod_two_pow_of_mod {x b c d : ℕ} (h : c + d ≤ b) :
    x % 2 ^ b / 2 ^ c % 2 ^ d = x / 2 ^ c % 2 ^ d := by
  apply Nat.eq_of_testBit_eq
  intro j
  simp only [Nat.testBit_mod_two_pow, Nat.testBit_div_two_pow]
  by_cases hj : j < d
  · have : j + c < b := by omega
    simp [hj, this]
  · simp [hj]

/-- Clearing the bits below `n` of a number below `2 ^ m` rounds it down to
a multiple of `2 ^ n`. -/
lemma and_two_pow_sub_two_pow {x m n : ℕ} (hx : x < 2 ^ m) (hn : n ≤ m) :
    x &&& (2 ^ m - 2 ^ n) = x / 2 ^ n * 2 ^ n := by
  have hmask : 2 ^ m - 2 ^ n = (2 ^ (m - n) - 1) * 2 ^ n := by
    rw [Nat.sub_mul, one_mul, ← pow_add, Nat.sub_add_cancel hn]
  apply Nat.eq_of_testBit_eq
  intro j
  rw [hmask, Nat.testBit_and, Nat.testBit_mul_two_pow, Nat.testBit_mul_two_pow,
    Nat.testBit_two_pow_sub_one, Nat.testBit_div_two_pow]
  by_cases hj : n ≤ j
  · rw [Nat.sub_add_cancel hj]
    by_cases hjm : j < m
    · simp [hj, show j - n < m - n by omega]
    · -- above the mask the number has no bits either
      have hx' : x < 2 ^ j := lt_of_lt_of_le hx (Nat.pow_le_pow_right (by norm_num) (by omega))
      simp [Nat.testBit_lt_two_pow hx']
  · simp [hj]

/-- Rounding down to a multiple of `2 ^ a` and then of `2 ^ n`, for `a ≤ n`,
is rounding down to a multiple of `2 ^ n`. -/
lemma div_two_pow_mul_div_two_pow_mul {x a n : ℕ} (h : a ≤ n) :
    x / 2 ^ a * 2 ^ a / 2 ^ n * 2 ^ n = x / 2 ^ n * 2 ^ n := by
  have hsplit : 2 ^ n = 2 ^ a * 2 ^ (n - a) := by rw [← pow_add, Nat.add_sub_cancel' h]
  rw [hsplit, ← Nat.div_div_eq_div_mul, Nat.mul_div_cancel _ (Nat.two_pow_pos a),
    Nat.div_div_eq_div_mul]

/-- The block of `2 ^ n` numbers that holds `x` ends within `2 ^ m`. -/
lemma div_two_pow_mul_add_two_pow_le {x m n : ℕ} (hx : x < 2 ^ m) (hn : n ≤ m) :
    x / 2 ^ n * 2 ^ n + 2 ^ n ≤ 2 ^ m := by
  have hsplit : 2 ^ m = 2 ^ (m - n) * 2 ^ n := by rw [← pow_add, Nat.sub_add_cancel hn]
  have hdiv : x / 2 ^ n < 2 ^ (m - n) := by
    rw [Nat.div_lt_iff_lt_mul (Nat.two_pow_pos n), ← hsplit]
    exact hx
  calc x / 2 ^ n * 2 ^ n + 2 ^ n = (x / 2 ^ n + 1) * 2 ^ n := by ring
    _ ≤ 2 ^ (m - n) * 2 ^ n := Nat.mul_le_mul_right _ hdiv
    _ = 2 ^ m := hsplit.symm

/-- A multiple of `2 ^ n` whose block of `2 ^ n` numbers holds `x` is `x`
rounded down to a multiple of `2 ^ n`. -/
lemma eq_div_two_pow_mul_of_mod {lo x n : ℕ} (hlo : lo % 2 ^ n = 0) (h1 : lo ≤ x)
    (h2 : x < lo + 2 ^ n) : lo = x / 2 ^ n * 2 ^ n := by
  have hcancel : lo / 2 ^ n * 2 ^ n = lo := Nat.div_mul_cancel (Nat.dvd_of_mod_eq_zero hlo)
  have hdiv : x / 2 ^ n = lo / 2 ^ n := by
    apply Nat.div_eq_of_lt_le
    · rw [hcancel]
      exact h1
    · rw [Nat.succ_mul, hcancel]
      exact h2
  rw [hdiv, hcancel]

/-- The aligned blocks around `x` nest: the block of `2 ^ q` numbers starts
no lower than the block of `2 ^ p`, for `q ≤ p`, ... -/
lemma div_two_pow_mul_le_of_le {x p q : ℕ} (h : q ≤ p) :
    x / 2 ^ p * 2 ^ p ≤ x / 2 ^ q * 2 ^ q := by
  rw [← div_two_pow_mul_div_two_pow_mul h]
  exact Nat.div_mul_le_self _ _

/-- ... and ends no higher. -/
lemma div_two_pow_mul_add_le_of_le {x p q : ℕ} (h : q ≤ p) :
    x / 2 ^ q * 2 ^ q + 2 ^ q ≤ x / 2 ^ p * 2 ^ p + 2 ^ p := by
  have hsplit : 2 ^ p = 2 ^ (p - q) * 2 ^ q := by rw [← pow_add, Nat.sub_add_cancel h]
  have hdiv : x / 2 ^ p = x / 2 ^ q / 2 ^ (p - q) := by
    rw [Nat.div_div_eq_div_mul, ← pow_add, Nat.add_sub_cancel' h]
  -- the block of `2 ^ q` is one of the `2 ^ (p - q)` blocks the larger one splits into
  have hlt : x / 2 ^ q < x / 2 ^ q / 2 ^ (p - q) * 2 ^ (p - q) + 2 ^ (p - q) :=
    Nat.lt_div_mul_add (Nat.two_pow_pos _)
  calc x / 2 ^ q * 2 ^ q + 2 ^ q = (x / 2 ^ q + 1) * 2 ^ q := by ring
    _ ≤ (x / 2 ^ q / 2 ^ (p - q) * 2 ^ (p - q) + 2 ^ (p - q)) * 2 ^ q :=
      Nat.mul_le_mul_right _ hlt
    _ = x / 2 ^ p * 2 ^ p + 2 ^ p := by rw [hdiv, hsplit]; ring

/-- The positions of the set bits of `pe`, counted from `id`: bit 0 first, if
it is set, then the bits of `pe / 2`, counted from `id + 1`. -/
lemma bitIndices_map_add (pe id : ℕ) :
    pe.bitIndices.map (· + id) =
      (if pe % 2 = 1 then [id] else []) ++ (pe / 2).bitIndices.map (· + (id + 1)) := by
  have hshift : (fun x => x + id) ∘ (fun x => x + 1) = (fun x => x + (id + 1)) := by
    funext x
    simp only [Function.comp_apply]
    omega
  obtain ⟨q, rfl | rfl⟩ := Nat.even_or_odd' pe
  · have hmod : 2 * q % 2 = 0 := by omega
    have hdiv : 2 * q / 2 = q := by omega
    rw [Nat.bitIndices_two_mul, hmod, if_neg (by omega), List.nil_append, List.map_map, hdiv, hshift]
  · have hmod : (2 * q + 1) % 2 = 1 := by omega
    have hdiv : (2 * q + 1) / 2 = q := by omega
    rw [Nat.bitIndices_two_mul_add_one, hmod, if_pos rfl, List.map_cons, List.map_map, hdiv, hshift,
      zero_add, List.singleton_append]

end Nat

namespace UInt64

/-- `1 << k` for a shift below the width. -/
lemma toNat_one_shiftLeft {k : ℕ} (hk : k < 64) :
    ((1 : UInt64) <<< UInt64.ofNat k).toNat = 2 ^ k := by
  have hle : 2 ^ k < 2 ^ 64 := Nat.pow_lt_pow_right (by norm_num) hk
  rw [UInt64.toNat_shiftLeft, UInt64.toNat_ofNat_of_lt' (by unfold UInt64.size; omega),
    UInt64.toNat_one, Nat.one_shiftLeft,
    Nat.mod_eq_of_lt hk, Nat.mod_eq_of_lt hle]

/-- A left shift by a constant below the width is a multiplication, modulo
`2 ^ 64`. -/
lemma ofNat_shiftLeft_eq_mul (p : ℕ) {k : UInt64} (hk : k.toNat < 64) :
    UInt64.ofNat p <<< k = UInt64.ofNat (p * 2 ^ k.toNat) := by
  apply UInt64.toNat_inj.mp
  rw [UInt64.toNat_shiftLeft, Nat.mod_eq_of_lt hk, UInt64.toNat_ofNat', UInt64.toNat_ofNat',
    Nat.shiftLeft_eq, Nat.mod_mul_mod]

/-- `x & -(2 ^ n)` rounds `x` down to a multiple of `2 ^ n`. -/
lemma toNat_and_neg_two_pow (x : UInt64) {n : ℕ} (hn : n < 64) :
    (x &&& (0 - UInt64.ofNat (2 ^ n))).toNat = x.toNat / 2 ^ n * 2 ^ n := by
  have hpow : 2 ^ n < 2 ^ 64 := Nat.pow_lt_pow_right (by norm_num) hn
  have hpos : 0 < 2 ^ n := Nat.two_pow_pos n
  have hneg : (0 - UInt64.ofNat (2 ^ n)).toNat = 2 ^ 64 - 2 ^ n := by
    rw [UInt64.toNat_sub, UInt64.toNat_ofNat_of_lt' (by unfold UInt64.size; omega),
      UInt64.toNat_zero, Nat.add_zero,
      Nat.mod_eq_of_lt (by omega)]
  rw [UInt64.toNat_and, hneg, Nat.and_two_pow_sub_two_pow x.toNat_lt hn.le]

/-- Bit `i` of a complement: the complemented bit within the width, nothing
above. -/
lemma testBit_toNat_not (x : UInt64) (i : ℕ) :
    (~~~x).toNat.testBit i = (decide (i < 64) && !x.toNat.testBit i) := by
  rw [← UInt64.toNat_toBitVec, UInt64.toBitVec_not, BitVec.testBit_toNat, BitVec.getLsbD_not,
    ← BitVec.testBit_toNat, UInt64.toNat_toBitVec]

/-- A set bit of a word lies below the width. -/
lemma lt_of_testBit_toNat (x : UInt64) {i : ℕ} (h : x.toNat.testBit i = true) : i < 64 := by
  by_contra hi
  have hlt : x.toNat < 2 ^ i :=
    lt_of_lt_of_le x.toNat_lt (Nat.pow_le_pow_right (by norm_num) (not_lt.mp hi))
  rw [Nat.testBit_lt_two_pow hlt] at h
  exact absurd h (by decide)

/-- Truncating a word to its low half makes it share no bit with a word it
shared none with. -/
lemma toUInt32_toUInt64_and_eq_zero {x y : UInt64} (h : x &&& y = 0) :
    x.toUInt32.toUInt64 &&& y = 0 := by
  rw [← UInt64.toNat_inj, UInt64.toNat_and, UInt64.toNat_zero] at h ⊢
  rw [UInt32.toNat_toUInt64, UInt64.toNat_toUInt32]
  apply Nat.eq_of_testBit_eq
  intro i
  have hi := congrArg (Nat.testBit · i) h
  simp only [Nat.testBit_and, Nat.zero_testBit] at hi
  rw [Nat.testBit_and, Nat.testBit_mod_two_pow, Nat.zero_testBit, Bool.and_assoc, hi, Bool.and_false]

/-! ### Word alignment -/

section Align

variable {x y : UInt64}

lemma shiftLeft_two_mod_four (x : UInt64) : (x <<< 2).toNat % 4 = 0 := by
  rw [UInt64.toNat_shiftLeft, show (2 : UInt64).toNat % 64 = 2 from rfl, Nat.shiftLeft_eq]
  omega

lemma shiftLeft_mod_four (hx : x.toNat % 4 = 0) (k : UInt64) : (x <<< k).toNat % 4 = 0 := by
  rw [UInt64.toNat_shiftLeft, Nat.shiftLeft_eq, Nat.mod_mod_of_dvd _ (by norm_num : 4 ∣ 2 ^ 64),
    Nat.mul_mod, hx, Nat.zero_mul, Nat.zero_mod]

lemma shiftLeft_one_mod_four (hx : x.toNat % 2 = 0) : (x <<< 1).toNat % 4 = 0 := by
  rw [UInt64.toNat_shiftLeft, show (1 : UInt64).toNat % 64 = 1 from rfl, Nat.shiftLeft_eq]
  omega

lemma and_mod_four_of_right (x : UInt64) (hy : y.toNat % 4 = 0) : (x &&& y).toNat % 4 = 0 := by
  rw [show (4 : ℕ) = 2 ^ 2 from rfl] at hy ⊢
  rw [UInt64.toNat_and, Nat.and_mod_two_pow, hy, Nat.and_zero]

lemma or_mod_four (hx : x.toNat % 4 = 0) (hy : y.toNat % 4 = 3) : (x ||| y).toNat % 4 = 3 := by
  rw [show (4 : ℕ) = 2 ^ 2 from rfl] at hx hy ⊢
  rw [UInt64.toNat_or, Nat.or_mod_two_pow, hx, hy, Nat.zero_or]

lemma add_three_mod_four (hx : x.toNat % 4 = 0) : (x + 3).toNat % 4 = 3 := by
  have hlt := x.toNat_lt
  rw [UInt64.toNat_add, show (3 : UInt64).toNat = 3 from rfl]
  omega

lemma add_one_mod_four (hx : x.toNat % 4 = 3) : (x + 1).toNat % 4 = 0 := by
  have hlt := x.toNat_lt
  rw [UInt64.toNat_add, UInt64.toNat_one]
  omega

lemma sub_one_mod_four (hx : x.toNat % 4 = 0) : (x - 1).toNat % 4 = 3 := by
  have hlt := x.toNat_lt
  rw [UInt64.toNat_sub, UInt64.toNat_one]
  omega

lemma neg_mod_four (hx : x.toNat % 4 = 0) : (0 - x).toNat % 4 = 0 := by
  have hlt := x.toNat_lt
  rw [UInt64.toNat_sub, UInt64.toNat_zero]
  omega

lemma not_mod_four_of_three (hx : x.toNat % 4 = 3) : (~~~x).toNat % 4 = 0 := by
  have hlt := x.toNat_lt
  rw [UInt64.toNat_not, UInt64.size]
  omega

end Align

end UInt64

namespace UInt32

/-- `x & (1 << i)` tests bit `i` of `x`. -/
lemma and_one_shiftLeft_eq_zero_iff (x : UInt32) {i : ℕ} (hi : i < 32) :
    x &&& ((1 : UInt32) <<< UInt32.ofNat i) = 0 ↔ x.toNat.testBit i = false := by
  have hle : 2 ^ i < 2 ^ 32 := Nat.pow_lt_pow_right (by norm_num) hi
  have hbit : ((1 : UInt32) <<< UInt32.ofNat i).toNat = 2 ^ i := by
    rw [UInt32.toNat_shiftLeft, UInt32.toNat_ofNat_of_lt' (by unfold UInt32.size; omega),
      UInt32.toNat_one, Nat.one_shiftLeft, Nat.mod_eq_of_lt hi, Nat.mod_eq_of_lt hle]
  rw [← UInt32.toNat_inj, UInt32.toNat_and, hbit, UInt32.toNat_zero, Nat.and_two_pow]
  cases x.toNat.testBit i <;> simp

end UInt32

namespace BitVec

variable {w k : ℕ}

/-- `x & -(2 ^ k)` rounds `x` down to a multiple of `2 ^ k`, at any width
above `k`. -/
lemma toNat_and_neg_two_pow (x : BitVec w) (hk : k < w) :
    (x &&& -BitVec.ofNat w (2 ^ k)).toNat = x.toNat / 2 ^ k * 2 ^ k := by
  have hpow : 2 ^ k < 2 ^ w := Nat.pow_lt_pow_right (by norm_num) hk
  have hpos := Nat.two_pow_pos k
  rw [toNat_and, toNat_neg, toNat_ofNat, Nat.mod_eq_of_lt hpow, Nat.mod_eq_of_lt (by omega),
    Nat.and_two_pow_sub_two_pow x.isLt hk.le]

/-- The complement of `-(2 ^ k)` is the offset mask `2 ^ k - 1`. -/
lemma toNat_not_neg_two_pow (hk : k < w) : (~~~(-BitVec.ofNat w (2 ^ k))).toNat = 2 ^ k - 1 := by
  have hpow : 2 ^ k < 2 ^ w := Nat.pow_lt_pow_right (by norm_num) hk
  have hpos := Nat.two_pow_pos k
  rw [toNat_not, toNat_neg, toNat_ofNat, Nat.mod_eq_of_lt hpow, Nat.mod_eq_of_lt (by omega)]
  omega

/-- The test `x & (2 ^ j - 1) == 0` is alignment to `2 ^ j`. -/
lemma and_two_pow_sub_one_eq_zero_iff (x : BitVec w) {j : ℕ} (hj : j ≤ w) :
    x &&& BitVec.ofNat w (2 ^ j - 1) = 0 ↔ x.toNat % 2 ^ j = 0 := by
  have hpow : 2 ^ j ≤ 2 ^ w := Nat.pow_le_pow_right (by norm_num) hj
  have hpos := Nat.two_pow_pos j
  rw [← toNat_inj, toNat_and, toNat_ofNat, Nat.mod_eq_of_lt (by omega),
    Nat.and_two_pow_sub_one_eq_mod, ofNat_eq_ofNat, toNat_ofNat, Nat.zero_mod]

/-- `-1` is the word of all ones. -/
lemma toNat_neg_one (hw : 0 < w) : (-1 : BitVec w).toNat = 2 ^ w - 1 := by
  have h1 : 1 < 2 ^ w := Nat.one_lt_two_pow hw.ne'
  rw [toNat_neg, ofNat_eq_ofNat, toNat_ofNat, Nat.mod_eq_of_lt h1, Nat.mod_eq_of_lt (by omega)]

end BitVec
