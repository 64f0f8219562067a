import Mathlib.Tactic
import RiscvOvpsim.Lib.BitLoop

/-!
Fixed-point rounding of a right shift of a bit vector: `roundoff(v, d)`
shifts `v` right by `d` and adds an increment that the rounding mode computes
from the last bit kept, `v[d]`, the last bit discarded, `v[d-1]`, and whether
any discarded bit below it, `v[d-2:0]`, is set.

* `FixedPoint.RoundMode`: to nearest up, to nearest even, down, to odd;
* `FixedPoint.roundBit`, `FixedPoint.roundoffIncrement`: the increment;
* `FixedPoint.roundoff`: the rounded shift, arithmetic for a signed value;
  `FixedPoint.clip`: saturation to a narrower signed width, with whether it
  saturated;
* `BitVec.beq_twoPow_pred`, `BitVec.bne_zero_eq_or`: the top bit of a word
  and the bits below it, as the tests of a word of discarded bits read them;
* `BitVec.getLsbD_shiftLeft_sub`, `BitVec.setWidth_shiftLeft_sub_bne_zero`:
  the low `d` bits of `v`, shifted to the top of the word, put `v[d-1]` at
  the top and `v[d-2:0]` below it;
* `BitVec.getLsbD_rotateRight_one_pred`, `BitVec.getLsbD_rotateLeft_one_zero`
  and their companions: a rotation by one place, which moves a discarded bit
  between the two ends of a word;
* `BitVec.toInt_extractLsb'_high`: the high half of a double-width word is
  the signed value divided by `2^n`; `Int.mul_eq_of_mul_self_sub_lt`: a
  product of two signed values comes near the largest only as that value;
* `FixedPoint.roundoffIncrement_eq_false_of_dvd`: a multiple of `2^d` is not
  rounded.
-/

namespace BitVec

variable {w : ℕ}

/-- Some bit below `k` is set. -/
lemma setWidth_bne_zero_iff (x : BitVec w) (k : ℕ) :
    (x.setWidth k != 0#k) = true ↔ ∃ t < k, x.getLsbD t = true := by
  rw [bne_zero_iff]
  simp only [getLsbD_setWidth]
  constructor
  · rintro ⟨t, ht, h⟩
    exact ⟨t, ht, by simpa [ht] using h⟩
  · rintro ⟨t, ht, h⟩
    exact ⟨t, ht, by simp [ht, h]⟩

/-- A word is `1 << (w-1)` when its top bit is set and no bit below it. -/
lemma beq_twoPow_pred (x : BitVec w) (hw : 0 < w) :
    (x == 1#w <<< (w - 1)) = (x.getLsbD (w - 1) && !(x.setWidth (w - 1) != 0#(w - 1))) := by
  apply Bool.eq_iff_iff.mpr
  rw [beq_iff_eq, ← twoPow_eq, Bool.and_eq_true, Bool.not_eq_true', Bool.eq_false_iff, Ne,
    setWidth_bne_zero_iff]
  constructor
  · rintro rfl
    refine ⟨by simp [hw], ?_⟩
    rintro ⟨t, ht, h⟩
    rw [getLsbD_twoPow] at h
    simp only [Bool.and_eq_true, decide_eq_true_eq] at h
    omega
  · rintro ⟨htop, hlow⟩
    apply eq_of_getLsbD_eq
    intro i hi
    rw [getLsbD_twoPow]
    by_cases hit : i = w - 1
    · subst hit
      simp [htop, hi]
    · have hbit : x.getLsbD i = false :=
        Bool.eq_false_iff.mpr fun h => hlow ⟨i, by omega, h⟩
      simp [hbit, Ne.symm hit]

/-- A word is nonzero when its top bit or a bit below it is set. -/
lemma bne_zero_eq_or (x : BitVec w) (hw : 0 < w) :
    (x != 0#w) = (x.getLsbD (w - 1) || x.setWidth (w - 1) != 0#(w - 1)) := by
  apply Bool.eq_iff_iff.mpr
  rw [Bool.or_eq_true, bne_zero_iff, setWidth_bne_zero_iff]
  constructor
  · rintro ⟨t, ht, h⟩
    by_cases htw : t = w - 1
    · exact Or.inl (htw ▸ h)
    · exact Or.inr ⟨t, by omega, h⟩
  · rintro (h | ⟨t, ht, h⟩)
    · exact ⟨w - 1, by omega, h⟩
    · exact ⟨t, by omega, h⟩

/-- The low `d` bits of `v` shifted to the top of the word: `v[d-1]` is on
top. -/
lemma getLsbD_shiftLeft_sub (v : BitVec w) {d : ℕ} (hd : 0 < d) (hdw : d ≤ w) :
    (v <<< (w - d)).getLsbD (w - 1) = v.getLsbD (d - 1) := by
  rw [getLsbD_shiftLeft, show w - 1 - (w - d) = d - 1 by omega]
  simp [show w - 1 < w by omega, show ¬ w - 1 < w - d by omega]

/-- The low `d` bits of `v` shifted to the top of the word: below the top
are `v[d-2:0]`. -/
lemma setWidth_shiftLeft_sub_bne_zero (v : BitVec w) {d : ℕ} (hd : 0 < d) (hdw : d ≤ w) :
    ((v <<< (w - d)).setWidth (w - 1) != 0#(w - 1)) = (v.setWidth (d - 1) != 0#(d - 1)) := by
  apply Bool.eq_iff_iff.mpr
  rw [setWidth_bne_zero_iff, setWidth_bne_zero_iff]
  constructor
  · rintro ⟨t, ht, h⟩
    rw [getLsbD_shiftLeft] at h
    simp only [Bool.and_eq_true, Bool.not_eq_true', decide_eq_true_eq, decide_eq_false_iff_not,
      not_lt] at h
    obtain ⟨⟨-, hle⟩, h⟩ := h
    exact ⟨t - (w - d), by omega, h⟩
  · rintro ⟨u, hu, h⟩
    refine ⟨u + (w - d), by omega, ?_⟩
    rw [getLsbD_shiftLeft, Nat.add_sub_cancel, h]
    simp only [Bool.and_true, Bool.and_eq_true, Bool.not_eq_true', decide_eq_true_eq,
      decide_eq_false_iff_not, not_lt]
    omega

/-- A rotation right by one place puts bit 0 on top. -/
lemma getLsbD_rotateRight_one_pred (x : BitVec w) (hw : 0 < w) :
    (x.rotateRight 1).getLsbD (w - 1) = x.getLsbD 0 := by
  rw [getLsbD_rotateRight]
  rcases Nat.lt_or_ge 1 w with h | h
  · rw [Nat.mod_eq_of_lt h]
    simp [hw]
  · obtain rfl : w = 1 := by omega
    simp

/-- A rotation right by one place moves the other bits down. -/
lemma getLsbD_rotateRight_one (x : BitVec w) {i : ℕ} (hi : i + 1 < w) :
    (x.rotateRight 1).getLsbD i = x.getLsbD (i + 1) := by
  rw [getLsbD_rotateRight, Nat.mod_eq_of_lt (by omega)]
  simp [show i < w - 1 by omega, Nat.add_comm]

/-- A rotation left by one place puts the top bit at bit 0. -/
lemma getLsbD_rotateLeft_one_zero (x : BitVec w) (hw : 0 < w) :
    (x.rotateLeft 1).getLsbD 0 = x.getLsbD (w - 1) := by
  rw [getLsbD_rotateLeft]
  rcases Nat.lt_or_ge 1 w with h | h
  · rw [Nat.mod_eq_of_lt h]
    simp
  · obtain rfl : w = 1 := by omega
    simp

/-- A rotation left by one place moves the other bits up. -/
lemma getLsbD_rotateLeft_one_succ (x : BitVec w) {i : ℕ} (hi : i + 1 < w) :
    (x.rotateLeft 1).getLsbD (i + 1) = x.getLsbD i := by
  rw [getLsbD_rotateLeft, Nat.mod_eq_of_lt (by omega)]
  simp [hi]

/-- Bit 0 of a sum is the parity of the operands' bits 0. -/
lemma getLsbD_add_zero (x y : BitVec w) (hw : 0 < w) :
    (x + y).getLsbD 0 = (x.getLsbD 0 ^^ y.getLsbD 0) := by
  rw [getLsbD_add hw, carry_zero, Bool.xor_false]

/-- Bit 0 of a difference is the parity of the operands' bits 0. -/
lemma getLsbD_sub_zero (x y : BitVec w) (hw : 0 < w) :
    (x - y).getLsbD 0 = (x.getLsbD 0 ^^ y.getLsbD 0) := by
  rw [sub_eq_add_neg, getLsbD_add_zero _ _ hw, getLsbD_neg]
  simp

/-- A field that lies inside the word is the word shifted down and cut to
the field's width, the shift being arithmetic or not. -/
lemma extractLsb'_eq_signExtend_sshiftRight (x : BitVec w) {s n : ℕ} (h : s + n ≤ w) :
    x.extractLsb' s n = (x.sshiftRight s).signExtend n := by
  apply eq_of_getLsbD_eq
  intro i hi
  rw [getLsbD_extractLsb', getLsbD_signExtend, getLsbD_sshiftRight]
  simp [hi, show i < w by omega, show s + i < w by omega]

/-- The low `k` bits of a word read as a number are its signed value modulo
`2^k`. -/
lemma toInt_emod_two_pow (x : BitVec w) {k : ℕ} (hk : k ≤ w) :
    x.toInt % 2 ^ k = ((x.setWidth k).toNat : ℤ) := by
  have hdvd : (2 : ℤ) ^ k ∣ 2 ^ w := pow_dvd_pow 2 hk
  rw [toNat_setWidth, toInt_eq_toNat_cond]
  split_ifs
  · push_cast
    rfl
  · rw [Int.sub_emod, Nat.cast_pow, Nat.cast_ofNat, Int.emod_eq_zero_of_dvd hdvd, sub_zero,
      Int.emod_emod_of_dvd _ (dvd_refl _)]
    push_cast
    rfl

/-- The high half of a word of `2n` bits, read as signed, is the word's signed
value divided by `2^n`, rounding down. -/
lemma toInt_extractLsb'_high {n : ℕ} (x : BitVec (2 * n)) (hn : 0 < n) :
    (x.extractLsb' n n).toInt = x.toInt / 2 ^ n := by
  have hlo := le_toInt x
  have hhi := toInt_lt (x := x)
  have hpow : (2 : ℤ) ^ (2 * n - 1) = 2 ^ (n - 1) * 2 ^ n := by
    rw [← pow_add]
    congr 1
    omega
  have hpos : (0 : ℤ) < 2 ^ n := by positivity
  have hq_lo : -2 ^ (n - 1) ≤ x.toInt / 2 ^ n := by
    rw [Int.le_ediv_iff_mul_le hpos]
    linarith
  have hq_hi : x.toInt / 2 ^ n < 2 ^ (n - 1) := by
    rw [Int.ediv_lt_iff_lt_mul hpos]
    linarith
  have hhalf : (2 : ℤ) ^ n = 2 ^ (n - 1) * 2 := by
    rw [← pow_succ]
    congr 1
    omega
  rw [extractLsb'_eq_signExtend_sshiftRight x (by omega),
    toInt_signExtend_eq_toInt_bmod_of_le _ (by omega), toInt_sshiftRight,
    Int.shiftRight_eq_div_pow]
  push_cast
  apply Int.bmod_eq_of_le_mul_two <;> push_cast <;> linarith

end BitVec

namespace Int

/-- Of two signed values of `w` bits, `-M ≤ x, y < M`, the product exceeds
`M * M - M` only as `M * M`, the product of the two least values. -/
lemma mul_eq_of_mul_self_sub_lt {M x y : ℤ} (hx : -M ≤ x) (hx' : x < M) (hy : -M ≤ y)
    (hy' : y < M) (h : M * M - M < x * y) : x * y = M * M := by
  rcases le_or_gt 0 x with hx0 | hx0 <;> rcases le_or_gt 0 y with hy0 | hy0
  · nlinarith
  · nlinarith
  · nlinarith
  · -- both negative: a factor above `-M` keeps the product at most `M * M - M`
    have hxM : x = -M := by
      by_contra hne
      have : -M < x := lt_of_le_of_ne hx (Ne.symm hne)
      nlinarith
    have hyM : y = -M := by
      by_contra hne
      have : -M < y := lt_of_le_of_ne hy (Ne.symm hne)
      nlinarith
    rw [hxM, hyM, neg_mul_neg]

end Int

namespace FixedPoint

/-- The rounding modes of a fixed-point right shift. -/
inductive RoundMode where
  /-- round to nearest, ties up -/
  | rnu
  /-- round to nearest, ties to even -/
  | rne
  /-- round down, truncating -/
  | rdn
  /-- round to odd, jamming -/
  | rod
  deriving DecidableEq, Repr

/-- The increment from the last bit kept `vd`, the last bit discarded `vdm1`
and whether a discarded bit below it is set (`sticky`): `vdm1` to nearest
up; `vdm1 & (sticky | vd)` to nearest even; none down; and
`!vd & (vdm1 | sticky)` to odd. -/
def roundBit : RoundMode → Bool → Bool → Bool → Bool
  | .rnu, _, vdm1, _ => vdm1
  | .rne, vd, vdm1, sticky => vdm1 && (sticky || vd)
  | .rdn, _, _, _ => false
  | .rod, vd, vdm1, sticky => !vd && (vdm1 || sticky)

variable {w : ℕ}

/-- The increment `r` of `roundoff(v, d)`: none without a shift, otherwise
`roundBit` of `v[d]`, `v[d-1]` and whether `v[d-2:0]` is nonzero. -/
def roundoffIncrement (m : RoundMode) (v : BitVec w) (d : ℕ) : Bool :=
  if d = 0 then false
  else roundBit m (v.getLsbD d) (v.getLsbD (d - 1)) (v.setWidth (d - 1) != 0#(d - 1))

/-- `v >> d`, arithmetic for a signed `v`, logical otherwise. -/
def shiftRight (signed : Bool) (v : BitVec w) (d : ℕ) : BitVec w :=
  if signed then v.sshiftRight d else v >>> d

/-- `roundoff(v, d)`: `(v >> d) + r`, signed or unsigned. -/
def roundoff (signed : Bool) (m : RoundMode) (v : BitVec w) (d : ℕ) : BitVec w :=
  shiftRight signed v d + BitVec.ofNat w (roundoffIncrement m v d).toNat

/-- `clip` to `n` bits of a signed value: the value when it fits, the nearest
bound otherwise, and whether it saturated. -/
def clip (n : ℕ) (x : BitVec w) : BitVec n × Bool :=
  if 2 ^ (n - 1) - 1 < x.toInt then (BitVec.intMax n, true)
  else if x.toInt < -2 ^ (n - 1) then (BitVec.intMin n, true)
  else (x.setWidth n, false)

/-- Without a discarded bit set, no mode rounds. -/
lemma roundBit_false (m : RoundMode) (vd : Bool) : roundBit m vd false false = false := by
  cases m <;> simp [roundBit]

/-- A value whose low `d` bits are clear is not rounded. -/
lemma roundoffIncrement_of_setWidth_eq_zero (m : RoundMode) {v : BitVec w} {d : ℕ}
    (h : v.setWidth d = 0#d) : roundoffIncrement m v d = false := by
  unfold roundoffIncrement
  split_ifs with hd
  · rfl
  · have hbit : ∀ t < d, v.getLsbD t = false := fun t ht => by
      have := congrArg (BitVec.getLsbD · t) h
      simpa [BitVec.getLsbD_setWidth, ht] using this
    have hlow : (v.setWidth (d - 1) != 0#(d - 1)) = false := by
      apply Bool.eq_false_iff.mpr
      rw [Ne, BitVec.setWidth_bne_zero_iff]
      rintro ⟨t, ht, h⟩
      rw [hbit t (by omega)] at h
      exact absurd h (by decide)
    rw [hbit (d - 1) (by omega), hlow, roundBit_false]

/-- A signed multiple of `2^d` is not rounded. -/
lemma roundoffIncrement_eq_false_of_dvd (m : RoundMode) {v : BitVec w} {d : ℕ} (hd : d ≤ w)
    (h : (2 : ℤ) ^ d ∣ v.toInt) : roundoffIncrement m v d = false := by
  apply roundoffIncrement_of_setWidth_eq_zero
  apply BitVec.eq_of_toNat_eq
  have hlow := BitVec.toInt_emod_two_pow v hd
  rw [Int.emod_eq_zero_of_dvd h] at hlow
  rw [BitVec.toNat_zero]
  omega

end FixedPoint
