import Mathlib.Tactic
import Mathlib.Data.Nat.Bitwise
import RiscvOvpsim.Lib.Bits

/-!
Bit maps kept in arrays of 64-bit words, as C code keeps them: bit `i` is bit
`i % 64` of word `i / 64`, tested with `w[i / 64] & (1ULL << (i % 64))` and
written with `|=` and `&= ~`.  The array is a function from word indices to
words.

* `Bitmap.get`, `Bitmap.set`: the test and the write of one bit;
* `get_eq_testBit`: the test reads the bit;
* `get_set`: a write sets its bit and leaves every other;
* `get_zero`: the map of zero words is empty;
* `get_foldl_set`: a loop that sets the bits of the indices it visits that
  satisfy a test.
-/

namespace Bitmap

/-- The mask of bit `i` in its word. -/
def mask (i : ℕ) : UInt64 := 1 <<< UInt64.ofNat (i % 64)

/-- Bit `i`. -/
def get (b : ℕ → UInt64) (i : ℕ) : Bool := b (i / 64) &&& mask i != 0

/-- Set bit `i` to `v`. -/
def set (b : ℕ → UInt64) (i : ℕ) (v : Bool) : ℕ → UInt64 :=
  Function.update b (i / 64) (if v then b (i / 64) ||| mask i else b (i / 64) &&& ~~~mask i)

lemma toNat_mask (i : ℕ) : (mask i).toNat = 2 ^ (i % 64) :=
  UInt64.toNat_one_shiftLeft (Nat.mod_lt _ (by norm_num))

lemma get_eq_testBit (b : ℕ → UInt64) (i : ℕ) : get b i = (b (i / 64)).toNat.testBit (i % 64) := by
  have hand : (b (i / 64) &&& mask i).toNat =
      ((b (i / 64)).toNat.testBit (i % 64)).toNat * 2 ^ (i % 64) := by
    rw [UInt64.toNat_and, toNat_mask, Nat.and_two_pow]
  unfold get
  cases hbit : (b (i / 64)).toNat.testBit (i % 64)
  · rw [hbit, Bool.toNat_false, zero_mul, ← UInt64.toNat_zero, UInt64.toNat_inj] at hand
    simp [hand]
  · have hne : b (i / 64) &&& mask i ≠ 0 := by
      intro h
      rw [h, hbit, Bool.toNat_true, one_mul, UInt64.toNat_zero] at hand
      exact absurd hand.symm (Nat.two_pow_pos _).ne'
    simp [hne]

/-- **A write of one bit**: the bit written reads back, every other bit is as
it was. -/
@[simp] lemma get_set (b : ℕ → UInt64) (i : ℕ) (v : Bool) (j : ℕ) :
    get (set b i v) j = if j = i then v else get b j := by
  rw [get_eq_testBit, get_eq_testBit, set]
  by_cases hw : j / 64 = i / 64
  · -- the same word: only the bit at `i % 64` changes
    have hbit : i % 64 = j % 64 ↔ j = i := by omega
    rw [hw, Function.update_self]
    cases v
    · simp only [Bool.false_eq_true, if_false, UInt64.toNat_and, Nat.testBit_and,
        UInt64.testBit_toNat_not, toNat_mask, Nat.testBit_two_pow, hbit]
      by_cases hji : j = i
      · subst hji
        simp
      · simp [hji, Nat.mod_lt j (by norm_num : 64 > 0)]
    · simp only [if_true, UInt64.toNat_or, Nat.testBit_or, toNat_mask, Nat.testBit_two_pow, hbit]
      by_cases hji : j = i
      · subst hji
        simp
      · simp [hji]
  · -- another word is untouched
    have hji : j ≠ i := fun h => hw (by rw [h])
    rw [Function.update_of_ne hw, if_neg hji]

lemma get_zero (i : ℕ) : get (fun _ => 0) i = false := by
  simp [get]

/-- **The bits a loop sets**: visiting the indices of a list and setting the
bits of those that satisfy `p` leaves a bit set exactly when it was set
before, or its index was visited and satisfies `p`. -/
lemma get_foldl_set (p : ℕ → Bool) (l : List ℕ) (b : ℕ → UInt64) (j : ℕ) :
    get (l.foldl (fun b i => if p i then set b i true else b) b) j =
      (decide (j ∈ l) && p j || get b j) := by
  induction l generalizing b with
  | nil => simp
  | cons a l ih =>
    rw [List.foldl_cons, ih]
    by_cases hj : j = a
    · subst hj
      by_cases hp : p j
      · simp [hp]
      · simp [hp]
    · have hget : get (if p a then set b a true else b) j = get b j := by
        split_ifs
        · rw [get_set, if_neg hj]
        · rfl
      simp [hget, hj]

end Bitmap
