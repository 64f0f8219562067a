import Mathlib.Tactic
import Mathlib.Data.Matrix.Mul
import Mathlib.Data.ZMod.Basic
import RiscvOvpsim.Bext.Perm
import RiscvOvpsim.Lib.BitLoop

/-!
The bit-matrix multiplies of the B extension (`doBMATOR`, `doBMATXOR` in
`riscvBExtension.c`). A 64-bit word is an 8x8 bit matrix, entry `(i, j)` at
bit `8 i + j`. Both functions transpose `rs2` with `doBMATFLIP`, split `rs1`
into its rows `u[i]` and the transpose into the columns `v[j]` of `rs2`, and
set bit `i` of the result from the byte `u[i / 8] & v[i % 8]`: when it is
nonzero for `doBMATOR`, when its popcount is odd for `doBMATXOR`.

* `doBMATOR_getLsbD`, `doBMATXOR_getLsbD`: entry `(i, j)` of the result is
  the or (the parity) of the ands `rs1[i][k] & rs2[k][j]`;
* `toBitMatrix_doBMATOR`: `doBMATOR` is the boolean matrix product;
* `toGF2Matrix_doBMATXOR`: `doBMATXOR` is the product over `ZMod 2`, so it
  is associative (`doBMATXOR_assoc`) with the identity matrix
  `0x8040201008040201` as unit.
-/

namespace RiscvOvpsim

open BitVec

/-! ### The source functions -/

/-- `__builtin_popcountll`. -/
def doPOPCOUNT64 (rs1 : BitVec 64) : BitVec 64 :=
  BitVec.ofNat 64 (popCount rs1)

/-- `u[i] = rs1 >> (i * 8)`, truncated to `Uns8`: byte `i` of a word, row `i`
of its matrix. -/
def matRow (x : BitVec 64) (i : ℕ) : BitVec 8 :=
  (x >>> (i * 8)).setWidth 8

def doBMATOR (rs1 rs2 : BitVec 64) : BitVec 64 :=
  let rs2t := doBMATFLIP rs2
  let u := matRow rs1
  let v := matRow rs2t
  (List.range 64).foldl (fun x i => if (u (i / 8) &&& v (i % 8)) != 0#8 then x ||| 1#64 <<< i else x)
    0#64

def doBMATXOR (rs1 rs2 : BitVec 64) : BitVec 64 :=
  let rs2t := doBMATFLIP rs2
  let u := matRow rs1
  let v := matRow rs2t
  (List.range 64).foldl (fun x i =>
      if doPOPCOUNT64 ((u (i / 8) &&& v (i % 8)).setWidth 64) &&& 1#64 != 0#64 then
        x ||| 1#64 <<< i
      else x)
    0#64

/-! ### Bits of the products -/

lemma getLsbD_matRow (x : BitVec 64) (i t : ℕ) (ht : t < 8) :
    (matRow x i).getLsbD t = x.getLsbD (8 * i + t) := by
  rw [matRow, getLsbD_setWidth, getLsbD_ushiftRight, Nat.mul_comm i 8]
  simp [ht]

/-- Bit `t` of the byte `u[i] & v[j]`: row `i` of `rs1` against column `j`
of `rs2`, through the transpose. -/
lemma getLsbD_matRow_and (a b : BitVec 64) (i j : Fin 8) {t : ℕ} (ht : t < 8) :
    (matRow a i &&& matRow (doBMATFLIP b) j).getLsbD t =
      (a.getLsbD (8 * i + t) && b.getLsbD (8 * t + j)) := by
  rw [getLsbD_and, getLsbD_matRow _ _ _ ht, getLsbD_matRow _ _ _ ht,
    doBMATFLIP_movesBits b _ (by omega)]
  congr 2
  show 8 * ((8 * j + t) % 8) + (8 * j + t) / 8 = 8 * t + j
  omega

/-- The set-bit loop of both functions, at entry `(i, j)`. -/
lemma getLsbD_foldl_entry (c : ℕ → Bool) (i j : Fin 8) :
    ((List.range 64).foldl (fun x k => if c k then x ||| 1#64 <<< k else x) 0#64).getLsbD
      (8 * i + j) = c (8 * i + j) := by
  rw [getLsbD_foldl_setBit]
  have hlt : 8 * (i : ℕ) + j < 64 := by omega
  simp [hlt]

/-- **Entry `(i, j)` of `doBMATOR` is the or of `rs1[i][k] & rs2[k][j]`.** -/
theorem doBMATOR_getLsbD (a b : BitVec 64) (i j : Fin 8) :
    (doBMATOR a b).getLsbD (8 * i + j) =
      decide (∃ k : Fin 8, a.getLsbD (8 * i + k) = true ∧ b.getLsbD (8 * k + j) = true) := by
  rw [doBMATOR, getLsbD_foldl_entry]
  have hdiv : (8 * (i : ℕ) + j) / 8 = i := by omega
  have hmod : (8 * (i : ℕ) + j) % 8 = j := by omega
  rw [hdiv, hmod, Bool.eq_iff_iff, bne_zero_iff, decide_eq_true_iff]
  constructor
  · rintro ⟨t, ht, hbit⟩
    rw [getLsbD_matRow_and a b i j ht, Bool.and_eq_true] at hbit
    exact ⟨⟨t, ht⟩, hbit⟩
  · rintro ⟨k, hbit⟩
    refine ⟨k, k.isLt, ?_⟩
    rw [getLsbD_matRow_and a b i j k.isLt, Bool.and_eq_true]
    exact hbit

/-- The popcount of a byte, widened to 64 bits, is the count over its eight
bits. -/
lemma popCount_setWidth (y : BitVec 8) :
    popCount (y.setWidth 64) = ∑ t ∈ Finset.range 8, if y.getLsbD t then 1 else 0 := by
  have hhigh : ∀ t, 8 ≤ t → (y.setWidth 64).getLsbD t = false := fun t ht => by
    rw [getLsbD_setWidth, getLsbD_of_ge y t ht, Bool.and_false]
  rw [popCount, show 64 = 8 + 56 from rfl, maskRank_add_of_zero hhigh, maskRank_eq_sum]
  refine Finset.sum_congr rfl fun t ht => ?_
  rw [getLsbD_setWidth]
  simp [show t < 64 by simp at ht; omega]

/-- The test `popcount(x) & 1` reads the parity. -/
lemma doPOPCOUNT64_and_one (z : BitVec 64) :
    (doPOPCOUNT64 z &&& 1#64 != 0#64) = decide (popCount z % 2 = 1) := by
  have hsh := bne_ushiftRight_and_one (doPOPCOUNT64 z) (i := 0) (by norm_num)
  rw [ushiftRight_zero] at hsh
  rw [hsh, doPOPCOUNT64, getLsbD_ofNat, Nat.testBit_zero]
  simp

/-- **Entry `(i, j)` of `doBMATXOR` is the parity of the ands
`rs1[i][k] & rs2[k][j]`.** -/
theorem doBMATXOR_getLsbD (a b : BitVec 64) (i j : Fin 8) :
    (doBMATXOR a b).getLsbD (8 * i + j) =
      decide ((∑ t ∈ Finset.range 8,
        if a.getLsbD (8 * i + t) && b.getLsbD (8 * t + j) then 1 else 0) % 2 = 1) := by
  rw [doBMATXOR, getLsbD_foldl_entry]
  have hdiv : (8 * (i : ℕ) + j) / 8 = i := by omega
  have hmod : (8 * (i : ℕ) + j) % 8 = j := by omega
  rw [hdiv, hmod, doPOPCOUNT64_and_one, popCount_setWidth]
  congr 3
  refine Finset.sum_congr rfl fun t ht => ?_
  rw [getLsbD_matRow_and a b i j (Finset.mem_range.mp ht)]

/-! ### Matrices -/

/-- The 8x8 bit matrix of a word, entry `(i, j)` at bit `8 i + j`. -/
def toBitMatrix (x : BitVec 64) : Matrix (Fin 8) (Fin 8) Bool :=
  fun i j => x.getLsbD (8 * i + j)

/-- The same matrix over `ZMod 2`. -/
def toGF2Matrix (x : BitVec 64) : Matrix (Fin 8) (Fin 8) (ZMod 2) :=
  fun i j => if x.getLsbD (8 * i + j) then 1 else 0

/-- The boolean (or of ands) product of square bit matrices. -/
def boolMatMul {n : Type*} [Fintype n] (A B : Matrix n n Bool) : Matrix n n Bool :=
  fun i j => decide (∃ k, A i k = true ∧ B k j = true)

/-- **`doBMATOR` is the boolean matrix product.** -/
theorem toBitMatrix_doBMATOR (a b : BitVec 64) :
    toBitMatrix (doBMATOR a b) = boolMatMul (toBitMatrix a) (toBitMatrix b) := by
  ext i j
  unfold toBitMatrix boolMatMul
  rw [doBMATOR_getLsbD]
  exact decide_eq_decide.mpr Iff.rfl

/-- A natural number read in `ZMod 2` is its parity. -/
lemma natCast_zmod_two (n : ℕ) : (n : ZMod 2) = if n % 2 = 1 then 1 else 0 := by
  rw [← ZMod.natCast_mod]
  rcases Nat.mod_two_eq_zero_or_one n with h | h <;> simp [h]

/-- **`doBMATXOR` is the matrix product over `ZMod 2`.** -/
theorem toGF2Matrix_doBMATXOR (a b : BitVec 64) :
    toGF2Matrix (doBMATXOR a b) = toGF2Matrix a * toGF2Matrix b := by
  ext i j
  rw [Matrix.mul_apply, toGF2Matrix, doBMATXOR_getLsbD]
  -- the sum of the products counts the `k` where both bits are set
  have hprod : ∀ k : Fin 8, toGF2Matrix a i k * toGF2Matrix b k j =
      ((if a.getLsbD (8 * i + k) && b.getLsbD (8 * k + j) then 1 else 0 : ℕ) : ZMod 2) := by
    intro k
    simp only [toGF2Matrix]
    cases a.getLsbD (8 * i + k) <;> cases b.getLsbD (8 * k + j) <;> simp
  rw [Finset.sum_congr rfl fun k _ => hprod k, ← Nat.cast_sum,
    Fin.sum_univ_eq_sum_range (fun t => if a.getLsbD (8 * i + t) && b.getLsbD (8 * t + j) then 1
      else 0) 8, natCast_zmod_two]
  simp only [decide_eq_true_eq]

lemma toGF2Matrix_injective : Function.Injective toGF2Matrix := by
  intro x y h
  apply eq_of_getLsbD_eq
  intro k hk
  have hij := congrFun (congrFun h ⟨k / 8, by omega⟩) ⟨k % 8, by omega⟩
  have hk : 8 * (k / 8) + k % 8 = k := by omega
  simp only [toGF2Matrix, hk] at hij
  cases hx : x.getLsbD k <;> cases hy : y.getLsbD k <;> simp_all

/-- **`doBMATXOR` is associative**, as the matrix product is. -/
theorem doBMATXOR_assoc (a b c : BitVec 64) :
    doBMATXOR (doBMATXOR a b) c = doBMATXOR a (doBMATXOR b c) := by
  apply toGF2Matrix_injective
  rw [toGF2Matrix_doBMATXOR, toGF2Matrix_doBMATXOR, toGF2Matrix_doBMATXOR,
    toGF2Matrix_doBMATXOR, Matrix.mul_assoc]

/-- `0x8040201008040201` sets bit `8 i + j` exactly on the diagonal. -/
lemma getLsbD_identity (i j : Fin 8) :
    (0x8040201008040201 : BitVec 64).getLsbD (8 * i + j) = decide (i = j) := by
  revert i j
  decide

lemma toGF2Matrix_identity : toGF2Matrix 0x8040201008040201 = 1 := by
  ext i j
  rw [toGF2Matrix, getLsbD_identity, Matrix.one_apply]
  by_cases h : i = j <;> simp [h]

/-- **`0x8040201008040201` is the two-sided unit of `doBMATXOR`.** -/
theorem doBMATXOR_identity (x : BitVec 64) :
    doBMATXOR 0x8040201008040201 x = x ∧ doBMATXOR x 0x8040201008040201 = x := by
  constructor
  · apply toGF2Matrix_injective
    rw [toGF2Matrix_doBMATXOR, toGF2Matrix_identity, Matrix.one_mul]
  · apply toGF2Matrix_injective
    rw [toGF2Matrix_doBMATXOR, toGF2Matrix_identity, Matrix.mul_one]

/-- **`doBMATOR` and `doBMATXOR` are the boolean and the GF(2) products of
8x8 bit matrices**; hence `doBMATXOR` is associative with
`0x8040201008040201` as two-sided identity. -/
theorem bmat_products :
    (∀ a b : BitVec 64, toBitMatrix (doBMATOR a b) = boolMatMul (toBitMatrix a) (toBitMatrix b)) ∧
    (∀ a b : BitVec 64, toGF2Matrix (doBMATXOR a b) = toGF2Matrix a * toGF2Matrix b) ∧
    (∀ a b c : BitVec 64, doBMATXOR (doBMATXOR a b) c = doBMATXOR a (doBMATXOR b c)) ∧
    (∀ x : BitVec 64,
      doBMATXOR 0x8040201008040201 x = x ∧ doBMATXOR x 0x8040201008040201 = x) :=
  ⟨toBitMatrix_doBMATOR, toGF2Matrix_doBMATXOR, doBMATXOR_assoc, doBMATXOR_identity⟩

end RiscvOvpsim
