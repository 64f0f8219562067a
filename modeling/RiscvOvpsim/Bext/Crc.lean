import Mathlib.Tactic

/-!
The CRC instructions of the B extension (`doCRC32_32` and `doCRC32_64` in
`riscvBExtension.c`, called by `emitCRC32Int` with the constant of `crc32`
or `crc32c` and the operand width as the bit count).

Each pass of the loop shifts the word right by one and xors in the constant
when the bit shifted out was set, which the source selects branch-free with
the mask `~((x&1)-1)`. The constant is an `Uns32`; in `doCRC32_64` it is
zero-extended to the 64-bit word.

* `crcMask_eq`: the mask selects the constant exactly when bit 0 is set;
* `crcStep_xor`, `crcLoop_xor`: a pass, and so the loop, is linear over
  GF(2): it distributes over `^`;
* `crcLoop_add`: the loop of `n + m` passes is the loop of `m` after the loop
  of `n`;
* `crcLoop_setWidth`: the loop commutes with zero-extension, so the 64-bit
  loop on a zero-extended word is the 32-bit loop;
* `crc32_linear_compositional`: the three laws for the source functions,
  composition where the bit count `n + m` does not wrap;
  `crc32_count_wraps`: where it wraps, composition fails.
-/

namespace RiscvOvpsim

open BitVec

variable {w : ℕ}

/-! ### The model -/

/-- One pass: `x = (x >> 1) ^ (constant & ~((x&1)-1))`. -/
def crcStep (constant x : BitVec w) : BitVec w :=
  (x >>> 1) ^^^ (constant &&& ~~~((x &&& 1#w) - 1#w))

/-- `for(i = 0; i < nbits; i++)` over `crcStep`. -/
def crcLoop (constant : BitVec w) (nbits : ℕ) (x : BitVec w) : BitVec w :=
  (crcStep constant)^[nbits] x

/-- `doCRC32_32`. -/
def doCRC32_32 (x constant nbits : BitVec 32) : BitVec 32 :=
  crcLoop constant nbits.toNat x

/-- `doCRC32_64`: the `Uns32` constant is zero-extended in `constant & mask`. -/
def doCRC32_64 (x : BitVec 64) (constant nbits : BitVec 32) : BitVec 64 :=
  crcLoop (constant.setWidth 64) nbits.toNat x

/-! ### One pass -/

/-- The mask `~((x&1)-1)` is all ones when bit 0 is set, and zero otherwise. -/
lemma crcMask_eq (constant x : BitVec w) :
    constant &&& ~~~((x &&& 1#w) - 1#w) = if x.getLsbD 0 then constant else 0#w := by
  rcases Nat.eq_zero_or_pos w with rfl | hw
  · exact Subsingleton.elim _ _
  -- `x & 1` is bit 0 in place
  have hlow : x &&& 1#w = if x.getLsbD 0 then 1#w else 0#w := by
    apply eq_of_getLsbD_eq
    intro i hi
    rw [getLsbD_and, getLsbD_one]
    by_cases h0 : i = 0
    · subst h0
      cases x.getLsbD 0 <;> simp [hw]
    · cases x.getLsbD 0 <;> simp [h0]
  rw [hlow]
  cases x.getLsbD 0
  · simp [BitVec.zero_sub, BitVec.neg_one_eq_allOnes]
  · simp

/-- A pass distributes over `^`: the shifted words xor, and the constant is
xored in for `x ^ y` exactly when it is for one of `x` and `y`. -/
lemma crcStep_xor (constant x y : BitVec w) :
    crcStep constant (x ^^^ y) = crcStep constant x ^^^ crcStep constant y := by
  unfold crcStep
  rw [crcMask_eq, crcMask_eq, crcMask_eq, ushiftRight_xor_distrib, getLsbD_xor]
  cases x.getLsbD 0 <;> cases y.getLsbD 0
  · simp
  · simp only [Bool.false_xor, if_true, Bool.false_eq_true, if_false, BitVec.xor_zero,
      BitVec.xor_assoc]
  · simp only [Bool.xor_false, if_true, Bool.false_eq_true, if_false, BitVec.xor_zero,
      BitVec.xor_assoc, BitVec.xor_comm constant]
  · -- the constant is xored in twice and cancels
    simp only [Bool.xor_true, Bool.not_true, Bool.false_eq_true, if_false, if_true, BitVec.xor_zero]
    rw [BitVec.xor_assoc, ← BitVec.xor_assoc constant, BitVec.xor_comm constant,
      BitVec.xor_assoc, BitVec.xor_self, BitVec.xor_zero]

/-- A pass commutes with zero-extension: the shifted-out bit is the same, the
shift brings in zero either way, and the constant is zero-extended. -/
lemma crcStep_setWidth {v : ℕ} (hvw : v ≤ w) (constant x : BitVec v) :
    crcStep (constant.setWidth w) (x.setWidth w) = (crcStep constant x).setWidth w := by
  have hbit : (x.setWidth w).getLsbD 0 = x.getLsbD 0 := by
    rw [getLsbD_setWidth]
    rcases Nat.eq_zero_or_pos v with rfl | hv
    · simp
    · simp [show 0 < w by omega]
  -- the shift right of the zero-extension is the zero-extension of the shift
  have hshift : x.setWidth w >>> 1 = (x >>> 1).setWidth w := by
    apply eq_of_getLsbD_eq
    intro i hi
    simp only [getLsbD_ushiftRight, getLsbD_setWidth]
    by_cases h : 1 + i < w
    · simp [h, hi]
    · rw [getLsbD_of_ge x (1 + i) (by omega)]
      simp
  unfold crcStep
  rw [crcMask_eq, crcMask_eq, hbit, hshift]
  cases x.getLsbD 0 <;> simp [setWidth_xor]

/-! ### The loop -/

/-- **The loop is linear over GF(2).** -/
lemma crcLoop_xor (constant : BitVec w) (n : ℕ) (x y : BitVec w) :
    crcLoop constant n (x ^^^ y) = crcLoop constant n x ^^^ crcLoop constant n y := by
  induction n generalizing x y with
  | zero => rfl
  | succ n ih =>
    simp only [crcLoop, Function.iterate_succ_apply] at ih ⊢
    rw [crcStep_xor, ih]

/-- **`n + m` passes are `n` passes and then `m`.** -/
lemma crcLoop_add (constant : BitVec w) (n m : ℕ) (x : BitVec w) :
    crcLoop constant (n + m) x = crcLoop constant m (crcLoop constant n x) := by
  rw [crcLoop, crcLoop, crcLoop, add_comm, Function.iterate_add_apply]

/-- **The loop commutes with zero-extension.** -/
lemma crcLoop_setWidth {v : ℕ} (hvw : v ≤ w) (constant : BitVec v) (n : ℕ) (x : BitVec v) :
    crcLoop (constant.setWidth w) n (x.setWidth w) = (crcLoop constant n x).setWidth w := by
  -- zero-extension semiconjugates one pass to the pass of the extended constant
  have hstep : Function.Semiconj (setWidth w) (crcStep constant) (crcStep (constant.setWidth w)) :=
    fun y => (crcStep_setWidth hvw constant y).symm
  exact (hstep.iterate_right n x).symm

/-- With a zero constant the loop only shifts. -/
lemma crcLoop_zero (n : ℕ) (x : BitVec w) : crcLoop 0#w n x = x >>> n := by
  induction n generalizing x with
  | zero => simp [crcLoop]
  | succ n ih =>
    simp only [crcLoop, Function.iterate_succ_apply] at ih ⊢
    rw [ih, crcStep, crcMask_eq, ite_self, BitVec.xor_zero, ← shiftRight_add, Nat.add_comm 1 n]

/-! ### The source functions -/

/-- **The CRC loop is GF(2)-linear and compositional**: for every constant,
`doCRC32_32` distributes over `^`, two loops compose to the loop of the
summed bit count where that sum does not wrap past `2^32`, and `doCRC32_64`
on a word below `2^32` is `doCRC32_32`, zero-extended. -/
theorem crc32_linear_compositional (constant : BitVec 32) :
    (∀ x y n : BitVec 32,
      doCRC32_32 (x ^^^ y) constant n = doCRC32_32 x constant n ^^^ doCRC32_32 y constant n) ∧
    (∀ x n m : BitVec 32, n.toNat + m.toNat < 2 ^ 32 →
      doCRC32_32 (doCRC32_32 x constant n) constant m = doCRC32_32 x constant (n + m)) ∧
    (∀ (x : BitVec 64) (n : BitVec 32), x.toNat < 2 ^ 32 →
      doCRC32_64 x constant n = (doCRC32_32 (x.setWidth 32) constant n).setWidth 64) := by
  refine ⟨fun x y n => crcLoop_xor constant n.toNat x y, fun x n m hnm => ?_, fun x n hx => ?_⟩
  · -- the sum of the counts is exact
    have hadd : (n + m).toNat = n.toNat + m.toNat := by
      rw [toNat_add, Nat.mod_eq_of_lt hnm]
    rw [doCRC32_32, doCRC32_32, doCRC32_32, hadd, crcLoop_add]
  · -- a word below `2^32` is the zero-extension of its low half
    have hx' : x = (x.setWidth 32).setWidth 64 := by
      apply eq_of_toNat_eq
      rw [toNat_setWidth, toNat_setWidth, Nat.mod_eq_of_lt hx,
        Nat.mod_eq_of_lt (hx.trans (by norm_num))]
    rw [doCRC32_64, doCRC32_32]
    nth_rewrite 1 [hx']
    rw [crcLoop_setWidth (by norm_num)]

/-- The laws at the constant of `crc32`: 8 passes and then 24 are the 32 of
`crc32.w`, and `crc32.b` on RV64 is the RV32 result. -/
theorem crc32_linear_compositional_crc32 :
    doCRC32_32 (doCRC32_32 0x12345678#32 0xEDB88320#32 8#32) 0xEDB88320#32 24#32 =
        doCRC32_32 0x12345678#32 0xEDB88320#32 (8#32 + 24#32) ∧
      doCRC32_64 0xFF#64 0xEDB88320#32 8#32 =
        (doCRC32_32 ((0xFF#64).setWidth 32) 0xEDB88320#32 8#32).setWidth 64 :=
  ⟨(crc32_linear_compositional 0xEDB88320#32).2.1 _ _ _ (by decide),
    (crc32_linear_compositional 0xEDB88320#32).2.2 _ _ (by decide)⟩

/-- **Where the bit count wraps, the loops do not compose**: `2^32 - 1`
passes and one more shift the word out, while the count `2^32 - 1 + 1`
wraps to zero passes. -/
theorem crc32_count_wraps :
    doCRC32_32 (doCRC32_32 1#32 0#32 0xFFFFFFFF#32) 0#32 1#32 ≠
      doCRC32_32 1#32 0#32 (0xFFFFFFFF#32 + 1#32) := by
  have hwrap : 0xFFFFFFFF#32 + 1#32 = 0#32 := by decide
  rw [doCRC32_32, doCRC32_32, doCRC32_32, ← crcLoop_add, crcLoop_zero, hwrap, toNat_zero,
    crcLoop_zero, ushiftRight_eq_zero (by decide), ushiftRight_zero]
  decide

end RiscvOvpsim
