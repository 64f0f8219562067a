import RiscvOvpsim.Basic
import RiscvOvpsim.Lib.Bits
import Mathlib.Data.UInt

/-!
Writes of the interrupt enable and delegation registers (`riscvCSR.c`, `ieW`,
`midelegW`, `sidelegW`).

The registers are stored in 64 bits on RV64, but the write functions take the
old value, the written value and the writable mask as `Uns32`, so what they
store is a 32-bit value.

* `ieW`, `midelegW`, `sidelegW`: the model, with `mieW` the CSR callback and
  the write masks of `riscvCSRInit` (`riscvInterruptMask`, `getLocalIntMask`,
  `midelegMaskOf`);
* `ieW_toNat_lt`, `midelegW_toNat_lt`, `sidelegW_toNat_lt`: every write leaves
  a value below `2 ^ 32`;
* `ieW_eq_maskedWrite`, `idelegW_eq_maskedWrite`: a write stores the masked
  write `(v & wmask) | (old & ~wmask)` cut to its low 32 bits, which is the
  masked write itself when mask and old value fit in 32 bits
  (`mieW_maskedWrite_of_localIntNum_le`: at most 16 local interrupts);
* `local_interrupt_enable_lost`: on RV64 with 17 local interrupts, local
  interrupt 16 (bit 32) is writable in the masks of `mie` and `mideleg`, but
  no write can set it.
-/

namespace RiscvOvpsim

/-- `ieW`: a write of `mie` through its `mie`, `sie` or `uie` alias, with the
read mask `rMask` of the alias.  In save/restore the value is stored unmasked;
in CLIC mode the old value is kept. -/
def ieW (mie mieMask : UInt64) (inSaveRestore : Bool) (newValue rMask : UInt32)
    (useCLIC : Bool) : UInt64 :=
  let oldValue := mie.toUInt32
  let wMask := mieMask.toUInt32 &&& rMask
  let newValue :=
    if inSaveRestore then newValue
    else if !useCLIC then (newValue &&& wMask) ||| (oldValue &&& ~~~wMask)
    else oldValue
  newValue.toUInt64

/-- `midelegW` and `sidelegW`: a masked write of a delegation register. -/
def idelegW (ideleg idelegMask : UInt64) (newValue : UInt32) : UInt64 :=
  let oldValue := ideleg.toUInt32
  let mask := idelegMask.toUInt32
  ((newValue &&& mask) ||| (oldValue &&& ~~~mask)).toUInt64

/-- `midelegW`. -/
def midelegW (mideleg midelegMask : UInt64) (newValue : UInt32) : UInt64 :=
  idelegW mideleg midelegMask newValue

/-- `sidelegW`. -/
def sidelegW (sideleg sidelegMask : UInt64) (newValue : UInt32) : UInt64 :=
  idelegW sideleg sidelegMask newValue

lemma toNat_toUInt64_lt (x : UInt32) : x.toUInt64.toNat < 2 ^ 32 := by
  rw [UInt32.toNat_toUInt64]
  exact x.toNat_lt

/-- A write of `mie` stores a 32-bit value. -/
theorem ieW_toNat_lt (mie mieMask : UInt64) (inSaveRestore : Bool) (newValue rMask : UInt32)
    (useCLIC : Bool) : (ieW mie mieMask inSaveRestore newValue rMask useCLIC).toNat < 2 ^ 32 :=
  toNat_toUInt64_lt _

theorem midelegW_toNat_lt (mideleg midelegMask : UInt64) (newValue : UInt32) :
    (midelegW mideleg midelegMask newValue).toNat < 2 ^ 32 :=
  toNat_toUInt64_lt _

theorem sidelegW_toNat_lt (sideleg sidelegMask : UInt64) (newValue : UInt32) :
    (sidelegW sideleg sidelegMask newValue).toNat < 2 ^ 32 :=
  toNat_toUInt64_lt _

/-! ### The masked-write law -/

/-- The masked-write law of a CSR: the bits of `wmask` from the written
value, the others from the old one. -/
def maskedWrite (old v wmask : UInt64) : UInt64 :=
  (v &&& wmask) ||| (old &&& ~~~wmask)

/-- `mieW`, the write callback of `mie`: the 64-bit written value reaches
`ieW` as its `Uns32` parameter, with the read mask `-1`. -/
def mieW (mie mieMask : UInt64) (inSaveRestore useCLIC : Bool) (newValue : UInt64) : UInt64 :=
  ieW mie mieMask inSaveRestore newValue.toUInt32 0xFFFFFFFF useCLIC

/-- `getLocalIntMask`: `local_int_num` local interrupts, at most 48, from bit
`riscv_E_Local = 16` up. -/
def getLocalIntMask (localIntNum : ℕ) : UInt64 :=
  let localShift := if localIntNum < 48 then localIntNum else 48
  ((1 : UInt64) <<< UInt64.ofNat localShift - 1) <<< 16

/-- The interrupt mask `riscvSetExceptionMask` composes: the standard
interrupts of the architecture, the local ones, less `unimp_int_mask`; it is
the write mask of `mie` (`mInterrupts` in `riscvCSRInit`). -/
def riscvInterruptMask (stdInterrupts unimpIntMask : UInt64) (localIntNum : ℕ) : UInt64 :=
  (stdInterrupts ||| getLocalIntMask localIntNum) &&& ~~~unimpIntMask

/-- The write mask of `mideleg` in `riscvCSRInit` with a basic interrupt
controller: `sInterrupts` (no Machine-level software, timer or external
interrupt) less `no_ideleg` and the forced delegations. -/
def midelegMaskOf (mInterrupts noIdeleg forceMideleg : UInt64) : UInt64 :=
  let sInterrupts := mInterrupts &&& ~~~((1 : UInt64) <<< 3 ||| (1 : UInt64) <<< 7 ||| (1 : UInt64) <<< 11)
  sInterrupts &&& ~~~(noIdeleg ||| (sInterrupts &&& forceMideleg))

lemma getLsbD_lowHalf (i : ℕ) : (0xFFFFFFFF : UInt64).toBitVec.getLsbD i = decide (i < 32) := by
  show (BitVec.ofNat 64 (2 ^ 32 - 1)).getLsbD i = _
  rw [BitVec.getLsbD_ofNat, Nat.testBit_two_pow_sub_one]
  by_cases h : i < 32
  · simp [h, show i < 64 by omega]
  · simp [h]

/-- **`ieW` stores the masked write cut to 32 bits**, outside save/restore
and CLIC mode. -/
theorem ieW_eq_maskedWrite (mie mieMask : UInt64) (v rMask : UInt32) :
    ieW mie mieMask false v rMask false =
      maskedWrite mie v.toUInt64 (mieMask &&& rMask.toUInt64) &&& 0xFFFFFFFF := by
  apply UInt64.toBitVec_inj.mp
  apply BitVec.eq_of_getLsbD_eq
  intro i hi
  simp only [ieW, maskedWrite, Bool.not_false, if_true, UInt32.toBitVec_toUInt64,
    UInt64.toBitVec_and, UInt64.toBitVec_or, UInt64.toBitVec_not, BitVec.getLsbD_setWidth,
    BitVec.getLsbD_and, BitVec.getLsbD_or, BitVec.getLsbD_not, getLsbD_lowHalf]
  -- above bit 31 both sides are zero; below it the two formulas agree bit by bit
  by_cases h : i < 32
  · simp [h, hi]
  · simp [h, BitVec.getLsbD_of_ge v.toBitVec i (by omega)]

/-- **`midelegW` and `sidelegW` store the masked write cut to 32 bits.** -/
theorem idelegW_eq_maskedWrite (ideleg idelegMask : UInt64) (v : UInt32) :
    idelegW ideleg idelegMask v = maskedWrite ideleg v.toUInt64 idelegMask &&& 0xFFFFFFFF := by
  apply UInt64.toBitVec_inj.mp
  apply BitVec.eq_of_getLsbD_eq
  intro i hi
  simp only [idelegW, maskedWrite, UInt32.toBitVec_toUInt64, UInt64.toBitVec_toUInt32,
    UInt64.toBitVec_and, UInt64.toBitVec_or, UInt64.toBitVec_not, UInt32.toBitVec_and,
    UInt32.toBitVec_or, UInt32.toBitVec_not, BitVec.getLsbD_setWidth, BitVec.getLsbD_and,
    BitVec.getLsbD_or, BitVec.getLsbD_not, getLsbD_lowHalf]
  by_cases h : i < 32
  · simp [h, hi]
  · simp [h, BitVec.getLsbD_of_ge v.toBitVec i (by omega)]

/-- The local interrupts are the bits from 16 up, `min n 48` of them. -/
lemma getLocalIntMask_toNat (n : ℕ) :
    (getLocalIntMask n).toNat = (2 ^ min n 48 - 1) * 2 ^ 16 := by
  have hs : (if n < 48 then n else 48) = min n 48 := by
    split_ifs with h <;> omega
  have hpow : 2 ^ min n 48 ≤ 2 ^ 48 := Nat.pow_le_pow_right (by norm_num) (by omega)
  have hone : (1 : UInt64).toNat ≤ ((1 : UInt64) <<< UInt64.ofNat (min n 48)).toNat := by
    rw [UInt64.toNat_one_shiftLeft (by omega), UInt64.toNat_one]
    exact Nat.one_le_two_pow
  rw [getLocalIntMask, hs, UInt64.toNat_shiftLeft, UInt64.toNat_sub_of_le _ _ hone,
    UInt64.toNat_one_shiftLeft (by omega), UInt64.toNat_one]
  have h16 : (16 : UInt64).toNat % 64 = 16 := rfl
  rw [h16, Nat.shiftLeft_eq, Nat.mod_eq_of_lt]
  calc (2 ^ min n 48 - 1) * 2 ^ 16 < 2 ^ 48 * 2 ^ 16 :=
        Nat.mul_lt_mul_of_pos_right (by omega) (by norm_num)
    _ = 2 ^ 64 := by norm_num

/-- With at most 16 local interrupts, they fit in the low 32 bits. -/
lemma getLocalIntMask_lt {n : ℕ} (hn : n ≤ 16) : (getLocalIntMask n).toNat < 2 ^ 32 := by
  rw [getLocalIntMask_toNat]
  have hpow : 2 ^ min n 48 ≤ 2 ^ 16 := Nat.pow_le_pow_right (by norm_num) (by omega)
  calc (2 ^ min n 48 - 1) * 2 ^ 16 < 2 ^ 16 * 2 ^ 16 :=
        Nat.mul_lt_mul_of_pos_right (by omega) (by norm_num)
    _ = 2 ^ 32 := by norm_num

/-- A word below `2 ^ 32` has no bit from 32 up. -/
lemma getLsbD_of_toNat_lt {x : UInt64} (hx : x.toNat < 2 ^ 32) {i : ℕ} (hi : 32 ≤ i) :
    x.toBitVec.getLsbD i = false := by
  rw [← BitVec.testBit_toNat, UInt64.toNat_toBitVec]
  exact Nat.testBit_lt_two_pow (lt_of_lt_of_le hx (Nat.pow_le_pow_right (by norm_num) hi))

/-- **With at most 16 local interrupts, `mie` obeys the masked-write law**
for every written value, from every old value below `2 ^ 32` (as writes leave
it) and standard interrupts below bit 32. -/
theorem mieW_maskedWrite_of_localIntNum_le (stdInterrupts unimpIntMask : UInt64) {n : ℕ}
    (hstd : stdInterrupts.toNat < 2 ^ 32) (hn : n ≤ 16) {mie : UInt64} (hmie : mie.toNat < 2 ^ 32)
    (v : UInt64) :
    mieW mie (riscvInterruptMask stdInterrupts unimpIntMask n) false false v =
      maskedWrite mie v (riscvInterruptMask stdInterrupts unimpIntMask n) := by
  have hlocal := getLocalIntMask_lt hn
  rw [mieW, ieW_eq_maskedWrite]
  apply UInt64.toBitVec_inj.mp
  apply BitVec.eq_of_getLsbD_eq
  intro i hi
  have hff : (0xFFFFFFFF : UInt32).toBitVec = BitVec.allOnes 32 := rfl
  simp only [hff, BitVec.getLsbD_allOnes, maskedWrite, riscvInterruptMask, UInt32.toBitVec_toUInt64, UInt64.toBitVec_toUInt32,
    UInt64.toBitVec_and, UInt64.toBitVec_or, UInt64.toBitVec_not, BitVec.getLsbD_setWidth,
    BitVec.getLsbD_and, BitVec.getLsbD_or, BitVec.getLsbD_not, getLsbD_lowHalf]
  by_cases h : i < 32
  · simp [h, hi]
  · -- above bit 31 neither the mask nor the old value has a bit
    simp [h, getLsbD_of_toNat_lt hstd (not_lt.mp h), getLsbD_of_toNat_lt hlocal (not_lt.mp h),
      getLsbD_of_toNat_lt hmie (not_lt.mp h)]

lemma maskedWrite_zero_zero (m : UInt64) : maskedWrite 0 0 m = 0 := by
  simp [maskedWrite]

/-- **Local interrupt 16 can be neither enabled nor delegated** on RV64 with
17 local interrupts: bit 32 is writable in the masks of `mie` and `mideleg`,
but writing `1 << 32` into either from zero stores zero, where the
masked-write law stores `1 << 32`. -/
theorem local_interrupt_enable_lost (stdInterrupts : UInt64) :
    (riscvInterruptMask stdInterrupts 0 17).toNat.testBit 32 = true ∧
    (midelegMaskOf (riscvInterruptMask stdInterrupts 0 17) 0 0).toNat.testBit 32 = true ∧
    mieW 0 (riscvInterruptMask stdInterrupts 0 17) false false (2 ^ 32) = 0 ∧
    maskedWrite 0 (2 ^ 32) (riscvInterruptMask stdInterrupts 0 17) = 2 ^ 32 ∧
    midelegW 0 (midelegMaskOf (riscvInterruptMask stdInterrupts 0 17) 0 0)
      (UInt64.toUInt32 (2 ^ 32)) = 0 ∧
    maskedWrite 0 (2 ^ 32) (midelegMaskOf (riscvInterruptMask stdInterrupts 0 17) 0 0) = 2 ^ 32 := by
  have hlocal : (getLocalIntMask 17).toNat.testBit 32 = true := by
    rw [getLocalIntMask_toNat]
    decide
  have hmask : (riscvInterruptMask stdInterrupts 0 17).toNat.testBit 32 = true := by
    simp [riscvInterruptMask, UInt64.toNat_or, Nat.testBit_or, hlocal]
  have hdeleg : (midelegMaskOf (riscvInterruptMask stdInterrupts 0 17) 0 0).toNat.testBit 32 =
      true := by
    simp only [midelegMaskOf, UInt64.toNat_and, UInt64.toNat_or, Nat.testBit_and, Nat.testBit_or,
      UInt64.testBit_toNat_not, hmask]
    decide
  -- the law keeps bit 32 of the written value wherever the mask has it
  have hlaw : ∀ m : UInt64, m.toNat.testBit 32 = true → maskedWrite 0 (2 ^ 32) m = 2 ^ 32 := by
    intro m hm
    apply UInt64.toNat_inj.mp
    apply Nat.eq_of_testBit_eq
    intro j
    simp only [maskedWrite, UInt64.toNat_or, UInt64.toNat_and, UInt64.toNat_zero, Nat.zero_and,
      Nat.or_zero, Nat.testBit_and]
    by_cases hj : j = 32
    · subst hj
      rw [hm]
      decide
    · have h2 : (2 ^ 32 : UInt64).toNat = 2 ^ 32 := rfl
      rw [h2, Nat.testBit_two_pow, decide_eq_false (Ne.symm hj), Bool.false_and]
  -- the written value reaches the register cut to its low 32 bits, which are zero
  have hlow : (UInt64.toUInt32 (2 ^ 32)).toUInt64 = 0 := rfl
  refine ⟨hmask, hdeleg, ?_, hlaw _ hmask, ?_, hlaw _ hdeleg⟩
  · rw [mieW, ieW_eq_maskedWrite, hlow, maskedWrite_zero_zero, UInt64.zero_and]
  · rw [midelegW, idelegW_eq_maskedWrite, hlow, maskedWrite_zero_zero, UInt64.zero_and]

end RiscvOvpsim
