import Mathlib.Tactic
import RiscvOvpsim.Lib.StepSystem
import RiscvOvpsim.Lib.BitLoop
import RiscvOvpsim.Lib.UpperBits

/-!
NaN-boxing of floating point registers within a translated block
(`riscvMorph.c`: `requireNaNBox`, `riscvWriteRegSize`, `getVMIRegFSInt`,
`riscvStartBlock`).

A floating point register of `FLEN` bits holds a narrower value in its low
bits; the value is NaN-boxed when the bits above it are all ones. The
translator keeps, per block, `fpNaNBoxMask[0]` and `fpNaNBoxMask[1]`: the
registers known to be NaN-boxed as 16-bit and as 32-bit values. A write of
`srcBits` stores the box only when the register is not known to be boxed at
that width, and then records it as boxed at every width from `srcBits` up
and as unboxed below. A narrow read tests the box at run time only when the
register is not known to be boxed, and reads the canonical quiet NaN when the
test fails.

The masks are translation-time knowledge about the run-time register file;
`NaNBoxSound` is their meaning, which `riscvStartBlock` establishes and every
translated access keeps (`fpStep_sound`).

* `riscvWriteRegSize_mask`: the two loops of `riscvWriteRegSize` put the
  register in view `i` exactly when `16 << i` is at least `srcBits`;
* `fpWrite_upperOnes`: after a write of `srcBits`, the bits above them are all
  ones, whether the box was stored or known;
* `getVMIRegFSInt_eq`: under sound masks, a narrow read returns the low bits
  of a boxed register and the canonical quiet NaN of an unboxed one;
* `nan_boxing_discipline`: all three along every block.
-/

namespace RiscvOvpsim

open BitVec StepSystem

/-! ### The block state -/

/-- `FP16_DEFAULT_QNAN`: the default quiet NaN of half precision. -/
def FP16_DEFAULT_QNAN : ℕ := 0x7e00

/-- `FP32_DEFAULT_QNAN`: the default quiet NaN of single precision. -/
def FP32_DEFAULT_QNAN : ℕ := 0x7fc00000

/-- `getRegMask`: the bit of a register in a mask of registers. -/
def getRegMask (r : Fin 32) : BitVec 32 :=
  1#32 <<< r.val

/-- The NaN-boxing masks of `riscvBlockState`: view `0` holds the registers
known to be NaN-boxed as 16-bit values, view `1` as 32-bit values. -/
structure RiscvBlockState where
  fpNaNBoxMask : Fin 2 → BitVec 32

/-- `riscvStartBlock`: no floating point register is known to be NaN-boxed
at the start of a block. -/
def riscvStartBlock : RiscvBlockState :=
  ⟨fun _ => 0#32⟩

/-- `requireNaNBox`: a value of `srcBits` in a register of `archBits` needs
the box unless the register is known to be boxed at that width. -/
def requireNaNBox (blockState : RiscvBlockState) (r : Fin 32) (archBits srcBits : ℕ) : Bool :=
  if archBits > srcBits then
    let fpNaNBoxMask : BitVec 32 :=
      if srcBits = 16 then blockState.fpNaNBoxMask 0
      else if srcBits = 32 then blockState.fpNaNBoxMask 1
      else -1#32
    !(fpNaNBoxMask &&& getRegMask r != 0#32)
  else false

/-- The first loop of `riscvWriteRegSize`, from view `i`: the views narrower
than `srcBits` lose the register. Returns the masks and the view the loop
stops at. -/
def clearNarrowerViews (srcBits : ℕ) (fprMask : BitVec 32) (mask : Fin 2 → BitVec 32)
    (i : ℕ) : (Fin 2 → BitVec 32) × ℕ :=
  if h : i < 2 ∧ 16 <<< i < srcBits then
    clearNarrowerViews srcBits fprMask
      (Function.update mask ⟨i, h.1⟩ (mask ⟨i, h.1⟩ &&& ~~~fprMask)) (i + 1)
  else (mask, i)
termination_by 2 - i

/-- The second loop of `riscvWriteRegSize`, from view `i`: the views from
there up gain the register. -/
def setWiderViews (fprMask : BitVec 32) (mask : Fin 2 → BitVec 32) (i : ℕ) :
    Fin 2 → BitVec 32 :=
  if h : i < 2 then
    setWiderViews fprMask (Function.update mask ⟨i, h⟩ (mask ⟨i, h⟩ ||| fprMask)) (i + 1)
  else mask
termination_by 2 - i

/-- `riscvWriteRegSize` for a floating point register: whether the box is
stored after the result, and the block state after the write. -/
def riscvWriteRegSize (blockState : RiscvBlockState) (flen : ℕ) (r : Fin 32) (srcBits : ℕ) :
    Bool × RiscvBlockState :=
  let dstBits := flen
  let fprMask := getRegMask r
  let doNaNBox := requireNaNBox blockState r dstBits srcBits
  let narrower := clearNarrowerViews srcBits fprMask blockState.fpNaNBoxMask 0
  (doNaNBox, ⟨setWiderViews fprMask narrower.1 narrower.2⟩)

/-! ### Translated accesses at run time -/

/-- The translator's block state with the run-time floating point registers
of `flen` bits. -/
structure FpBlock (flen : ℕ) where
  blockState : RiscvBlockState
  f : Fin 32 → BitVec flen

/-- An access to a floating point register translated into the block. -/
inductive FpAccess where
  /-- a read of `bits` through `getVMIRegFSInt` -/
  | read (r : Fin 32) (bits : ℕ)
  /-- an instruction's result of `srcBits`, then `riscvWriteRegSize` -/
  | write (r : Fin 32) (srcBits : ℕ) (result : BitVec srcBits)

/-- The widths of a block's writes: `srcBits` is 16, 32 or 64 bits, at most
`flen`. -/
def FpAccess.validWidth (flen : ℕ) : FpAccess → Bool
  | .read _ _ => true
  | .write _ srcBits _ => decide (srcBits ∈ [16, 32, 64] ∧ srcBits ≤ flen)

/-- A write: the instruction stores its result in the low `srcBits` bits, then
`vmimtMoveRC` stores ones above them when `riscvWriteRegSize` boxes. -/
def fpWrite {flen : ℕ} (s : FpBlock flen) (r : Fin 32) (srcBits : ℕ)
    (result : BitVec srcBits) : FpBlock flen :=
  let translated := riscvWriteRegSize s.blockState flen r srcBits
  let dst := (s.f r).writeLow srcBits result
  let dst := if translated.1 then dst.fillUpper srcBits else dst
  ⟨translated.2, Function.update s.f r dst⟩

/-- One translated access: a read changes nothing. -/
def fpStep {flen : ℕ} (s : FpBlock flen) : FpAccess → FpBlock flen
  | .read _ _ => s
  | .write r srcBits result => fpWrite s r srcBits result

/-- `getVMIRegFSInt`: a read of `bits` from a register of `archBits`. When the
register is not known to be boxed, the upper bits are compared with
`-1 << bits` and the read takes `QNaN` if they are not all ones. -/
def getVMIRegFSInt {flen : ℕ} (blockState : RiscvBlockState) (f : Fin 32 → BitVec flen)
    (r : Fin 32) (bits : ℕ) : BitVec bits :=
  let result := f r
  let archBits := flen
  if requireNaNBox blockState r archBits bits then
    let QNaN : ℕ := if bits = 16 then FP16_DEFAULT_QNAN else FP32_DEFAULT_QNAN
    let upper : UInt64 := (-1) <<< bits.toUInt64
    -- `vmimtCompareRC(archBits, vmi_COND_NB, ...)`: unsigned not below
    let tmp : Bool := decide (BitVec.ofNat archBits upper.toNat ≤ result)
    -- `vmimtCondMoveRRC(bits, tmp, True, tmp, result, QNaN)`
    if tmp then result.setWidth bits else BitVec.ofNat bits QNaN
  else result.setWidth bits

/-! ### The masks -/

/-- The test `mask & getRegMask(r)` reads bit `r` of the mask. -/
lemma and_getRegMask_bne_zero (mask : BitVec 32) (r : Fin 32) :
    (mask &&& getRegMask r != 0#32) = mask.getLsbD r := by
  rw [getRegMask, ← twoPow_eq, and_twoPow_bne_zero _ r.isLt]

lemma getLsbD_getRegMask (r : Fin 32) (j : ℕ) :
    (getRegMask r).getLsbD j = decide (r.val = j) := by
  rw [getRegMask, ← twoPow_eq, getLsbD_twoPow]
  simp only [r.isLt, decide_true, Bool.true_and]

/-- The second loop sets the views from `i` up. -/
lemma setWiderViews_apply (fprMask : BitVec 32) (mask : Fin 2 → BitVec 32) (i : ℕ) (j : Fin 2) :
    setWiderViews fprMask mask i j = if i ≤ j.val then mask j ||| fprMask else mask j := by
  fun_induction setWiderViews fprMask mask i with
  | case1 mask i h ih =>
      rw [ih]
      by_cases hij : i = j.val
      · subst hij
        simp
      · have hne : j ≠ ⟨i, h⟩ := fun h' => hij (by rw [h'])
        by_cases hle : i ≤ j.val
        · simp [Function.update_of_ne hne, hle, show i + 1 ≤ j.val by omega]
        · simp [Function.update_of_ne hne, hle, show ¬ i + 1 ≤ j.val by omega]
  | case2 mask i h =>
      simp [show ¬ i ≤ j.val by omega]

/-- The first loop stops at a view `stop` past every view it cleared: the
views from `i` below `stop` are narrower than `srcBits`, and the loop stops
past the last view or at the first one that is not narrower. -/
lemma clearNarrowerViews_spec (srcBits : ℕ) (fprMask : BitVec 32) (mask : Fin 2 → BitVec 32)
    (i : ℕ) :
    let res := clearNarrowerViews srcBits fprMask mask i
    i ≤ res.2 ∧ (∀ k, i ≤ k → k < res.2 → 16 <<< k < srcBits) ∧
      (2 ≤ res.2 ∨ ¬ 16 <<< res.2 < srcBits) ∧
      ∀ j : Fin 2, res.1 j = if i ≤ j.val ∧ j.val < res.2 then mask j &&& ~~~fprMask else mask j := by
  fun_induction clearNarrowerViews srcBits fprMask mask i with
  | case1 mask i h ih =>
      set res := clearNarrowerViews srcBits fprMask
        (Function.update mask ⟨i, h.1⟩ (mask ⟨i, h.1⟩ &&& ~~~fprMask)) (i + 1)
      obtain ⟨hle, hnarrow, hstop, hmask⟩ := ih
      refine ⟨by omega, fun k hik hk => ?_, hstop, fun j => ?_⟩
      · rcases Nat.eq_or_lt_of_le hik with rfl | hlt
        · exact h.2
        · exact hnarrow k hlt hk
      · rw [hmask]
        by_cases hij : j.val = i
        · -- the view cleared by this pass
          obtain rfl : j = ⟨i, h.1⟩ := Fin.ext hij
          rw [if_neg (by simp), if_pos ⟨le_refl i, by omega⟩, Function.update_self]
        · have hne : j ≠ ⟨i, h.1⟩ := fun h' => hij (by rw [h'])
          have hiff : (i + 1 ≤ j.val ∧ j.val < res.2) ↔ (i ≤ j.val ∧ j.val < res.2) := by omega
          rw [Function.update_of_ne hne]
          by_cases hc : i ≤ j.val ∧ j.val < res.2
          · rw [if_pos (hiff.mpr hc), if_pos hc]
          · rw [if_neg (fun h' => hc (hiff.mp h')), if_neg hc]
  | case2 mask i h =>
      dsimp only
      refine ⟨le_refl i, fun k hik hk => absurd hk (by omega), ?_, fun j => by simp⟩
      by_cases hi : i < 2
      · exact Or.inr fun hs => h ⟨hi, hs⟩
      · exact Or.inl (by omega)

/-- **The masks after `riscvWriteRegSize`**: view `j` loses the register when
it is narrower than `srcBits` and gains it otherwise. -/
lemma riscvWriteRegSize_mask (blockState : RiscvBlockState) (flen : ℕ) (r : Fin 32)
    (srcBits : ℕ) (j : Fin 2) :
    (riscvWriteRegSize blockState flen r srcBits).2.fpNaNBoxMask j =
      if 16 <<< j.val < srcBits then blockState.fpNaNBoxMask j &&& ~~~getRegMask r
      else blockState.fpNaNBoxMask j ||| getRegMask r := by
  simp only [riscvWriteRegSize]
  obtain ⟨-, hnarrow, hstop, hmask⟩ :=
    clearNarrowerViews_spec srcBits (getRegMask r) blockState.fpNaNBoxMask 0
  set res := clearNarrowerViews srcBits (getRegMask r) blockState.fpNaNBoxMask 0
  rw [setWiderViews_apply, hmask]
  by_cases hj : j.val < res.2
  · rw [if_neg (not_le.mpr hj), if_pos ⟨Nat.zero_le _, hj⟩,
      if_pos (hnarrow j.val (Nat.zero_le _) hj)]
  · -- past the stop the views are not narrower, the shifts growing with the view
    have hwide : ¬ 16 <<< j.val < srcBits := by
      rcases hstop with h2 | hs
      · exact absurd (j.isLt.trans_le h2) hj
      · intro hj'
        apply hs
        have hmono : 16 <<< res.2 ≤ 16 <<< j.val := by
          simp only [Nat.shiftLeft_eq]
          exact Nat.mul_le_mul_left 16 (Nat.pow_le_pow_right (by norm_num) (by omega))
        omega
    rw [if_pos (not_lt.mp hj), if_neg (fun h => hj h.2), if_neg hwide]

/-- Bit `r'` of view `j` after a write to `r`. -/
lemma getLsbD_riscvWriteRegSize_mask (blockState : RiscvBlockState) (flen : ℕ) (r r' : Fin 32)
    (srcBits : ℕ) (j : Fin 2) :
    ((riscvWriteRegSize blockState flen r srcBits).2.fpNaNBoxMask j).getLsbD r' =
      if r' = r then !decide (16 <<< j.val < srcBits)
      else (blockState.fpNaNBoxMask j).getLsbD r' := by
  rw [riscvWriteRegSize_mask]
  by_cases hr : r' = r
  · subst hr
    by_cases hw : 16 <<< j.val < srcBits <;> simp [hw, getLsbD_getRegMask]
  · -- another register's bit is neither cleared nor set
    have hbit : (getRegMask r).getLsbD r' = false := by
      rw [getLsbD_getRegMask, decide_eq_false_iff_not]
      exact fun h => hr (Fin.ext h.symm)
    by_cases hw : 16 <<< j.val < srcBits
    · rw [if_pos hw, if_neg hr, getLsbD_and, getLsbD_not, hbit]
      simp [r'.isLt]
    · rw [if_neg hw, if_neg hr, getLsbD_or, hbit, Bool.or_false]

/-! ### Soundness of the masks -/

/-- The meaning of the masks: a register in view `i` has its bits from
`16 << i` up all ones. -/
def NaNBoxSound {flen : ℕ} (s : FpBlock flen) : Prop :=
  ∀ (i : Fin 2) (r : Fin 32), (s.blockState.fpNaNBoxMask i).getLsbD r = true →
    (s.f r).UpperOnes (16 <<< i.val)

/-- `riscvStartBlock` knows of no box, whatever the registers hold. -/
lemma riscvStartBlock_sound {flen : ℕ} (f : Fin 32 → BitVec flen) :
    NaNBoxSound (⟨riscvStartBlock, f⟩ : FpBlock flen) := by
  intro i r h
  simp [riscvStartBlock] at h

/-- **Where nothing is boxed or tested, the box is known**: when
`requireNaNBox` is false, sound masks say the bits from `bits` up are
already ones. -/
lemma upperOnes_of_requireNaNBox_eq_false {flen : ℕ} {s : FpBlock flen} (hs : NaNBoxSound s)
    (r : Fin 32) {bits : ℕ} (hbits : bits ∈ [16, 32, 64]) (hflen : flen ≤ 64)
    (h : requireNaNBox s.blockState r flen bits = false) : (s.f r).UpperOnes bits := by
  unfold requireNaNBox at h
  by_cases hgt : flen > bits
  · rw [if_pos hgt] at h
    simp only [List.mem_cons, List.not_mem_nil, or_false] at hbits
    -- the width selects its view; a 64-bit value is never narrower than `flen`
    rcases hbits with rfl | rfl | rfl
    · simp only [if_pos, and_getRegMask_bne_zero, Bool.not_eq_false'] at h
      exact hs 0 r h
    · simp only [show (32 : ℕ) ≠ 16 by decide, if_false, if_pos, and_getRegMask_bne_zero,
        Bool.not_eq_false'] at h
      exact hs 1 r h
    · omega
  · exact upperOnes_of_le _ (not_lt.mp hgt)

/-- **After a write of `srcBits`, the bits above them are ones**: stored by
the box, or known to be ones and kept by the store of the result. -/
lemma fpWrite_upperOnes {flen : ℕ} {s : FpBlock flen} (hs : NaNBoxSound s) (r : Fin 32)
    {srcBits : ℕ} (result : BitVec srcBits) (hsrc : srcBits ∈ [16, 32, 64]) (hflen : flen ≤ 64) :
    ((fpWrite s r srcBits result).f r).UpperOnes srcBits := by
  simp only [fpWrite, Function.update_self]
  cases hbox : (riscvWriteRegSize s.blockState flen r srcBits).1
  · rw [if_neg (by simp)]
    apply (upperOnes_writeLow_iff _ _).mpr
    exact upperOnes_of_requireNaNBox_eq_false hs r hsrc hflen hbox
  · rw [if_pos rfl]
    exact upperOnes_fillUpper _ _

/-- **A write keeps the masks sound**: the written register is recorded as
boxed exactly at the widths from `srcBits` up, where its bits are ones, and
no other register's bit or value changes. -/
lemma fpWrite_sound {flen : ℕ} {s : FpBlock flen} (hs : NaNBoxSound s) (r : Fin 32)
    {srcBits : ℕ} (result : BitVec srcBits) (hsrc : srcBits ∈ [16, 32, 64]) (hflen : flen ≤ 64) :
    NaNBoxSound (fpWrite s r srcBits result) := by
  intro i r' hbit
  have hmask := getLsbD_riscvWriteRegSize_mask s.blockState flen r r' srcBits i
  simp only [fpWrite] at hbit ⊢
  rw [hmask] at hbit
  by_cases hr : r' = r
  · subst hr
    rw [if_pos rfl, Bool.not_eq_true', decide_eq_false_iff_not, not_lt] at hbit
    exact (fpWrite_upperOnes hs r' result hsrc hflen).mono hbit
  · rw [if_neg hr] at hbit
    rw [Function.update_of_ne hr]
    exact hs i r' hbit

lemma fpStep_sound {flen : ℕ} (hflen : flen ≤ 64) (s : FpBlock flen) (a : FpAccess)
    (ha : a.validWidth flen = true) (hs : NaNBoxSound s) : NaNBoxSound (fpStep s a) := by
  cases a with
  | read r bits => exact hs
  | write r srcBits result =>
      simp only [FpAccess.validWidth, decide_eq_true_eq] at ha
      exact fpWrite_sound hs r result ha.1 hflen

/-- **The masks are sound along every block**: from `riscvStartBlock`, after
any sequence of translated reads and writes. -/
theorem run_sound {flen : ℕ} (hflen : flen ≤ 64) (f₀ : Fin 32 → BitVec flen)
    (ops : List FpAccess) (hops : ∀ a ∈ ops, a.validWidth flen = true) :
    NaNBoxSound (run fpStep (⟨riscvStartBlock, f₀⟩ : FpBlock flen) ops) :=
  @run_invariant _ _ fpStep (fun a => a.validWidth flen = true) NaNBoxSound
    (fun s a ha hs => fpStep_sound hflen s a ha hs) _ _ (riscvStartBlock_sound f₀) hops

/-! ### Reads -/

/-- The canonical quiet NaN of a binary format of `w` bits with `e` exponent
bits: sign clear, exponent all ones, the top bit of the significand set and
the others clear. -/
def canonicalNaN (w e : ℕ) : BitVec w :=
  BitVec.ofNat w ((2 ^ e - 1) * 2 ^ (w - 1 - e) + 2 ^ (w - 2 - e))

/-- The exponent bits of the half, single and double formats. -/
def expBits : ℕ → ℕ
  | 16 => 5
  | 32 => 8
  | 64 => 11
  | _ => 0

/-- The canonical quiet NaN of the format of `w` bits. -/
def canonicalQNaN (w : ℕ) : BitVec w :=
  canonicalNaN w (expBits w)

/-- The default quiet NaNs of `getVMIRegFSInt` are the canonical ones. -/
lemma ofNat_QNaN_eq {bits : ℕ} (hbits : bits ∈ [16, 32]) :
    BitVec.ofNat bits (if bits = 16 then FP16_DEFAULT_QNAN else FP32_DEFAULT_QNAN) =
      canonicalQNaN bits := by
  simp only [List.mem_cons, List.not_mem_nil, or_false] at hbits
  rcases hbits with rfl | rfl <;> decide

/-- The constant `-1ULL << bits`, compared at `flen` bits, is `~0 << bits`. -/
lemma ofNat_upper_eq {flen bits : ℕ} (hbits : bits < 64) (hflen : flen ≤ 64) :
    BitVec.ofNat flen ((-1 : UInt64) <<< bits.toUInt64).toNat = allOnes flen <<< bits := by
  have hshift : ((-1 : UInt64) <<< bits.toUInt64).toNat = (2 ^ 64 - 1) <<< bits % 2 ^ 64 := by
    rw [UInt64.toNat_shiftLeft]
    simp [Nat.toUInt64, UInt64.toNat_ofNat, Nat.mod_eq_of_lt hbits]
  apply eq_of_getLsbD_eq
  intro j hj
  rw [getLsbD_ofNat, hshift, Nat.testBit_mod_two_pow, Nat.testBit_shiftLeft,
    Nat.testBit_two_pow_sub_one, getLsbD_shiftLeft, getLsbD_allOnes]
  by_cases hjb : bits ≤ j
  · simp [hj, hjb, show j < 64 by omega, show j - bits < 64 by omega,
      show j - bits < flen by omega]
  · simp [hjb, show j < bits by omega]

/-- **A narrow read under sound masks** returns the low bits of a NaN-boxed
register and the canonical quiet NaN of any other, whether the box is tested
at run time or known. -/
theorem getVMIRegFSInt_eq {flen : ℕ} {s : FpBlock flen} (hs : NaNBoxSound s) (r : Fin 32)
    {bits : ℕ} (hbits : bits ∈ [16, 32, 64]) (hlt : bits < flen) (hflen : flen ≤ 64) :
    getVMIRegFSInt s.blockState s.f r bits =
      if (s.f r).UpperOnes bits then (s.f r).setWidth bits else canonicalQNaN bits := by
  have hnarrow : bits ∈ [16, 32] := by
    simp only [List.mem_cons, List.not_mem_nil, or_false] at hbits ⊢
    omega
  unfold getVMIRegFSInt
  dsimp only
  cases hreq : requireNaNBox s.blockState r flen bits
  · -- known boxed: the read takes the low bits untested
    rw [if_neg Bool.false_ne_true,
      if_pos (upperOnes_of_requireNaNBox_eq_false hs r hbits hflen hreq)]
  · -- tested at run time by the unsigned comparison with `-1 << bits`
    have htest := allOnes_shiftLeft_le_iff (s.f r) hlt.le
    rw [if_pos rfl, ofNat_upper_eq (show bits < 64 by omega) hflen, ofNat_QNaN_eq hnarrow]
    by_cases hup : (s.f r).UpperOnes bits
    · rw [if_pos (decide_eq_true (htest.mpr hup)), if_pos hup]
    · rw [if_neg (fun h => hup (htest.mp (of_decide_eq_true h))), if_neg hup]

/-- At the start of a block a single-precision read of an unboxed register
is tested and reads the canonical quiet NaN. -/
example : getVMIRegFSInt riscvStartBlock (fun _ => 0x12345678#64) 3 32 = 0x7fc00000#32 := by
  decide

/-- A half-precision value written to a 64-bit register reads back. -/
example :
    let s := fpStep (⟨riscvStartBlock, fun _ => 0#64⟩ : FpBlock 64) (.write 1 16 0x3c00#16)
    getVMIRegFSInt s.blockState s.f 1 16 = 0x3c00#16 := by
  decide +kernel

/-! ### Along every block -/

/-- **NaN-boxing within a translated block**: for `FLEN` of 32 or 64 bits,
any register file at the block's entry and any sequence of translated reads
and writes, at every point (i) a register in view `i` has its bits from
`16 << i` up all ones, (ii) a read narrower than `FLEN` returns the low bits
of a NaN-boxed register and the canonical quiet NaN of any other, and
(iii) a write leaves the bits above its value all ones. -/
theorem nan_boxing_discipline (flen : ℕ) (hflen : flen = 32 ∨ flen = 64)
    (f₀ : Fin 32 → BitVec flen) (ops : List FpAccess)
    (hops : ∀ a ∈ ops, a.validWidth flen = true) :
    let s := run fpStep (⟨riscvStartBlock, f₀⟩ : FpBlock flen) ops
    (∀ (i : Fin 2) (r : Fin 32), (s.blockState.fpNaNBoxMask i).getLsbD r = true →
        (s.f r).UpperOnes (16 <<< i.val)) ∧
    (∀ (r : Fin 32) (bits : ℕ), bits ∈ [16, 32, 64] → bits < flen →
        getVMIRegFSInt s.blockState s.f r bits =
          if (s.f r).UpperOnes bits then (s.f r).setWidth bits else canonicalQNaN bits) ∧
    (∀ (r : Fin 32) (srcBits : ℕ) (result : BitVec srcBits), srcBits ∈ [16, 32, 64] →
        srcBits ≤ flen → ((fpStep s (.write r srcBits result)).f r).UpperOnes srcBits) := by
  intro s
  have hle : flen ≤ 64 := by omega
  have hs : NaNBoxSound s := run_sound hle f₀ ops hops
  exact ⟨hs, fun r bits hbits hlt => getVMIRegFSInt_eq hs r hbits hlt hle,
    fun r srcBits result hsrc _ => fpWrite_upperOnes hs r result hsrc hle⟩

/-- A half-precision value written to `f1` of a 64-bit register file reads
back as the theorem says. -/
theorem nan_boxing_discipline_half :
    let s := run fpStep (⟨riscvStartBlock, fun _ => 0#64⟩ : FpBlock 64)
      [FpAccess.write 1 16 0x3c00#16]
    getVMIRegFSInt s.blockState s.f 1 16 =
      if (s.f 1).UpperOnes 16 then (s.f 1).setWidth 16 else canonicalQNaN 16 :=
  (nan_boxing_discipline 64 (Or.inr rfl) (fun _ => 0#64) [FpAccess.write 1 16 0x3c00#16]
    (by decide)).2.1 1 16 (by decide) (by decide)

end RiscvOvpsim
