import Mathlib.Tactic
import RiscvOvpsim.Lib.StepSystem

/-!
The architectural effect of `vsetvl` and `vsetvli` (`riscvMorph.c`:
`riscvGetMaxVL`, `riscvValidVType`, `setVLSEWLMUL`, `setMaxVLSEWLMUL`,
`getSetVLOption`, `emitVSetVLRRR`, `emitVSetVLRRC` and its shortcuts
`emitVSetVLRR0MaxVL`, `emitVSetVLRR0SameVL`; `riscvCSR.c`: `getMaxVL`,
`riscvSetVType`, `riscvSetVL`; `riscvTypes.h`: the `riscvVType` fields).

The translator emits, for `vsetvli`, either a call that writes `vtype` and
`vl` at run time or, when its block state already records the requested SEW
and VLMUL (and, to set the maximum length, a maximal `vl`), only a move of
`vl` to `rd`. The block state is knowledge about the run-time CSRs:
`VecBlockState.Agrees` says the known parts agree with them, which the
polymorphic block key guarantees.

* `setVLSEWLMUL_of_valid`, `setVLSEWLMUL_of_invalid`: the run-time call writes
  the requested `vtype` and clamps `vl` to its VLMAX, or writes `vill` alone;
* `vsetvliRun_spec_of_call`: every `vsetvli` that calls does what the
  specification asks;
* `vsetvliRun_of_moveVL`: a shortcut leaves `vtype` as it was, and
  `vsetvliRun_spec_iff`: under `Agrees` a valid `vsetvli` meets the
  specification exactly when it calls or the CSR already holds the requested
  bits, so a shortcut that changes only the agnostic bits loses them;
* `vsetvlRun_of_invalid`, `vsetvlRun_spec_iff`: `vsetvl` with an unsupported
  `vtype` clamps `vl` against the VLMAX of `vtype = 0`, not to zero;
* `run_vlBounded`: along every run of the two instructions `vl` stays within
  VLMAX, the bound `vsetvliRun_spec_iff` assumes.
-/

namespace RiscvOvpsim

/-! ### `vtype` and its fields -/

/-- `riscvVTypeFmt`: the layout of `vtype`. -/
inductive RiscvVTypeFmt where
  | RV_VTF_0_9
  | RV_VTF_1_0
  deriving DecidableEq, Repr

/-- `riscvVType`: the bits of `vtype` in a layout. -/
structure RiscvVType where
  format : RiscvVTypeFmt
  u32 : BitVec 32
  deriving DecidableEq, Repr

/-- The vector configuration `vsetvl` depends on: the lengths, the `vtype`
layout and the features of the vector version, and the current XLEN. -/
structure VectorConfig where
  VLEN : ℕ
  ELEN : ℕ
  SEW_min : ℕ
  vtypeFormat : RiscvVTypeFmt
  /-- `RVVF_FRACT_LMUL` -/
  fractLMUL : Bool
  /-- `RVVF_AGNOSTIC` -/
  agnostic : Bool
  /-- `RVVF_SETVLZ_MAX` -/
  setVLZMax : Bool
  /-- `RVVF_SETVLZ_PRESERVE` -/
  setVLZPreserve : Bool
  XLEN : ℕ
  deriving DecidableEq, Repr

/-- `composeVType`: the bits in the configured layout. -/
def composeVType (cfg : VectorConfig) (vtypeBits : BitVec 32) : RiscvVType :=
  ⟨cfg.vtypeFormat, vtypeBits⟩

/-- `getVTypeZero`: the field of bits 8 to 31, which must be zero. -/
def getVTypeZero (vtype : RiscvVType) : ℕ :=
  (vtype.u32.extractLsb' 8 24).toNat

/-- `getVTypeSEW`: `8 << vsew`, with `vsew` at bits 2 to 4 in the 0.9 layout
and at bits 3 to 5 in the 1.0 layout. -/
def getVTypeSEW (vtype : RiscvVType) : ℕ :=
  let vsew := match vtype.format with
    | .RV_VTF_0_9 => vtype.u32.extractLsb' 2 3
    | .RV_VTF_1_0 => vtype.u32.extractLsb' 3 3
  8 <<< vsew.toNat

/-- `getVTypeVTA`: bit 6. -/
def getVTypeVTA (vtype : RiscvVType) : Bool :=
  vtype.u32.getLsbD 6

/-- `getVTypeVMA`: bit 7. -/
def getVTypeVMA (vtype : RiscvVType) : Bool :=
  vtype.u32.getLsbD 7

/-- `getVTypeSVLMUL`: the signed `vlmul`: in the 0.9 layout `vlmul | -4` when
`vlmulf` (bit 5) is set, in the 1.0 layout the signed field of bits 0 to 2. -/
def getVTypeSVLMUL (vtype : RiscvVType) : ℤ :=
  match vtype.format with
  | .RV_VTF_0_9 =>
      let vlmul : ℤ := (vtype.u32.extractLsb' 0 2).toNat
      if vtype.u32.getLsbD 5 then vlmul - 4 else vlmul
  | .RV_VTF_1_0 => (vtype.u32.extractLsb' 0 3).toInt

/-- `svlmulToVLMULx8`: eight times LMUL, `0` (`VLMULx8MT_UNKNOWN`) for the
reserved `-4`. -/
def svlmulToVLMULx8 (svlmul : ℤ) : ℕ :=
  if svlmul = -4 then 0 else 1 <<< (svlmul + 3).toNat

/-- `vtypeToVLMULx8`. -/
def vtypeToVLMULx8 (vtype : RiscvVType) : ℕ :=
  svlmulToVLMULx8 (getVTypeSVLMUL vtype)

/-- `riscvGetMaxVL`: VLMAX, `LMUL * VLEN / SEW`. -/
def riscvGetMaxVL (cfg : VectorConfig) (vtype : RiscvVType) : ℕ :=
  let VLEN := cfg.VLEN
  let SEW := getVTypeSEW vtype
  let VLMULx8 := vtypeToVLMULx8 vtype
  (VLMULx8 * VLEN) / (SEW * 8)

/-- `riscvValidVType`: the SEW of a supported `vtype`, `0`
(`SEWMT_UNKNOWN`) otherwise. -/
def riscvValidVType (cfg : VectorConfig) (vtype : RiscvVType) : ℕ :=
  let SEW_min := cfg.SEW_min
  let ELEN := cfg.ELEN
  let VLEN := cfg.VLEN
  let FRLEN := if ELEN < VLEN then ELEN else VLEN
  let SEW := getVTypeSEW vtype
  let VLMULx8 := vtypeToVLMULx8 vtype
  if getVTypeZero vtype ≠ 0 ∨
      (getVTypeSVLMUL vtype < 0 ∧ cfg.fractLMUL = false) ∨
      ((getVTypeVTA vtype || getVTypeVMA vtype) = true ∧ cfg.agnostic = false) ∨
      SEW < SEW_min ∨ SEW > ELEN ∨
      ¬ (VLMULx8 ≥ (SEW * 8) / FRLEN) then 0
  else SEW

/-! ### The run-time call -/

/-- The CSRs `vsetvl` writes: `vtype` at the current XLEN, held
zero-extended, and `vl`. -/
structure VecCsrs where
  vtype : BitVec 64
  vl : ℕ
  deriving DecidableEq, Repr

/-- `getMaxVL`: VLMAX of the `vtype` CSR, read through `composeVType`, which
takes its low 32 bits. -/
def getMaxVL (cfg : VectorConfig) (vtypeCsr : BitVec 64) : ℕ :=
  riscvGetMaxVL cfg (composeVType cfg (vtypeCsr.setWidth 32))

/-- `riscvSetVType`: `WR_CSR(vtype, vtype.u.u32)`, then the `vill` field, the
top bit at the current XLEN. -/
def riscvSetVType (cfg : VectorConfig) (vill : Bool) (vtype : RiscvVType) : BitVec 64 :=
  let v := vtype.u32.setWidth 64
  if vill then v ||| BitVec.twoPow 64 (cfg.XLEN - 1) else v &&& ~~~BitVec.twoPow 64 (cfg.XLEN - 1)

/-- `riscvSetVL`: `vl` clamped to VLMAX of the `vtype` CSR. -/
def riscvSetVL (cfg : VectorConfig) (vtypeCsr : BitVec 64) (vl : ℕ) : ℕ :=
  let maxVL := getMaxVL cfg vtypeCsr
  if vl > maxVL then maxVL else vl

/-- `setVLSEWLMUL`: writes `vtype`, `vill` alone when it is not supported,
then `vl`; returns the CSRs, whose `vl` the call returns to `rd`. -/
def setVLSEWLMUL (cfg : VectorConfig) (vl : ℕ) (vtypeBits : BitVec 32) : VecCsrs :=
  let vtype := composeVType cfg vtypeBits
  let vill := decide (riscvValidVType cfg vtype = 0)
  let vtype := if vill then { vtype with u32 := 0 } else vtype
  let vtypeCsr := riscvSetVType cfg vill vtype
  ⟨vtypeCsr, riscvSetVL cfg vtypeCsr vl⟩

/-- `setMaxVLSEWLMUL`: `setVLSEWLMUL` with VLMAX of the requested `vtype`. -/
def setMaxVLSEWLMUL (cfg : VectorConfig) (vtypeBits : BitVec 32) : VecCsrs :=
  let vtype := composeVType cfg vtypeBits
  let VLMAX := riscvGetMaxVL cfg vtype
  setVLSEWLMUL cfg VLMAX vtypeBits

/-- `setVLOption`: how `vl` is set. -/
inductive SetVLOption where
  | SVT_SET
  | SVT_PRESERVE
  | SVT_MAX
  deriving DecidableEq, Repr

/-- `getSetVLOption`: from `rs1` when it is not `x0`; otherwise the legacy
behaviour of the version, or the maximum when `rd` is not `x0` and the
current length when it is. -/
def getSetVLOption (cfg : VectorConfig) (rs1IsZero rdIsZero : Bool) : SetVLOption :=
  if !rs1IsZero then .SVT_SET
  else if cfg.setVLZMax then .SVT_MAX
  else if cfg.setVLZPreserve then .SVT_PRESERVE
  else if rdIsZero then .SVT_PRESERVE else .SVT_MAX

/-- `handleVSetVLArg1` and the call it selects: `vl` from `rs1`, the maximum,
or the current `vl`. -/
def vsetvlCall (cfg : VectorConfig) (option : SetVLOption) (csrs : VecCsrs) (avl : ℕ)
    (vtypeBits : BitVec 32) : VecCsrs :=
  match option with
  | .SVT_SET => setVLSEWLMUL cfg avl vtypeBits
  | .SVT_MAX => setMaxVLSEWLMUL cfg vtypeBits
  | .SVT_PRESERVE => setVLSEWLMUL cfg csrs.vl vtypeBits

/-! ### Translation -/

/-- `riscvVLClassMt`: what is known of `vl`. -/
inductive VLClassMt where
  | VLCLASSMT_UNKNOWN
  | VLCLASSMT_ZERO
  | VLCLASSMT_NONZERO
  | VLCLASSMT_MAX
  deriving DecidableEq, Repr

/-- The vector part of `riscvBlockState`: the SEW, VLMUL and `vl` class known
at translation time, `0` and `VLCLASSMT_UNKNOWN` when unknown. -/
structure VecBlockState where
  SEWMt : ℕ
  VLMULx8Mt : ℕ
  VLClassMt : VLClassMt
  deriving DecidableEq, Repr

/-- The code a `vsetvli` is translated to. -/
inductive VSetVLCode where
  /-- `emitVSetVLRRCCB`: the call of `handleVSetVLArg1` -/
  | callSetVL (option : SetVLOption) (vtypeBits : BitVec 32)
  /-- `emitVSetVLRRCBadSEWLMUL`: `setVLSEWLMUL(0, vtype)` -/
  | callBadSEWLMUL (vtypeBits : BitVec 32)
  /-- a shortcut: `rd` takes `vl` -/
  | moveVL
  deriving DecidableEq, Repr

/-- `emitVSetVLRR0MaxVL`: the move when the maximum `vl` of the requested SEW
and VLMUL is known, the call otherwise, after which they are known. -/
def emitVSetVLRR0MaxVL (cfg : VectorConfig) (blockState : VecBlockState)
    (vtypeBits : BitVec 32) : VSetVLCode × VecBlockState :=
  let vtype := composeVType cfg vtypeBits
  let SEW := riscvValidVType cfg vtype
  let VLMULx8 := vtypeToVLMULx8 vtype
  if blockState.SEWMt = SEW ∧ blockState.VLMULx8Mt = VLMULx8 ∧
      blockState.VLClassMt = .VLCLASSMT_MAX then (.moveVL, blockState)
  else (.callSetVL (.SVT_MAX) vtypeBits, ⟨SEW, VLMULx8, .VLCLASSMT_MAX⟩)

/-- `emitVSetVLRR0SameVL`: the move when the requested SEW and VLMUL are
known, the call otherwise. -/
def emitVSetVLRR0SameVL (cfg : VectorConfig) (blockState : VecBlockState)
    (vtypeBits : BitVec 32) : VSetVLCode × VecBlockState :=
  let vtype := composeVType cfg vtypeBits
  let SEW := riscvValidVType cfg vtype
  let VLMULx8 := vtypeToVLMULx8 vtype
  if blockState.SEWMt = SEW ∧ blockState.VLMULx8Mt = VLMULx8 then (.moveVL, blockState)
  else (.callSetVL (.SVT_PRESERVE) vtypeBits, blockState)

/-- `emitVSetVLRRC`: `vsetvli rd, rs1, vtypei`. -/
def emitVSetVLRRC (cfg : VectorConfig) (blockState : VecBlockState) (vtypeBits : BitVec 32)
    (rs1IsZero rdIsZero : Bool) : VSetVLCode × VecBlockState :=
  let vtype := composeVType cfg vtypeBits
  let SEW := riscvValidVType cfg vtype
  let option := getSetVLOption cfg rs1IsZero rdIsZero
  if SEW = 0 then (.callBadSEWLMUL vtypeBits, blockState)
  else if option = .SVT_SET then (.callSetVL option vtypeBits, blockState)
  else if option = .SVT_MAX then emitVSetVLRR0MaxVL cfg blockState vtypeBits
  else emitVSetVLRR0SameVL cfg blockState vtypeBits

/-- The run of translated code on the CSRs, with `rs1` holding `avl`: the
CSRs after it and the value written to `rd`. -/
def runVSetVLCode (cfg : VectorConfig) (csrs : VecCsrs) (avl : ℕ) :
    VSetVLCode → VecCsrs × ℕ
  | .callSetVL option vtypeBits =>
      let csrs' := vsetvlCall cfg option csrs avl vtypeBits
      (csrs', csrs'.vl)
  | .callBadSEWLMUL vtypeBits =>
      let csrs' := setVLSEWLMUL cfg 0 vtypeBits
      (csrs', csrs'.vl)
  | .moveVL => (csrs, csrs.vl)

/-- `vsetvli rd, rs1, vtypei` translated in `blockState` and run. -/
def vsetvliRun (cfg : VectorConfig) (blockState : VecBlockState) (csrs : VecCsrs)
    (vtypeBits : BitVec 32) (rs1IsZero rdIsZero : Bool) (avl : ℕ) : VecCsrs × ℕ :=
  runVSetVLCode cfg csrs avl (emitVSetVLRRC cfg blockState vtypeBits rs1IsZero rdIsZero).1

/-- `vsetvl rd, rs1, rs2` (`emitVSetVLRRR`): always the call, with the low 32
bits of `rs2`. -/
def vsetvlRun (cfg : VectorConfig) (csrs : VecCsrs) (rs1IsZero rdIsZero : Bool) (avl : ℕ)
    (rs2 : BitVec 64) : VecCsrs × ℕ :=
  runVSetVLCode cfg csrs avl (.callSetVL (getSetVLOption cfg rs1IsZero rdIsZero) (rs2.setWidth 32))

/-! ### What the instructions must leave -/

/-- What `vsetvl` and `vsetvli` must leave: `vill` alone and `vl = 0` for an
unsupported `vtype`, otherwise the requested bits and `vl` by the option,
VLMAX being that of the requested `vtype`; `rd` receives `vl`. -/
def SetVLSpec (cfg : VectorConfig) (option : SetVLOption) (csrs : VecCsrs) (avl : ℕ)
    (vtypeBits : BitVec 32) (res : VecCsrs × ℕ) : Prop :=
  let vtype := composeVType cfg vtypeBits
  let VLMAX := riscvGetMaxVL cfg vtype
  res.2 = res.1.vl ∧
    if riscvValidVType cfg vtype = 0 then
      res.1.vtype = BitVec.twoPow 64 (cfg.XLEN - 1) ∧ res.1.vl = 0
    else
      res.1.vtype = vtypeBits.setWidth 64 ∧
        res.1.vl = match option with
          | .SVT_SET => min avl VLMAX
          | .SVT_MAX => VLMAX
          | .SVT_PRESERVE => min csrs.vl VLMAX

instance (cfg : VectorConfig) (option : SetVLOption) (csrs : VecCsrs) (avl : ℕ)
    (vtypeBits : BitVec 32) (res : VecCsrs × ℕ) :
    Decidable (SetVLSpec cfg option csrs avl vtypeBits res) := by
  unfold SetVLSpec
  infer_instance

/-- The translation-time knowledge agrees with the run-time CSRs: a known SEW
or VLMUL is that of `vtype`, and a known class is that of `vl`. The
polymorphic block key makes every translated block run only where this
holds. -/
def VecBlockState.Agrees (blockState : VecBlockState) (cfg : VectorConfig) (csrs : VecCsrs) :
    Prop :=
  let vtype := composeVType cfg (csrs.vtype.setWidth 32)
  (blockState.SEWMt ≠ 0 → blockState.SEWMt = getVTypeSEW vtype) ∧
    (blockState.VLMULx8Mt ≠ 0 → blockState.VLMULx8Mt = vtypeToVLMULx8 vtype) ∧
    (blockState.VLClassMt = .VLCLASSMT_MAX → csrs.vl = getMaxVL cfg csrs.vtype) ∧
    (blockState.VLClassMt = .VLCLASSMT_ZERO → csrs.vl = 0) ∧
    (blockState.VLClassMt = .VLCLASSMT_NONZERO → csrs.vl ≠ 0)

instance (blockState : VecBlockState) (cfg : VectorConfig) (csrs : VecCsrs) :
    Decidable (blockState.Agrees cfg csrs) := by
  unfold VecBlockState.Agrees
  infer_instance

/-! ### The run-time call -/

section Call

variable (cfg : VectorConfig) (hX : cfg.XLEN = 32 ∨ cfg.XLEN = 64)
include hX

/-- A supported `vtype` has no bit from 8 up, so the `vill` bit of the CSR
is clear and the bits are stored as they are. -/
lemma riscvSetVType_of_valid {vtypeBits : BitVec 32}
    (hv : riscvValidVType cfg (composeVType cfg vtypeBits) ≠ 0) :
    riscvSetVType cfg false (composeVType cfg vtypeBits) = vtypeBits.setWidth 64 := by
  have hzero : getVTypeZero (composeVType cfg vtypeBits) = 0 := by
    by_contra hne
    exact hv (by simp [riscvValidVType, hne])
  -- the field of bits 8 to 31 is zero, so bit `XLEN - 1` of the zero-extension is
  have hbit : (vtypeBits.setWidth 64).getLsbD (cfg.XLEN - 1) = false := by
    have hext : vtypeBits.extractLsb' 8 24 = 0#24 :=
      BitVec.eq_of_toNat_eq (by simpa [getVTypeZero, composeVType] using hzero)
    have h31 : vtypeBits.getLsbD 31 = false := by
      have h23 := congrArg (BitVec.getLsbD · 23) hext
      simpa [BitVec.getLsbD_extractLsb'] using h23
    rw [BitVec.getLsbD_setWidth]
    rcases hX with h | h <;> rw [h]
    · rw [show 32 - 1 = 31 from rfl, h31, Bool.and_false]
    · rw [BitVec.getLsbD_of_ge vtypeBits (64 - 1) (by norm_num), Bool.and_false]
  apply BitVec.eq_of_getLsbD_eq
  intro i hi
  simp only [riscvSetVType, composeVType, Bool.false_eq_true, if_false, BitVec.getLsbD_and,
    BitVec.getLsbD_not, BitVec.getLsbD_twoPow]
  by_cases hiX : cfg.XLEN - 1 = i
  · subst hiX
    rw [hbit, Bool.false_and]
  · simp [hi, hiX]

/-- After an unsupported `vtype` the CSR read back through `composeVType` has
`vtype = 0`: the `vill` bit is cut away or lies above the fields. -/
lemma getMaxVL_vill :
    getMaxVL cfg (BitVec.twoPow 64 (cfg.XLEN - 1)) = cfg.VLEN / 8 := by
  have hfields : getVTypeSEW (composeVType cfg ((BitVec.twoPow 64 (cfg.XLEN - 1)).setWidth 32)) = 8 ∧
      vtypeToVLMULx8 (composeVType cfg ((BitVec.twoPow 64 (cfg.XLEN - 1)).setWidth 32)) = 8 := by
    unfold composeVType
    rcases hX with h | h <;> rw [h] <;> cases cfg.vtypeFormat <;> decide
  rw [getMaxVL, riscvGetMaxVL]
  rw [hfields.1, hfields.2, show 8 * 8 = 8 * 8 from rfl, Nat.mul_div_mul_left _ _ (by norm_num)]

/-- **The call with a supported `vtype`** stores its bits and clamps `vl` to
its VLMAX. -/
lemma setVLSEWLMUL_of_valid (vl : ℕ) {vtypeBits : BitVec 32}
    (hv : riscvValidVType cfg (composeVType cfg vtypeBits) ≠ 0) :
    setVLSEWLMUL cfg vl vtypeBits =
      ⟨vtypeBits.setWidth 64, min vl (riscvGetMaxVL cfg (composeVType cfg vtypeBits))⟩ := by
  have hcsr := riscvSetVType_of_valid cfg hX hv
  have hmax : getMaxVL cfg (vtypeBits.setWidth 64) = riscvGetMaxVL cfg (composeVType cfg vtypeBits) := by
    rw [getMaxVL, BitVec.setWidth_setWidth_of_le _ (by norm_num), BitVec.setWidth_eq]
  simp only [setVLSEWLMUL, hv, decide_false, Bool.false_eq_true, if_false, hcsr, riscvSetVL, hmax]
  congr 1
  split_ifs with h <;> omega

/-- **The call with an unsupported `vtype`** stores `vill` alone and clamps
`vl` to the VLMAX of `vtype = 0`. -/
lemma setVLSEWLMUL_of_invalid (vl : ℕ) {vtypeBits : BitVec 32}
    (hv : riscvValidVType cfg (composeVType cfg vtypeBits) = 0) :
    setVLSEWLMUL cfg vl vtypeBits = ⟨BitVec.twoPow 64 (cfg.XLEN - 1), min vl (cfg.VLEN / 8)⟩ := by
  have hcsr : riscvSetVType cfg true { composeVType cfg vtypeBits with u32 := 0 } =
      BitVec.twoPow 64 (cfg.XLEN - 1) := by
    simp [riscvSetVType]
  simp only [setVLSEWLMUL, hv, decide_true, if_true, hcsr, riscvSetVL, getMaxVL_vill cfg hX]
  congr 1
  split_ifs with h <;> omega

end Call

/-- `vl` never exceeds VLMAX of the `vtype` CSR after the call: `riscvSetVL`
clamps it. -/
lemma setVLSEWLMUL_vl_le (cfg : VectorConfig) (vl : ℕ) (vtypeBits : BitVec 32) :
    (setVLSEWLMUL cfg vl vtypeBits).vl ≤ getMaxVL cfg (setVLSEWLMUL cfg vl vtypeBits).vtype := by
  simp only [setVLSEWLMUL, riscvSetVL]
  split_ifs <;> omega

/-! ### The translated instruction -/

section Translation

variable (cfg : VectorConfig)

/-- A call with a supported `vtype` does what the specification asks, for
the option it was emitted with. -/
lemma callSetVL_spec (hX : cfg.XLEN = 32 ∨ cfg.XLEN = 64) (option : SetVLOption)
    (csrs : VecCsrs) (avl : ℕ) {vtypeBits : BitVec 32}
    (hv : riscvValidVType cfg (composeVType cfg vtypeBits) ≠ 0) :
    SetVLSpec cfg option csrs avl vtypeBits
      (runVSetVLCode cfg csrs avl (.callSetVL option vtypeBits)) := by
  refine ⟨rfl, ?_⟩
  rw [if_neg hv]
  cases option <;>
    simp only [runVSetVLCode, vsetvlCall, setMaxVLSEWLMUL, setVLSEWLMUL_of_valid cfg hX _ hv,
      min_self, and_self]

/-- The call of `emitVSetVLRRCBadSEWLMUL` leaves `vill` alone and `vl = 0`. -/
lemma callBadSEWLMUL_spec (hX : cfg.XLEN = 32 ∨ cfg.XLEN = 64) (option : SetVLOption)
    (csrs : VecCsrs) (avl : ℕ) {vtypeBits : BitVec 32}
    (hv : riscvValidVType cfg (composeVType cfg vtypeBits) = 0) :
    SetVLSpec cfg option csrs avl vtypeBits
      (runVSetVLCode cfg csrs avl (.callBadSEWLMUL vtypeBits)) := by
  refine ⟨rfl, ?_⟩
  rw [if_pos hv]
  simp only [runVSetVLCode, setVLSEWLMUL_of_invalid cfg hX _ hv, Nat.zero_min, and_self]

/-- **What `emitVSetVLRRC` emits**: the `BadSEWLMUL` call for an unsupported
`vtype`, and otherwise the call with the instruction's option or a move. -/
lemma emitVSetVLRRC_code (blockState : VecBlockState) (vtypeBits : BitVec 32)
    (rs1IsZero rdIsZero : Bool) :
    let code := (emitVSetVLRRC cfg blockState vtypeBits rs1IsZero rdIsZero).1
    (riscvValidVType cfg (composeVType cfg vtypeBits) = 0 → code = .callBadSEWLMUL vtypeBits) ∧
      (riscvValidVType cfg (composeVType cfg vtypeBits) ≠ 0 →
        code = .callSetVL (getSetVLOption cfg rs1IsZero rdIsZero) vtypeBits ∨
          code = .moveVL) := by
  refine ⟨fun hv => by simp [emitVSetVLRRC, hv], fun hv => ?_⟩
  simp only [emitVSetVLRRC, hv, if_false]
  -- the option picks the call or one of the two shortcuts
  split_ifs with hset hmax
  · exact Or.inl (by rw [hset])
  · unfold emitVSetVLRR0MaxVL
    dsimp only
    split_ifs
    · exact Or.inr rfl
    · exact Or.inl (by rw [hmax])
  · unfold emitVSetVLRR0SameVL
    dsimp only
    split_ifs
    · exact Or.inr rfl
    · left
      cases hopt : getSetVLOption cfg rs1IsZero rdIsZero
      · exact absurd hopt hset
      · rfl
      · exact absurd hopt hmax

/-- **A `vsetvli` that calls does what the specification asks.** -/
theorem vsetvliRun_spec_of_call (hX : cfg.XLEN = 32 ∨ cfg.XLEN = 64)
    (blockState : VecBlockState) (csrs : VecCsrs) (vtypeBits : BitVec 32)
    (rs1IsZero rdIsZero : Bool) (avl : ℕ)
    (hcall : (emitVSetVLRRC cfg blockState vtypeBits rs1IsZero rdIsZero).1 ≠ .moveVL) :
    SetVLSpec cfg (getSetVLOption cfg rs1IsZero rdIsZero) csrs avl vtypeBits
      (vsetvliRun cfg blockState csrs vtypeBits rs1IsZero rdIsZero avl) := by
  obtain ⟨hbad, hgood⟩ := emitVSetVLRRC_code cfg blockState vtypeBits rs1IsZero rdIsZero
  unfold vsetvliRun
  by_cases hv : riscvValidVType cfg (composeVType cfg vtypeBits) = 0
  · rw [hbad hv]
    exact callBadSEWLMUL_spec cfg hX _ csrs avl hv
  · rcases hgood hv with hcode | hcode
    · rw [hcode]
      exact callSetVL_spec cfg hX _ csrs avl hv
    · exact absurd hcode hcall

/-- A shortcut leaves the CSRs as they were and gives `rd` the current `vl`. -/
lemma vsetvliRun_of_moveVL (blockState : VecBlockState) (csrs : VecCsrs)
    (vtypeBits : BitVec 32) (rs1IsZero rdIsZero : Bool) (avl : ℕ)
    (hmove : (emitVSetVLRRC cfg blockState vtypeBits rs1IsZero rdIsZero).1 = .moveVL) :
    vsetvliRun cfg blockState csrs vtypeBits rs1IsZero rdIsZero avl = (csrs, csrs.vl) := by
  rw [vsetvliRun, hmove, runVSetVLCode]

/-- **When the shortcuts are taken**: for a supported `vtype` and `rs1 = x0`,
when the block state records its SEW and VLMUL, and, to set the maximum, a
maximal `vl`. -/
lemma emitVSetVLRRC_eq_moveVL_iff (blockState : VecBlockState) (vtypeBits : BitVec 32)
    (rs1IsZero rdIsZero : Bool) :
    (emitVSetVLRRC cfg blockState vtypeBits rs1IsZero rdIsZero).1 = .moveVL ↔
      riscvValidVType cfg (composeVType cfg vtypeBits) ≠ 0 ∧
        getSetVLOption cfg rs1IsZero rdIsZero ≠ .SVT_SET ∧
        blockState.SEWMt = riscvValidVType cfg (composeVType cfg vtypeBits) ∧
        blockState.VLMULx8Mt = vtypeToVLMULx8 (composeVType cfg vtypeBits) ∧
        (getSetVLOption cfg rs1IsZero rdIsZero = .SVT_MAX →
          blockState.VLClassMt = .VLCLASSMT_MAX) := by
  unfold emitVSetVLRRC emitVSetVLRR0MaxVL emitVSetVLRR0SameVL
  dsimp only
  by_cases hv : riscvValidVType cfg (composeVType cfg vtypeBits) = 0
  · simp [hv]
  · -- the shortcut's own test decides between the move and the call
    cases hopt : getSetVLOption cfg rs1IsZero rdIsZero <;> simp only [hv, if_false] <;>
      split_ifs <;> simp_all

/-- A supported `vtype`'s SEW is the one its field encodes. -/
lemma riscvValidVType_eq_of_ne_zero {vtype : RiscvVType} (hv : riscvValidVType cfg vtype ≠ 0) :
    riscvValidVType cfg vtype = getVTypeSEW vtype := by
  unfold riscvValidVType at hv ⊢
  dsimp only at hv ⊢
  split_ifs at hv ⊢ <;> first | exact absurd rfl hv | rfl

/-- Where the block state agrees with the CSRs and records the requested SEW
and VLMUL, VLMAX of the `vtype` CSR is that of the requested `vtype`. -/
lemma getMaxVL_of_agrees {blockState : VecBlockState} {csrs : VecCsrs} {vtypeBits : BitVec 32}
    (hagree : blockState.Agrees cfg csrs)
    (hv : riscvValidVType cfg (composeVType cfg vtypeBits) ≠ 0)
    (hlmul : vtypeToVLMULx8 (composeVType cfg vtypeBits) ≠ 0)
    (hsew : blockState.SEWMt = riscvValidVType cfg (composeVType cfg vtypeBits))
    (hvlmul : blockState.VLMULx8Mt = vtypeToVLMULx8 (composeVType cfg vtypeBits)) :
    getMaxVL cfg csrs.vtype = riscvGetMaxVL cfg (composeVType cfg vtypeBits) := by
  obtain ⟨hagreeSEW, hagreeLMUL, -⟩ := hagree
  have hSEW := (hagreeSEW (hsew ▸ hv)).symm.trans hsew
  have hLMUL := (hagreeLMUL (hvlmul ▸ hlmul)).symm.trans hvlmul
  rw [riscvValidVType_eq_of_ne_zero cfg hv] at hSEW
  simp only [getMaxVL, riscvGetMaxVL, hSEW, hLMUL]

/-- **The shortcuts are right exactly when the CSR already holds the requested
bits.** Where the block state agrees with the CSRs and `vl` is within VLMAX,
a `vsetvli` with a supported `vtype` of known VLMUL meets the specification
exactly when it calls, or the `vtype` CSR already holds the requested bits:
the shortcut compares only SEW and VLMUL, and never writes `vta` or `vma`. -/
theorem vsetvliRun_spec_iff (hX : cfg.XLEN = 32 ∨ cfg.XLEN = 64)
    {blockState : VecBlockState} {csrs : VecCsrs} {vtypeBits : BitVec 32}
    (rs1IsZero rdIsZero : Bool) (avl : ℕ)
    (hagree : blockState.Agrees cfg csrs) (hvl : csrs.vl ≤ getMaxVL cfg csrs.vtype)
    (hv : riscvValidVType cfg (composeVType cfg vtypeBits) ≠ 0)
    (hlmul : vtypeToVLMULx8 (composeVType cfg vtypeBits) ≠ 0) :
    SetVLSpec cfg (getSetVLOption cfg rs1IsZero rdIsZero) csrs avl vtypeBits
        (vsetvliRun cfg blockState csrs vtypeBits rs1IsZero rdIsZero avl) ↔
      ((emitVSetVLRRC cfg blockState vtypeBits rs1IsZero rdIsZero).1 = .moveVL →
        csrs.vtype = vtypeBits.setWidth 64) := by
  by_cases hmove : (emitVSetVLRRC cfg blockState vtypeBits rs1IsZero rdIsZero).1 = .moveVL
  · obtain ⟨-, hset, hsew, hvlmul, hmax⟩ :=
      (emitVSetVLRRC_eq_moveVL_iff cfg blockState vtypeBits rs1IsZero rdIsZero).mp hmove
    have hVLMAX := getMaxVL_of_agrees cfg hagree hv hlmul hsew hvlmul
    -- the move keeps the CSRs, whose `vl` is the one the option asks for
    have hvlOk : csrs.vl = match getSetVLOption cfg rs1IsZero rdIsZero with
        | .SVT_SET => min avl (riscvGetMaxVL cfg (composeVType cfg vtypeBits))
        | .SVT_MAX => riscvGetMaxVL cfg (composeVType cfg vtypeBits)
        | .SVT_PRESERVE => min csrs.vl (riscvGetMaxVL cfg (composeVType cfg vtypeBits)) := by
      cases hopt : getSetVLOption cfg rs1IsZero rdIsZero
      · exact absurd hopt hset
      · rw [hVLMAX] at hvl
        exact (min_eq_left hvl).symm
      · rw [← hVLMAX]
        exact hagree.2.2.1 (hmax hopt)
    rw [vsetvliRun_of_moveVL cfg blockState csrs vtypeBits rs1IsZero rdIsZero avl hmove]
    simp only [SetVLSpec, if_neg hv]
    exact ⟨fun h _ => h.2.1, fun h => ⟨trivial, h hmove, hvlOk⟩⟩
  · exact iff_of_true (vsetvliRun_spec_of_call cfg hX blockState csrs vtypeBits rs1IsZero
      rdIsZero avl hmove) (fun h => absurd h hmove)

/-- **`vsetvl` with an unsupported `vtype`** stores `vill` alone, but clamps
the `vl` of its option to VLMAX of `vtype = 0`, `VLEN / 8`, instead of
clearing it: unlike `vsetvli`, the register form reaches `setVLSEWLMUL` with
the length it was given. -/
lemma vsetvlRun_of_invalid (hX : cfg.XLEN = 32 ∨ cfg.XLEN = 64) (csrs : VecCsrs)
    (rs1IsZero rdIsZero : Bool) (avl : ℕ) {rs2 : BitVec 64}
    (hv : riscvValidVType cfg (composeVType cfg (rs2.setWidth 32)) = 0) :
    let vl := min (match getSetVLOption cfg rs1IsZero rdIsZero with
      | .SVT_SET => avl
      | .SVT_MAX => riscvGetMaxVL cfg (composeVType cfg (rs2.setWidth 32))
      | .SVT_PRESERVE => csrs.vl) (cfg.VLEN / 8)
    vsetvlRun cfg csrs rs1IsZero rdIsZero avl rs2 = (⟨BitVec.twoPow 64 (cfg.XLEN - 1), vl⟩, vl) := by
  unfold vsetvlRun runVSetVLCode
  cases getSetVLOption cfg rs1IsZero rdIsZero <;>
    simp only [vsetvlCall, setMaxVLSEWLMUL, setVLSEWLMUL_of_invalid cfg hX _ hv]

/-- **`vsetvl` meets the specification unless it leaves a length after an
unsupported `vtype`.** -/
theorem vsetvlRun_spec_iff (hX : cfg.XLEN = 32 ∨ cfg.XLEN = 64) (csrs : VecCsrs)
    (rs1IsZero rdIsZero : Bool) (avl : ℕ) (rs2 : BitVec 64) :
    SetVLSpec cfg (getSetVLOption cfg rs1IsZero rdIsZero) csrs avl (rs2.setWidth 32)
        (vsetvlRun cfg csrs rs1IsZero rdIsZero avl rs2) ↔
      (riscvValidVType cfg (composeVType cfg (rs2.setWidth 32)) = 0 →
        (vsetvlRun cfg csrs rs1IsZero rdIsZero avl rs2).1.vl = 0) := by
  by_cases hv : riscvValidVType cfg (composeVType cfg (rs2.setWidth 32)) = 0
  · rw [vsetvlRun_of_invalid cfg hX csrs rs1IsZero rdIsZero avl hv]
    simp only [SetVLSpec, if_pos hv]
    exact ⟨fun h _ => h.2.2, fun h => ⟨trivial, trivial, h hv⟩⟩
  · exact iff_of_true (callSetVL_spec cfg hX _ csrs avl hv) (fun h => absurd h hv)

/-! ### Runs of `vsetvl` and `vsetvli` -/

/-- The two instructions, with what their translation and run read: the
block state a `vsetvli` is translated in, its immediate, whether `rs1` and
`rd` are `x0`, the value of `rs1`, and for `vsetvl` the value of `rs2`. -/
inductive VSetVLInstr where
  | vsetvli (blockState : VecBlockState) (vtypeBits : BitVec 32) (rs1IsZero rdIsZero : Bool)
      (avl : ℕ)
  | vsetvl (rs1IsZero rdIsZero : Bool) (avl : ℕ) (rs2 : BitVec 64)
  deriving DecidableEq, Repr

/-- One instruction on the CSRs. -/
def vsetStep (csrs : VecCsrs) : VSetVLInstr → VecCsrs
  | .vsetvli blockState vtypeBits rs1IsZero rdIsZero avl =>
      (vsetvliRun cfg blockState csrs vtypeBits rs1IsZero rdIsZero avl).1
  | .vsetvl rs1IsZero rdIsZero avl rs2 => (vsetvlRun cfg csrs rs1IsZero rdIsZero avl rs2).1

/-- `vl` is within VLMAX of the `vtype` CSR. -/
def VLBounded (csrs : VecCsrs) : Prop :=
  csrs.vl ≤ getMaxVL cfg csrs.vtype

/-- Every translated code keeps `vl` within VLMAX: the calls clamp it, the
move writes nothing. -/
lemma runVSetVLCode_vlBounded {csrs : VecCsrs} (h : VLBounded cfg csrs) (avl : ℕ)
    (code : VSetVLCode) : VLBounded cfg (runVSetVLCode cfg csrs avl code).1 := by
  cases code with
  | callSetVL option vtypeBits =>
      cases option <;> exact setVLSEWLMUL_vl_le cfg _ vtypeBits
  | callBadSEWLMUL vtypeBits => exact setVLSEWLMUL_vl_le cfg 0 vtypeBits
  | moveVL => exact h

lemma vsetStep_vlBounded {csrs : VecCsrs} (h : VLBounded cfg csrs) (instr : VSetVLInstr) :
    VLBounded cfg (vsetStep cfg csrs instr) := by
  cases instr <;> exact runVSetVLCode_vlBounded cfg h _ _

/-- **`vl` stays within VLMAX along every run** of the two instructions from
CSRs where it is, such as the reset state with `vl = 0`; this is the bound
`vsetvliRun_spec_iff` assumes. -/
theorem run_vlBounded {csrs₀ : VecCsrs} (h₀ : VLBounded cfg csrs₀) (instrs : List VSetVLInstr) :
    VLBounded cfg (StepSystem.run (vsetStep cfg) csrs₀ instrs) :=
  @StepSystem.run_invariant _ _ (vsetStep cfg) (fun _ => True) (VLBounded cfg)
    (fun _ instr _ hs => vsetStep_vlBounded cfg hs instr) _ _ h₀ (fun _ _ => trivial)

end Translation

/-- **A `vsetvli` shortcut loses the agnostic bits, and `vsetvl` leaves a
length after an unsupported `vtype`.** With VLEN 128, ELEN 64 and agnostic
support on RV64, the CSRs hold `e32, m1, tu, mu` with the maximal `vl = 4`,
and the block was translated knowing it. Then `vsetvli x0, x0, e32, m1, ta,
ma` takes the shortcut of `emitVSetVLRR0SameVL`, which compares only SEW and
VLMUL, and the `vtype` CSR keeps `0x10` where the instruction asks for
`0xd0`. And `vsetvl` with `rs1 = 5` and `rs2 = 0x38` (SEW 1024) stores `vill`
but leaves `vl = 5`. -/
theorem vsetvli_agnostic_bits_lost :
    let cfg : VectorConfig := ⟨128, 64, 8, .RV_VTF_1_0, true, true, false, false, 64⟩
    let blockState : VecBlockState := ⟨32, 8, .VLCLASSMT_MAX⟩
    let csrs : VecCsrs := ⟨0x10#64, 4⟩
    blockState.Agrees cfg csrs ∧
      vsetvliRun cfg blockState csrs 0xD0#32 true true 0 = (csrs, 4) ∧
      ¬ SetVLSpec cfg (getSetVLOption cfg true true) csrs 0 0xD0#32
          (vsetvliRun cfg blockState csrs 0xD0#32 true true 0) ∧
      vsetvlRun cfg csrs false false 5 0x38#64 = (⟨BitVec.twoPow 64 63, 5⟩, 5) ∧
      ¬ SetVLSpec cfg (getSetVLOption cfg false false) csrs 5 ((0x38#64).setWidth 32)
          (vsetvlRun cfg csrs false false 5 0x38#64) := by
  decide

end RiscvOvpsim
