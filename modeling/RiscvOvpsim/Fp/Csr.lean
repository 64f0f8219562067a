import Mathlib.Tactic
import RiscvOvpsim.Lib.BitField
import RiscvOvpsim.Lib.StepSystem

/-!
The floating point and fixed point CSRs of `riscvCSR.c`: `fflags`, `frm`,
`fcsr`, `vxsat`, `vxrm` and `vcsr`, six views of four architectural fields.

The model keeps each field where the source keeps it.  The accrued flags
are split between those a CSR write set (`fpFlagsCSR`) and those the
translated instructions raised since (`fpFlagsMT`), in the layout of the
simulator's floating point unit (`vmiFPFlags`), and a read is the union of
the two; the saturation flag is split the same way (`SFCSR`, `SFMT`).  The
rounding mode lives in the `frm` field of `fcsr`, the fixed point rounding
mode in `vxrm`; the other copies, the `vxrm` field of `vcsr` and, with
Vector Version 0.8, the `vxsat` and `vxrm` fields of `fcsr`, are written on
the way and recomposed by the reads.  A change of rounding mode also sets
the rounding control of the floating point unit, when the mode is one, and
the key that marks a reserved mode (`ISA_RM_INVALID`).

* `FpCsrSpec`: the four architectural fields, with the writes of the six
  CSRs, the flags an instruction raises, and the reads;
* `FpCsrState.view_step`, `run_view`: every operation, and so every run, of
  the model is one of the specification on the fields;
* `FpCsrInv`, `run_fpCsrInv`: the register bits outside the fields stay
  clear, and the rounding control follows `frm` whenever `frm` is a rounding
  mode, while the reserved mode key is set exactly when it is not;
* `fpCsr_reads_refine`: so after any run each of the six CSRs reads what the
  specification reads;
* `fpCsr_rounding`: and the floating point unit rounds as `frm` says.
-/

namespace RiscvOvpsim

/-! ### The registers -/

/-! The bound of each field is a lemma of its own: a proof written inside a
field's definition becomes a lemma shared with every earlier definition whose
bound reads the same, so a field's value would depend on what was built
before it. -/

namespace Fcsr

theorem UF_fits : 1 + 1 ≤ 64 := by norm_num
theorem OF_fits : 2 + 1 ≤ 64 := by norm_num
theorem DZ_fits : 3 + 1 ≤ 64 := by norm_num
theorem NV_fits : 4 + 1 ≤ 64 := by norm_num
theorem frm_fits : 5 + 3 ≤ 64 := by norm_num
theorem vxsat_fits : 8 + 1 ≤ 64 := by norm_num
theorem vxrm_fits : 9 + 2 ≤ 64 := by norm_num
theorem flags_fits : 0 + 5 ≤ 64 := by norm_num

/-- The flag fields of `fflags` and of `fcsr`, which share their layout. -/
def NX : BitField := ⟨0, 1, BitField.fits_bit_zero⟩
def UF : BitField := ⟨1, 1, UF_fits⟩
def OF : BitField := ⟨2, 1, OF_fits⟩
def DZ : BitField := ⟨3, 1, DZ_fits⟩
def NV : BitField := ⟨4, 1, NV_fits⟩
def frm : BitField := ⟨5, 3, frm_fits⟩
/-- `vxsat` and `vxrm` in `fcsr`, Vector Version 0.8 only. -/
def vxsat : BitField := ⟨8, 1, vxsat_fits⟩
def vxrm : BitField := ⟨9, 2, vxrm_fits⟩
/-- The five flags as one field, the architectural `fflags`. -/
def flags : BitField := ⟨0, 5, flags_fits⟩

end Fcsr

namespace Frm

theorem frm_fits : 0 + 3 ≤ 64 := by norm_num

def frm : BitField := ⟨0, 3, frm_fits⟩

end Frm

namespace Vxrm

theorem rm_fits : 0 + 2 ≤ 64 := by norm_num

def rm : BitField := ⟨0, 2, rm_fits⟩

end Vxrm

namespace Vcsr

theorem vxrm_fits : 1 + 2 ≤ 64 := by norm_num

def vxsat : BitField := ⟨0, 1, BitField.fits_bit_zero⟩
def vxrm : BitField := ⟨1, 2, vxrm_fits⟩

end Vcsr

/-- `vmiFPFlags`: the accrued flags of the simulator's floating point unit,
by name: invalid, denormal, divide by zero, overflow, underflow and
precision. -/
structure VmiFPFlags where
  I : Bool
  D : Bool
  Z : Bool
  O : Bool
  U : Bool
  P : Bool
  deriving DecidableEq, Repr

namespace VmiFPFlags

/-- No flag, `bits : 0`. -/
def none : VmiFPFlags := ⟨false, false, false, false, false, false⟩

/-- The union of two sets of flags, `|` of their bits. -/
def or (a b : VmiFPFlags) : VmiFPFlags :=
  ⟨a.I || b.I, a.D || b.D, a.Z || b.Z, a.O || b.O, a.U || b.U, a.P || b.P⟩

instance : OrOp VmiFPFlags := ⟨or⟩

end VmiFPFlags

/-- `vmiFPRC`: the rounding controls of the floating point unit, `CURRENT`
being the one its control word holds. -/
inductive VmiFPRC where
  | CURRENT
  | NEAREST
  | ZERO
  | NEG_INF
  | POS_INF
  | AWAY
  | ODD
  deriving DecidableEq, Repr

/-- `mapFRMToRC`: the rounding control of a rounding mode, none (`-1`) for
the reserved modes 5, 6 and 7. -/
def mapFRMToRC (frm : ℕ) : Option VmiFPRC :=
  match frm with
  | 0 => some .NEAREST
  | 1 => some .ZERO
  | 2 => some .NEG_INF
  | 3 => some .POS_INF
  | 4 => some .AWAY
  | _ => none

/-- What of the configuration the six CSRs read: whether the vector version
has `vcsr` (`RVVF_VCSR_PRESENT`, from Vector Version 0.9), and whether the
floating point (`ISA_DF`) and vector (`ISA_V`) extensions are present, which
set the write mask of `fcsr`. -/
structure FpCsrConfig where
  vcsrPresent : Bool
  hasFP : Bool
  hasV : Bool
  deriving DecidableEq, Repr

/-- `vxFieldsInFCSR`: `vxsat` and `vxrm` are fields of `fcsr`. -/
def vxFieldsInFCSR (cfg : FpCsrConfig) : Bool := !cfg.vcsrPresent

/-- The write mask of `fcsr` that `riscvCSRInit` sets: the floating point
fields with `ISA_DF`, the fixed point ones with `ISA_V` and no `vcsr`. -/
def fcsrMask (cfg : FpCsrConfig) : UInt64 :=
  (if cfg.hasFP then 0x0ff else 0) ||| (if cfg.hasV && !cfg.vcsrPresent then 0x700 else 0)

/-- The state behind the six CSRs. -/
structure FpCsrState where
  fcsr : UInt64
  vxrm : UInt64
  vcsr : UInt64
  fpFlagsMT : VmiFPFlags
  fpFlagsCSR : VmiFPFlags
  SFMT : Bool
  SFCSR : Bool
  /-- `ISA_RM_INVALID` in `currentArch`: `frm` is a reserved mode -/
  rmInvalid : Bool
  /-- the rounding control of the floating point unit's control word -/
  rc : VmiFPRC
  deriving DecidableEq, Repr

/-! ### The model -/

namespace FpCsrState

variable (cfg : FpCsrConfig) (s : FpCsrState)

/-- `getFPFlags`: the flags of the CSR write and of the instructions since. -/
def getFPFlags : VmiFPFlags := s.fpFlagsCSR ||| s.fpFlagsMT

/-- `setFPFlags`: the flags of a CSR write; the instructions' are cleared. -/
def setFPFlags (f : VmiFPFlags) : FpCsrState := { s with fpFlagsCSR := f, fpFlagsMT := VmiFPFlags.none }

/-- `getSatFlags`. -/
def getSatFlags : Bool := s.SFCSR || s.SFMT

/-- `setSatFlags`. -/
def setSatFlags (vxsat : Bool) : FpCsrState := { s with SFCSR := vxsat, SFMT := false }

/-- `getMasterFRM`: the rounding mode is the `frm` field of `fcsr`. -/
def getMasterFRM : ℕ := Fcsr.frm.get s.fcsr

/-- `setMasterFRM`. -/
def setMasterFRM (frm : ℕ) : FpCsrState := { s with fcsr := Fcsr.frm.set s.fcsr frm }

/-- The five flag fields, as `fflagsR` and `fcsrR` compose them into `x`:
`NX` from `P`, `UF` from `U`, `OF` from `O`, `DZ` from `Z`, `NV` from `I`. -/
def composeFlags (x : UInt64) (f : VmiFPFlags) : UInt64 :=
  Fcsr.NV.set (Fcsr.DZ.set (Fcsr.OF.set (Fcsr.UF.set (Fcsr.NX.set x f.P.toNat) f.U.toNat)
    f.O.toNat) f.Z.toNat) f.I.toNat

/-- The flags of the five flag fields of `x`, as `fflagsW` and `fcsrW`
extract them. -/
def extractFlags (x : UInt64) : VmiFPFlags :=
  ⟨Fcsr.NV.get x == 1, false, Fcsr.DZ.get x == 1, Fcsr.OF.get x == 1, Fcsr.UF.get x == 1,
    Fcsr.NX.get x == 1⟩

/-- `fflagsR`. -/
def fflagsR : UInt64 := composeFlags 0 s.getFPFlags

/-- `fflagsW`: the state and the value written. -/
def fflagsW (newValue : UInt64) : FpCsrState × UInt64 :=
  let fflags := newValue &&& 0x1f
  (s.setFPFlags (extractFlags fflags), fflags)

/-- `frmR`. -/
def frmR : UInt64 := Frm.frm.set 0 s.getMasterFRM

/-- `updateCurrentRMValid`: the reserved mode key follows the rounding mode;
the rounding control of the mode, if it is one. -/
def updateCurrentRMValid : FpCsrState × Option VmiFPRC :=
  let rc := mapFRMToRC s.getMasterFRM
  let newInvalid := rc.isNone
  if s.rmInvalid ≠ newInvalid then ({ s with rmInvalid := newInvalid }, rc) else (s, rc)

/-- `setFPRoundingMode`: on a change of rounding mode, the new mode, its key
and, for a rounding mode, the control word. -/
def setFPRoundingMode (oldRM newRM : ℕ) : FpCsrState :=
  if oldRM ≠ newRM then
    match (s.setMasterFRM newRM).updateCurrentRMValid with
    | (s', some rc) => { s' with rc := rc }
    | (s', none) => s'
  else s

/-- `frmW`. -/
def frmW (newValue : UInt64) : FpCsrState × UInt64 :=
  let frm := newValue &&& 0x7
  (s.setFPRoundingMode s.getMasterFRM (Frm.frm.get frm), frm)

/-- `fcsrR`: the flags, and with Vector Version 0.8 the fixed point fields,
are composed into `fcsr`, which is read. -/
def fcsrR : FpCsrState × UInt64 :=
  let fcsr := composeFlags s.fcsr s.getFPFlags
  let fcsr :=
    if vxFieldsInFCSR cfg then
      Fcsr.vxrm.set (Fcsr.vxsat.set fcsr s.getSatFlags.toNat) (Vxrm.rm.get s.vxrm)
    else fcsr
  ({ s with fcsr := fcsr }, fcsr)

/-- `fcsrW`. -/
def fcsrW (newValue : UInt64) : FpCsrState × UInt64 :=
  let oldRM := s.getMasterFRM
  let s := { s with fcsr := newValue &&& fcsrMask cfg }
  let s := s.setFPFlags (extractFlags s.fcsr)
  let s := s.setFPRoundingMode oldRM (Fcsr.frm.get s.fcsr)
  let s :=
    if vxFieldsInFCSR cfg then
      let s' := s.setSatFlags (Fcsr.vxsat.get s.fcsr == 1)
      { s' with vxrm := Vxrm.rm.set s'.vxrm (Fcsr.vxrm.get s'.fcsr) }
    else s
  (s, s.fcsr)

/-- `vxsatR`. -/
def vxsatR : UInt64 := UInt64.ofNat s.getSatFlags.toNat

/-- `vxsatW`. -/
def vxsatW (newValue : UInt64) : FpCsrState × UInt64 :=
  let vxsat := newValue &&& 0x1
  (s.setSatFlags (vxsat == 1), vxsat)

/-- The read of `vxrm`, which has no read callback: the register. -/
def vxrmR : UInt64 := s.vxrm

/-- `vxrmW`: the value goes to every copy of the field. -/
def vxrmW (newValue : UInt64) : FpCsrState × UInt64 :=
  let s := if vxFieldsInFCSR cfg then { s with fcsr := Fcsr.vxrm.set s.fcsr newValue.toNat } else s
  let s := { s with vcsr := Vcsr.vxrm.set s.vcsr newValue.toNat }
  ({ s with vxrm := Vxrm.rm.set s.vxrm newValue.toNat }, newValue)

/-- `vcsrR`. -/
def vcsrR : FpCsrState × UInt64 :=
  let vcsr := Vcsr.vxrm.set (Vcsr.vxsat.set 0 s.getSatFlags.toNat) (Vxrm.rm.get s.vxrm)
  ({ s with vcsr := vcsr }, vcsr)

/-- `vcsrW`. -/
def vcsrW (newValue : UInt64) : FpCsrState × UInt64 :=
  let vcsr := newValue &&& 0x7
  let s := ({ s with vcsr := vcsr } : FpCsrState).setSatFlags (Vcsr.vxsat.get vcsr == 1)
  ({ s with vxrm := Vxrm.rm.set s.vxrm (Vcsr.vxrm.get vcsr) }, vcsr)

/-- A translated floating point instruction: its flags accrue in
`fpFlagsMT`. -/
def raiseFPFlags (flags : VmiFPFlags) : FpCsrState := { s with fpFlagsMT := s.fpFlagsMT ||| flags }

/-- A translated saturating fixed point instruction: `SFMT |= SF`. -/
def raiseSat (sat : Bool) : FpCsrState := { s with SFMT := s.SFMT || sat }

/-- `consolidateFPFlags`, which `statusR` and `statusW` call: the
instructions' flags move to the CSR's. -/
def consolidateFPFlags : FpCsrState :=
  { s with
    fpFlagsCSR := s.fpFlagsCSR ||| s.fpFlagsMT
    fpFlagsMT := .none
    SFCSR := s.SFCSR || s.SFMT
    SFMT := false }

end FpCsrState

/-- What changes the state behind the six CSRs: their writes, the reads of
`fcsr` and `vcsr`, which write the composed register back, the flags of
translated instructions, and an access of `mstatus`. -/
inductive FpCsrOp where
  | fflagsW (newValue : UInt64)
  | frmW (newValue : UInt64)
  | fcsrW (newValue : UInt64)
  | vxsatW (newValue : UInt64)
  | vxrmW (newValue : UInt64)
  | vcsrW (newValue : UInt64)
  | fcsrR
  | vcsrR
  | raiseFPFlags (flags : VmiFPFlags)
  | raiseSat (sat : Bool)
  | consolidateFPFlags

/-- One operation. -/
def fpCsrStep (cfg : FpCsrConfig) (s : FpCsrState) : FpCsrOp → FpCsrState
  | .fflagsW v => (s.fflagsW v).1
  | .frmW v => (s.frmW v).1
  | .fcsrW v => (s.fcsrW cfg v).1
  | .vxsatW v => (s.vxsatW v).1
  | .vxrmW v => (s.vxrmW cfg v).1
  | .vcsrW v => (s.vcsrW v).1
  | .fcsrR => (s.fcsrR cfg).1
  | .vcsrR => s.vcsrR.1
  | .raiseFPFlags flags => s.raiseFPFlags flags
  | .raiseSat sat => s.raiseSat sat
  | .consolidateFPFlags => s.consolidateFPFlags

/-! ### The specification -/

/-- The four architectural fields behind the six CSRs. -/
structure FpCsrSpec where
  fflags : BitVec 5
  frm : BitVec 3
  vxsat : Bool
  vxrm : BitVec 2
  deriving DecidableEq, Repr

/-- The accrued flags as the five bits of `fflags`, `NV DZ OF UF NX` from the
top: invalid, divide by zero, overflow, underflow and inexact. -/
def fflagsOf (f : VmiFPFlags) : BitVec 5 :=
  BitVec.ofBool f.I ++ BitVec.ofBool f.Z ++ BitVec.ofBool f.O ++ BitVec.ofBool f.U ++
    BitVec.ofBool f.P

namespace FpCsrSpec

variable (cfg : FpCsrConfig) (p : FpCsrSpec)

/-- A write of `fcsr` with the bits `w` of the value the write mask lets
through: the flags and the rounding mode, and with Vector Version 0.8 the
fixed point fields. -/
def fcsrWrite (w : BitVec 64) : FpCsrSpec :=
  let p := { p with fflags := w.extractLsb' 0 5, frm := w.extractLsb' 5 3 }
  if vxFieldsInFCSR cfg then { p with vxsat := w.getLsbD 8, vxrm := w.extractLsb' 9 2 } else p

/-- One operation: each write sets its fields to the bits of the value, a
floating point instruction adds its flags, a saturating one the saturation
flag; the reads and the consolidation change nothing. -/
def step : FpCsrOp → FpCsrSpec
  | .fflagsW v => { p with fflags := v.toBitVec.extractLsb' 0 5 }
  | .frmW v => { p with frm := v.toBitVec.extractLsb' 0 3 }
  | .fcsrW v => p.fcsrWrite cfg (v &&& fcsrMask cfg).toBitVec
  | .vxsatW v => { p with vxsat := v.toBitVec.getLsbD 0 }
  | .vxrmW v => { p with vxrm := v.toBitVec.extractLsb' 0 2 }
  | .vcsrW v => { p with vxsat := v.toBitVec.getLsbD 0, vxrm := v.toBitVec.extractLsb' 1 2 }
  | .raiseFPFlags f => { p with fflags := p.fflags ||| fflagsOf f }
  | .raiseSat sat => { p with vxsat := p.vxsat || sat }
  | .fcsrR | .vcsrR | .consolidateFPFlags => p

/-- The reads of the six CSRs: each is its fields side by side from bit 0. -/
def fflagsRead : BitVec 64 := p.fflags.setWidth 64

def frmRead : BitVec 64 := p.frm.setWidth 64

def fcsrRead : BitVec 64 :=
  if vxFieldsInFCSR cfg then (p.vxrm ++ BitVec.ofBool p.vxsat ++ p.frm ++ p.fflags).setWidth 64
  else (p.frm ++ p.fflags).setWidth 64

def vxsatRead : BitVec 64 := (BitVec.ofBool p.vxsat).setWidth 64

def vxrmRead : BitVec 64 := p.vxrm.setWidth 64

def vcsrRead : BitVec 64 := (p.vxrm ++ BitVec.ofBool p.vxsat).setWidth 64

end FpCsrSpec

/-! ### Flags -/

namespace VmiFPFlags

lemma or_def (a b : VmiFPFlags) :
    a ||| b = ⟨a.I || b.I, a.D || b.D, a.Z || b.Z, a.O || b.O, a.U || b.U, a.P || b.P⟩ := rfl

@[simp] lemma or_none (a : VmiFPFlags) : a ||| none = a := by
  simp [or_def, none]

lemma or_assoc (a b c : VmiFPFlags) : a ||| b ||| c = a ||| (b ||| c) := by
  simp [or_def, Bool.or_assoc]

end VmiFPFlags

@[simp] lemma getLsbD_toBitVec_uint64 (x : UInt64) (i : ℕ) :
    x.toBitVec.getLsbD i = x.toNat.testBit i := rfl

lemma fflagsOf_or (a b : VmiFPFlags) : fflagsOf (a ||| b) = fflagsOf a ||| fflagsOf b := by
  apply BitVec.eq_of_getLsbD_eq
  intro i hi
  simp only [fflagsOf, VmiFPFlags.or_def, BitVec.getLsbD_or, BitVec.getLsbD_append,
    BitVec.getLsbD_ofBool]
  interval_cases i <;> simp

/-- The flags the writes extract are the low five bits of the value. -/
lemma fflagsOf_extractFlags (x : UInt64) :
    fflagsOf (FpCsrState.extractFlags x) = x.toBitVec.extractLsb' 0 5 := by
  apply BitVec.eq_of_getLsbD_eq
  intro i hi
  simp only [fflagsOf, FpCsrState.extractFlags, BitVec.getLsbD_append, BitVec.getLsbD_ofBool,
    BitVec.getLsbD_extractLsb', getLsbD_toBitVec_uint64]
  interval_cases i <;> simp [BitField.get_beq_one, Fcsr.NX, Fcsr.UF, Fcsr.OF, Fcsr.DZ, Fcsr.NV]

/-- The reads compose the flags into the five flag fields. -/
lemma composeFlags_eq (x : UInt64) (f : VmiFPFlags) :
    FpCsrState.composeFlags x f = Fcsr.flags.set x (fflagsOf f).toNat := by
  apply BitField.set_ext
  intro j
  simp only [FpCsrState.composeFlags, BitField.testBit_set_toNat (f := Fcsr.NX) rfl,
    BitField.testBit_set_toNat (f := Fcsr.UF) rfl, BitField.testBit_set_toNat (f := Fcsr.OF) rfl,
    BitField.testBit_set_toNat (f := Fcsr.DZ) rfl, BitField.testBit_set_toNat (f := Fcsr.NV) rfl,
    BitField.testBit_set, BitVec.testBit_toNat, fflagsOf, BitVec.getLsbD_append,
    BitVec.getLsbD_ofBool]
  simp only [Fcsr.NX, Fcsr.UF, Fcsr.OF, Fcsr.DZ, Fcsr.NV, Fcsr.flags, BitField.Mem]
  rcases Nat.lt_or_ge j 5 with hj | hj
  · interval_cases j <;> simp
  · simp [show ¬ j < 5 by omega, show j ≠ 4 by omega, show j ≠ 3 by omega, show j ≠ 2 by omega,
      show j ≠ 1 by omega, show j ≠ 0 by omega]

/-- The bits a mask keeps are the bits of the value. -/
lemma extractLsb'_and_of_testBit {v m : UInt64} {start len : ℕ}
    (hm : ∀ i < len, m.toNat.testBit (start + i) = true) :
    (v &&& m).toBitVec.extractLsb' start len = v.toBitVec.extractLsb' start len := by
  apply BitVec.eq_of_getLsbD_eq
  intro i hi
  simp only [BitVec.getLsbD_extractLsb', getLsbD_toBitVec_uint64, UInt64.toNat_and,
    Nat.testBit_and, hm i hi, Bool.and_true]

lemma and_one_beq_one (v : UInt64) : (v &&& 1 == 1) = v.toNat.testBit 0 := by
  have h : (v &&& 1).toNat = v.toNat % 2 := by
    rw [UInt64.toNat_and, show (1 : UInt64).toNat = 1 from rfl, Nat.and_one_is_mod]
  rw [Nat.testBit_zero, ← h]
  exact Bool.eq_iff_iff.mpr (by simp [UInt64.ext_iff])

/-- A field read back after a write, as a bit vector of its width, is the
value written. -/
lemma ofNat_get_set (f : BitField) (x : UInt64) (v : ℕ) :
    BitVec.ofNat f.width (f.get (f.set x v)) = BitVec.ofNat f.width v := by
  apply BitVec.eq_of_toNat_eq
  rw [BitField.get_set, BitVec.toNat_ofNat, BitVec.toNat_ofNat, Nat.mod_mod]

lemma ofNat_toNat_uint64 (v : UInt64) (n : ℕ) :
    BitVec.ofNat n v.toNat = v.toBitVec.extractLsb' 0 n := by
  apply BitVec.eq_of_toNat_eq
  rw [BitVec.toNat_ofNat, BitVec.extractLsb'_toNat, UInt64.toNat_toBitVec, Nat.shiftRight_zero]

/-! ### The rounding mode -/

namespace FpCsrState

variable (s : FpCsrState)

@[simp] lemma getMasterFRM_setMasterFRM (m : ℕ) : (s.setMasterFRM m).getMasterFRM = m % 8 := by
  simp [getMasterFRM, setMasterFRM, Fcsr.frm]

lemma getMasterFRM_lt : s.getMasterFRM < 8 := BitField.get_lt s.fcsr

/-- **A change of rounding mode** sets `frm`, the reserved mode key, and the
rounding control when the mode has one. -/
lemma setFPRoundingMode_of_ne {oldRM newRM : ℕ} (h : oldRM ≠ newRM) :
    s.setFPRoundingMode oldRM newRM =
      { s with fcsr := Fcsr.frm.set s.fcsr newRM, rmInvalid := (mapFRMToRC (newRM % 8)).isNone,
               rc := (mapFRMToRC (newRM % 8)).getD s.rc } := by
  simp only [setFPRoundingMode, ne_eq, h, not_false_eq_true, if_true, updateCurrentRMValid,
    getMasterFRM_setMasterFRM]
  split_ifs with hv <;> cases hr : mapFRMToRC (newRM % 8) <;> simp [setMasterFRM, hr] at hv ⊢
  all_goals simp [hv]

@[simp] lemma setFPRoundingMode_self (m : ℕ) : s.setFPRoundingMode m m = s := by
  simp [setFPRoundingMode]

/-- The rounding mode after `setFPRoundingMode`: the new one, unless it was
no change. -/
lemma getMasterFRM_setFPRoundingMode (oldRM newRM : ℕ) :
    (s.setFPRoundingMode oldRM newRM).getMasterFRM =
      if oldRM = newRM then s.getMasterFRM else newRM % 8 := by
  by_cases h : oldRM = newRM
  · rw [if_pos h, h, setFPRoundingMode_self]
  · rw [if_neg h, setFPRoundingMode_of_ne s h]
    exact getMasterFRM_setMasterFRM s newRM

/-- The reserved mode key and the rounding control follow the rounding mode
`m`: the key is set exactly for a reserved mode, and the control is the
mode's when it has one. -/
structure RmFollows (m : ℕ) : Prop where
  invalid_eq : s.rmInvalid = (mapFRMToRC m).isNone
  rc_eq : ∀ rc, mapFRMToRC m = some rc → s.rc = rc

/-- `setFPRoundingMode` leaves the key and the control following the mode,
from a state where they follow the old mode and `frm` holds the old or the
new one: `frmW` calls it with `frm` still old, `fcsrW` with `frm` already
new. -/
lemma rmFollows_setFPRoundingMode {oldRM newRM : ℕ} (h : s.RmFollows oldRM)
    (hm : s.getMasterFRM = oldRM ∨ s.getMasterFRM = newRM) :
    (s.setFPRoundingMode oldRM newRM).RmFollows (s.setFPRoundingMode oldRM newRM).getMasterFRM := by
  by_cases hne : oldRM = newRM
  · subst hne
    have hold : s.getMasterFRM = oldRM := hm.elim id id
    rw [setFPRoundingMode_self, hold]
    exact h
  · rw [getMasterFRM_setFPRoundingMode, if_neg hne, setFPRoundingMode_of_ne s hne]
    refine ⟨rfl, fun rc hrc => ?_⟩
    simp [hrc]

end FpCsrState

/-! ### The model refines the specification -/

namespace FpCsrState

variable (cfg : FpCsrConfig) (s : FpCsrState)

/-- The architectural fields the state stands for: the union of the flags,
`frm` in `fcsr`, the union of the saturation flags, and `vxrm`. -/
def view : FpCsrSpec :=
  ⟨fflagsOf s.getFPFlags, BitVec.ofNat 3 s.getMasterFRM, s.getSatFlags,
    BitVec.ofNat 2 (Vxrm.rm.get s.vxrm)⟩

lemma ofNat_frm_get (x : UInt64) : BitVec.ofNat 3 (Fcsr.frm.get x) = x.toBitVec.extractLsb' 5 3 :=
  BitField.ofNat_get Fcsr.frm x

@[simp] lemma getFPFlags_setFPFlags (f : VmiFPFlags) : (s.setFPFlags f).getFPFlags = f := by
  simp [getFPFlags, setFPFlags]

@[simp] lemma getSatFlags_setSatFlags (b : Bool) : (s.setSatFlags b).getSatFlags = b := by
  simp [getSatFlags, setSatFlags]

/-- `fflagsW` sets the flags to the low five bits of the value. -/
lemma view_fflagsW (v : UInt64) :
    view (s.fflagsW v).1 = { view s with fflags := v.toBitVec.extractLsb' 0 5 } := by
  simp only [view, fflagsW, getFPFlags_setFPFlags, fflagsOf_extractFlags,
    extractLsb'_and_of_testBit (show ∀ i < 5, (0x1f : UInt64).toNat.testBit (0 + i) = true by decide)]
  rfl

/-- `vxrmW` writes every copy of the field: the alias in `fcsr` with Vector
Version 0.8, the one in `vcsr`, and `vxrm`. -/
lemma vxrmW_eq (v : UInt64) :
    (s.vxrmW cfg v).1 =
      { s with fcsr := if vxFieldsInFCSR cfg then Fcsr.vxrm.set s.fcsr v.toNat else s.fcsr,
               vcsr := Vcsr.vxrm.set s.vcsr v.toNat, vxrm := Vxrm.rm.set s.vxrm v.toNat } := by
  by_cases hc : vxFieldsInFCSR cfg
  · simp only [vxrmW, hc, if_true]
  · simp only [vxrmW, hc, Bool.false_eq_true, if_false]

/-- The alias of `vxrm` in `fcsr` lies beside `frm`. -/
lemma getMasterFRM_vxrmW (v : UInt64) : (s.vxrmW cfg v).1.getMasterFRM = s.getMasterFRM := by
  rw [vxrmW_eq]
  exact BitField.get_ite_set_of_disjoint (by decide) _ _ _

/-- The read of `fcsr` writes the flags and the fixed point fields, not
`frm`. -/
lemma getMasterFRM_fcsrR : (s.fcsrR cfg).1.getMasterFRM = s.getMasterFRM := by
  have hflags : Fcsr.frm.get (composeFlags s.fcsr s.getFPFlags) = Fcsr.frm.get s.fcsr := by
    rw [composeFlags_eq]
    exact BitField.get_set_of_disjoint (by decide) _ _
  by_cases hc : vxFieldsInFCSR cfg
  · simp only [fcsrR, hc, if_true, getMasterFRM]
    rw [BitField.get_set_of_disjoint (by decide), BitField.get_set_of_disjoint (by decide), hflags]
  · simp only [fcsrR, hc, Bool.false_eq_true, if_false, getMasterFRM, hflags]

/-- `setFPRoundingMode` changes no field of the view but the rounding mode. -/
lemma view_setFPRoundingMode (oldRM newRM : ℕ) :
    view (s.setFPRoundingMode oldRM newRM) =
      { view s with frm := BitVec.ofNat 3 (s.setFPRoundingMode oldRM newRM).getMasterFRM } := by
  by_cases h : oldRM = newRM
  · subst h
    simp only [setFPRoundingMode_self]
    rfl
  · rw [setFPRoundingMode_of_ne s h]
    rfl

lemma fcsr_setFPRoundingMode (oldRM newRM : ℕ) :
    (s.setFPRoundingMode oldRM newRM).fcsr =
      if oldRM ≠ newRM then Fcsr.frm.set s.fcsr newRM else s.fcsr := by
  by_cases h : oldRM = newRM
  · subst h
    simp
  · rw [setFPRoundingMode_of_ne s h, if_pos h]

/-- The mode a write hands to `setFPRoundingMode`, a field of at most three
bits, is the mode after it, whether or not it changed. -/
lemma getMasterFRM_setFPRoundingMode_of_lt {oldRM newRM : ℕ} (hlt : newRM < 8)
    (hold : oldRM = newRM → s.getMasterFRM = newRM) :
    (s.setFPRoundingMode oldRM newRM).getMasterFRM = newRM := by
  rw [getMasterFRM_setFPRoundingMode]
  split_ifs with h
  · exact hold h
  · exact Nat.mod_eq_of_lt hlt

/-- `frmW` sets the rounding mode to the low three bits of the value. -/
lemma view_frmW (v : UInt64) :
    view (s.frmW v).1 = { view s with frm := v.toBitVec.extractLsb' 0 3 } := by
  have hfrm : (s.setFPRoundingMode s.getMasterFRM (Frm.frm.get (v &&& 7))).getMasterFRM =
      Frm.frm.get (v &&& 7) :=
    getMasterFRM_setFPRoundingMode_of_lt s (BitField.get_lt (v &&& 7)) id
  have hbits : BitVec.ofNat 3 (Frm.frm.get (v &&& 7)) = v.toBitVec.extractLsb' 0 3 := by
    rw [← extractLsb'_and_of_testBit (m := 7) (by decide)]
    exact BitField.ofNat_get Frm.frm (v &&& 7)
  simp only [frmW, view_setFPRoundingMode, hfrm, hbits]

/-- `fcsrW` sets each field to its bits of the value the write mask lets
through. -/
lemma view_fcsrW (v : UInt64) :
    view (s.fcsrW cfg v).1 = (view s).fcsrWrite cfg (v &&& fcsrMask cfg).toBitVec := by
  -- `t`: the state once the flags and the rounding mode of the masked value are in
  set w := v &&& fcsrMask cfg
  set t : FpCsrState := (({ s with fcsr := w } : FpCsrState).setFPFlags (extractFlags w)).setFPRoundingMode
    s.getMasterFRM (Fcsr.frm.get w) with ht
  have hview :
      view t = { view s with fflags := w.toBitVec.extractLsb' 0 5, frm := w.toBitVec.extractLsb' 5 3 } := by
    have hfrm : t.getMasterFRM = Fcsr.frm.get w :=
      getMasterFRM_setFPRoundingMode_of_lt _ (BitField.get_lt w) (fun _ => rfl)
    rw [ht, view_setFPRoundingMode, ← ht, hfrm, ofNat_frm_get, ← fflagsOf_extractFlags]
    simp only [view, getFPFlags_setFPFlags]
    rfl
  -- `frm` is the only field of `fcsr` that `setFPRoundingMode` writes
  have hfields : Fcsr.vxsat.get t.fcsr = Fcsr.vxsat.get w ∧ Fcsr.vxrm.get t.fcsr = Fcsr.vxrm.get w := by
    rw [ht, fcsr_setFPRoundingMode]
    exact ⟨BitField.get_ite_set_of_disjoint (by decide) _ _ _,
      BitField.get_ite_set_of_disjoint (by decide) _ _ _⟩
  by_cases hc : vxFieldsInFCSR cfg
  · have hsat : (Fcsr.vxsat.get t.fcsr == 1) = w.toBitVec.getLsbD 8 := by
      rw [hfields.1, BitField.get_beq_one rfl]
      rfl
    have hrm : BitVec.ofNat 2 (Vxrm.rm.get (Vxrm.rm.set t.vxrm (Fcsr.vxrm.get t.fcsr))) =
        w.toBitVec.extractLsb' 9 2 := by
      refine (ofNat_get_set Vxrm.rm _ _).trans ?_
      rw [hfields.2]
      exact BitField.ofNat_get Fcsr.vxrm w
    have hr : (s.fcsrW cfg v).1 =
        { t.setSatFlags (Fcsr.vxsat.get t.fcsr == 1) with vxrm := Vxrm.rm.set t.vxrm (Fcsr.vxrm.get t.fcsr) } := by
      simp only [fcsrW, hc, if_true]
      rfl
    have hr' : view (s.fcsrW cfg v).1 =
        { view t with vxsat := w.toBitVec.getLsbD 8, vxrm := w.toBitVec.extractLsb' 9 2 } := by
      have hsat' : (s.fcsrW cfg v).1.getSatFlags = w.toBitVec.getLsbD 8 := by
        rw [hr, ← hsat]
        exact getSatFlags_setSatFlags t _
      have hrm' : BitVec.ofNat 2 (Vxrm.rm.get (s.fcsrW cfg v).1.vxrm) = w.toBitVec.extractLsb' 9 2 := by
        rw [hr]
        exact hrm
      simp only [view, hsat', hrm']
      rw [hr]
      rfl
    rw [hr', hview]
    simp only [FpCsrSpec.fcsrWrite, hc, if_true]
  · have hr : (s.fcsrW cfg v).1 = t := by
      simp only [fcsrW, hc, Bool.false_eq_true, if_false]
      rfl
    rw [hr, hview]
    simp only [FpCsrSpec.fcsrWrite, hc, Bool.false_eq_true, if_false]

/-- `vxsatW` sets the saturation flag to bit 0 of the value. -/
lemma view_vxsatW (v : UInt64) :
    view (s.vxsatW v).1 = { view s with vxsat := v.toBitVec.getLsbD 0 } := by
  simp only [view, vxsatW, getSatFlags_setSatFlags, and_one_beq_one, getLsbD_toBitVec_uint64]
  rfl

/-- `vxrmW` sets the fixed point rounding mode to the low two bits of the
value. -/
lemma view_vxrmW (v : UInt64) :
    view (s.vxrmW cfg v).1 = { view s with vxrm := v.toBitVec.extractLsb' 0 2 } := by
  have hrm : BitVec.ofNat 2 (Vxrm.rm.get (Vxrm.rm.set s.vxrm v.toNat)) = v.toBitVec.extractLsb' 0 2 :=
    (ofNat_get_set Vxrm.rm _ v.toNat).trans (ofNat_toNat_uint64 v 2)
  have hfrm := getMasterFRM_vxrmW cfg s v
  rw [vxrmW_eq] at hfrm ⊢
  simp only [view, hfrm, hrm]
  rfl

/-- `vcsrW` sets the saturation flag to bit 0 of the value and the fixed
point rounding mode to bits 1 and 2. -/
lemma view_vcsrW (v : UInt64) :
    view (s.vcsrW v).1 =
      { view s with vxsat := v.toBitVec.getLsbD 0, vxrm := v.toBitVec.extractLsb' 1 2 } := by
  have hsat : (s.vcsrW v).1.getSatFlags = v.toNat.testBit 0 := by
    simp only [vcsrW, getSatFlags, setSatFlags, Bool.or_false]
    rw [BitField.get_beq_one rfl, UInt64.toNat_and, Nat.testBit_and]
    exact Bool.and_true _
  have hrm : BitVec.ofNat 2 (Vxrm.rm.get (s.vcsrW v).1.vxrm) = v.toBitVec.extractLsb' 1 2 := by
    refine (ofNat_get_set Vxrm.rm _ _).trans ?_
    rw [← extractLsb'_and_of_testBit (m := 7) (by decide)]
    exact BitField.ofNat_get Vcsr.vxrm (v &&& 7)
  simp only [view, hsat, hrm]
  rfl

/-- The reads of `fcsr` and `vcsr` write back what they read: no field
changes. -/
lemma view_fcsrR : view (s.fcsrR cfg).1 = view s := by
  simp only [view, getMasterFRM_fcsrR]
  rfl

lemma view_vcsrR : view s.vcsrR.1 = view s := rfl

lemma view_raiseFPFlags (f : VmiFPFlags) :
    view (s.raiseFPFlags f) = { view s with fflags := (view s).fflags ||| fflagsOf f } := by
  have h : (s.raiseFPFlags f).getFPFlags = s.getFPFlags ||| f := (VmiFPFlags.or_assoc _ _ _).symm
  simp only [view, h, fflagsOf_or]
  rfl

lemma view_raiseSat (b : Bool) :
    view (s.raiseSat b) = { view s with vxsat := (view s).vxsat || b } := by
  have h : (s.raiseSat b).getSatFlags = (s.getSatFlags || b) := (Bool.or_assoc _ _ _).symm
  simp only [view, h]
  rfl

/-- The consolidation moves the instructions' flags without changing the
union. -/
lemma view_consolidateFPFlags : view s.consolidateFPFlags = view s := by
  have hf : s.consolidateFPFlags.getFPFlags = s.getFPFlags := VmiFPFlags.or_none _
  have hs : s.consolidateFPFlags.getSatFlags = s.getSatFlags := Bool.or_false _
  simp only [view, hf, hs]
  rfl

/-- **One step**: every operation of the model is the specification's on the
view. -/
theorem view_step (op : FpCsrOp) : view (fpCsrStep cfg s op) = (view s).step cfg op := by
  cases op with
  | fflagsW v => exact view_fflagsW s v
  | frmW v => exact view_frmW s v
  | fcsrW v => exact view_fcsrW cfg s v
  | vxsatW v => exact view_vxsatW s v
  | vxrmW v => exact view_vxrmW cfg s v
  | vcsrW v => exact view_vcsrW s v
  | fcsrR => exact view_fcsrR cfg s
  | vcsrR => exact view_vcsrR s
  | raiseFPFlags f => exact view_raiseFPFlags s f
  | raiseSat b => exact view_raiseSat s b
  | consolidateFPFlags => exact view_consolidateFPFlags s

/-- **Every run** of the model is the specification's run on the view. -/
theorem run_view (ops : List FpCsrOp) :
    view (StepSystem.run (fpCsrStep cfg) s ops) = StepSystem.run (FpCsrSpec.step cfg) (view s) ops :=
  StepSystem.run_map (I := fun _ : FpCsrState => True) (fun _ _ _ => trivial)
    (fun s op _ => view_step cfg s op) trivial ops

end FpCsrState

/-! ### The invariant -/

/-- The top of `fcsr`: bit 7, or bit 10 with the fixed point fields. -/
def fcsrTop (cfg : FpCsrConfig) : ℕ := if vxFieldsInFCSR cfg then 11 else 8

lemma fcsrMask_lt (cfg : FpCsrConfig) : (fcsrMask cfg).toNat < 2 ^ fcsrTop cfg := by
  rcases cfg with ⟨_ | _, _ | _, _ | _⟩ <;> decide

lemma eight_le_fcsrTop (cfg : FpCsrConfig) : 8 ≤ fcsrTop cfg := by
  unfold fcsrTop
  split_ifs <;> omega

/-- What the runs keep: no bit of `fcsr` above its top field and none of
`vxrm` above bit 1, and the reserved mode key and the rounding control
following `frm`. -/
structure FpCsrInv (cfg : FpCsrConfig) (s : FpCsrState) : Prop where
  fcsr_lt : s.fcsr.toNat < 2 ^ fcsrTop cfg
  vxrm_lt : s.vxrm.toNat < 2 ^ 2
  rm : s.RmFollows s.getMasterFRM

namespace FpCsrState

variable {cfg : FpCsrConfig} {s : FpCsrState}

lemma RmFollows.of_eq {t : FpCsrState} {m : ℕ} (h : s.RmFollows m) (hi : t.rmInvalid = s.rmInvalid)
    (hr : t.rc = s.rc) : t.RmFollows m :=
  ⟨hi.trans h.invalid_eq, fun rc hrc => hr.trans (h.rc_eq rc hrc)⟩

/-- `setFPRoundingMode` keeps `fcsr` below its top and `vxrm` as it was. -/
lemma fcsr_lt_setFPRoundingMode (h : s.fcsr.toNat < 2 ^ fcsrTop cfg) (oldRM newRM : ℕ) :
    (s.setFPRoundingMode oldRM newRM).fcsr.toNat < 2 ^ fcsrTop cfg := by
  rw [fcsr_setFPRoundingMode]
  split_ifs
  · exact BitField.set_lt_two_pow (f := Fcsr.frm) h (eight_le_fcsrTop cfg) _
  · exact h

lemma vxrm_setFPRoundingMode (oldRM newRM : ℕ) : (s.setFPRoundingMode oldRM newRM).vxrm = s.vxrm := by
  by_cases h : oldRM = newRM
  · subst h
    rw [setFPRoundingMode_self]
  · rw [setFPRoundingMode_of_ne s h]

lemma fpCsrInv_frmW (h : FpCsrInv cfg s) (v : UInt64) : FpCsrInv cfg (s.frmW v).1 :=
  ⟨fcsr_lt_setFPRoundingMode h.fcsr_lt _ _, (vxrm_setFPRoundingMode _ _).symm ▸ h.vxrm_lt,
    rmFollows_setFPRoundingMode s h.rm (.inl rfl)⟩

lemma fpCsrInv_fcsrW (h : FpCsrInv cfg s) (v : UInt64) : FpCsrInv cfg (s.fcsrW cfg v).1 := by
  -- `t`: the state once the flags and the rounding mode of the masked value are in
  set w := v &&& fcsrMask cfg
  set t : FpCsrState := (({ s with fcsr := w } : FpCsrState).setFPFlags (extractFlags w)).setFPRoundingMode
    s.getMasterFRM (Fcsr.frm.get w) with ht
  have hw : w.toNat < 2 ^ fcsrTop cfg :=
    lt_of_le_of_lt (by rw [UInt64.toNat_and]; exact Nat.and_le_right) (fcsrMask_lt cfg)
  have ht_fcsr : t.fcsr.toNat < 2 ^ fcsrTop cfg := fcsr_lt_setFPRoundingMode hw _ _
  have ht_vxrm : t.vxrm = s.vxrm := vxrm_setFPRoundingMode _ _
  have ht_rm : t.RmFollows t.getMasterFRM :=
    rmFollows_setFPRoundingMode _ (h.rm.of_eq rfl rfl) (.inr rfl)
  by_cases hc : vxFieldsInFCSR cfg
  · have hr : (s.fcsrW cfg v).1 =
        { t.setSatFlags (Fcsr.vxsat.get t.fcsr == 1) with vxrm := Vxrm.rm.set t.vxrm (Fcsr.vxrm.get t.fcsr) } := by
      simp only [fcsrW, hc, if_true]
      rfl
    rw [hr]
    exact ⟨ht_fcsr, BitField.set_lt_two_pow (by rw [ht_vxrm]; exact h.vxrm_lt) le_rfl _,
      ht_rm.of_eq rfl rfl⟩
  · have hr : (s.fcsrW cfg v).1 = t := by
      simp only [fcsrW, hc, Bool.false_eq_true, if_false]
      rfl
    rw [hr]
    exact ⟨ht_fcsr, ht_vxrm ▸ h.vxrm_lt, ht_rm⟩

lemma fpCsrInv_vxrmW (h : FpCsrInv cfg s) (v : UInt64) : FpCsrInv cfg (s.vxrmW cfg v).1 := by
  have hfrm := getMasterFRM_vxrmW cfg s v
  rw [vxrmW_eq] at hfrm ⊢
  refine ⟨?_, BitField.set_lt_two_pow h.vxrm_lt le_rfl _, hfrm ▸ h.rm.of_eq rfl rfl⟩
  split_ifs with hc
  · -- the alias of `vxrm` is the top field of `fcsr`
    have htop : fcsrTop cfg = 11 := if_pos hc
    exact BitField.set_lt_two_pow h.fcsr_lt (by rw [htop]; rfl) _
  · exact h.fcsr_lt

lemma fpCsrInv_fcsrR (h : FpCsrInv cfg s) : FpCsrInv cfg (s.fcsrR cfg).1 := by
  have hfrm := getMasterFRM_fcsrR cfg s
  have hflags : (composeFlags s.fcsr s.getFPFlags).toNat < 2 ^ fcsrTop cfg := by
    rw [composeFlags_eq]
    exact BitField.set_lt_two_pow h.fcsr_lt (by have := eight_le_fcsrTop cfg; simp only [Fcsr.flags]; omega) _
  refine ⟨?_, h.vxrm_lt, hfrm ▸ h.rm.of_eq rfl rfl⟩
  by_cases hc : vxFieldsInFCSR cfg
  · have htop : fcsrTop cfg = 11 := if_pos hc
    simp only [fcsrR, hc, if_true]
    exact BitField.set_lt_two_pow (BitField.set_lt_two_pow hflags (by rw [htop]; decide) _)
      (by rw [htop]; rfl) _
  · simp only [fcsrR, hc, Bool.false_eq_true, if_false]
    exact hflags

/-- **One step** keeps the invariant. -/
theorem fpCsrInv_step (h : FpCsrInv cfg s) (op : FpCsrOp) : FpCsrInv cfg (fpCsrStep cfg s op) := by
  cases op with
  | fflagsW v => exact ⟨h.fcsr_lt, h.vxrm_lt, h.rm.of_eq rfl rfl⟩
  | frmW v => exact fpCsrInv_frmW h v
  | fcsrW v => exact fpCsrInv_fcsrW h v
  | vxsatW v => exact ⟨h.fcsr_lt, h.vxrm_lt, h.rm.of_eq rfl rfl⟩
  | vxrmW v => exact fpCsrInv_vxrmW h v
  | vcsrW v => exact ⟨h.fcsr_lt, BitField.set_lt_two_pow h.vxrm_lt le_rfl _, h.rm.of_eq rfl rfl⟩
  | fcsrR => exact fpCsrInv_fcsrR h
  | vcsrR => exact ⟨h.fcsr_lt, h.vxrm_lt, h.rm.of_eq rfl rfl⟩
  | raiseFPFlags f => exact ⟨h.fcsr_lt, h.vxrm_lt, h.rm.of_eq rfl rfl⟩
  | raiseSat b => exact ⟨h.fcsr_lt, h.vxrm_lt, h.rm.of_eq rfl rfl⟩
  | consolidateFPFlags => exact ⟨h.fcsr_lt, h.vxrm_lt, h.rm.of_eq rfl rfl⟩

/-- **Every run** keeps the invariant. -/
theorem run_fpCsrInv (h : FpCsrInv cfg s) (ops : List FpCsrOp) :
    FpCsrInv cfg (StepSystem.run (fpCsrStep cfg) s ops) :=
  @StepSystem.run_invariant _ _ (fpCsrStep cfg) (fun _ => True) (FpCsrInv cfg)
    (fun _ op _ hs => fpCsrInv_step hs op) s ops h (fun _ _ => trivial)

end FpCsrState

/-! ### The reads -/

/-- The six CSRs of a model state read as those of a specification state. -/
structure ReadsAs (cfg : FpCsrConfig) (s : FpCsrState) (p : FpCsrSpec) : Prop where
  fflags : s.fflagsR.toBitVec = p.fflagsRead
  frm : s.frmR.toBitVec = p.frmRead
  fcsr : (s.fcsrR cfg).2.toBitVec = p.fcsrRead cfg
  vxsat : s.vxsatR.toBitVec = p.vxsatRead
  vxrm : s.vxrmR.toBitVec = p.vxrmRead
  vcsr : s.vcsrR.2.toBitVec = p.vcsrRead

namespace FpCsrState

variable {cfg : FpCsrConfig} (s : FpCsrState)

lemma fflagsR_toBitVec : s.fflagsR.toBitVec = (view s).fflagsRead := by
  rw [fflagsR, composeFlags_eq, BitField.toBitVec_set_zero rfl]
  exact congrArg (BitVec.setWidth 64) (BitVec.ofNat_toNat _ _)

lemma frmR_toBitVec : s.frmR.toBitVec = (view s).frmRead :=
  BitField.toBitVec_set_zero rfl _

lemma vxsatR_toBitVec : s.vxsatR.toBitVec = (view s).vxsatRead := by
  simp only [vxsatR, view, FpCsrSpec.vxsatRead]
  cases s.getSatFlags <;> rfl

lemma vxrmR_toBitVec (h : s.vxrm.toNat < 2 ^ 2) : s.vxrmR.toBitVec = (view s).vxrmRead := by
  rw [vxrmR, ← BitField.set_zero_get (f := Vxrm.rm) rfl h, BitField.toBitVec_set_zero rfl]
  rfl

lemma vcsrR_toBitVec : s.vcsrR.2.toBitVec = (view s).vcsrRead := by
  apply BitVec.eq_of_getLsbD_eq
  intro i hi
  simp only [vcsrR, getLsbD_toBitVec_uint64, BitField.testBit_set_toNat (f := Vcsr.vxsat) rfl,
    BitField.testBit_set, view, FpCsrSpec.vcsrRead, BitVec.getLsbD_setWidth, BitVec.getLsbD_append,
    BitVec.getLsbD_ofBool, BitVec.getLsbD_ofNat]
  simp only [Vcsr.vxrm, Vcsr.vxsat, BitField.Mem, decide_eq_true hi, Bool.true_and]
  rcases Nat.lt_or_ge i 3 with h3 | h3
  · interval_cases i <;> simp
  · simp [show ¬ i < 1 + 2 by omega, show i ≠ 0 by omega, show ¬ i - 1 < 2 by omega]

/-- `fcsr` reads its fields side by side: the flags, `frm` from the register,
and with Vector Version 0.8 the saturation flag and `vxrm`, given no bit of
the register above its top field. -/
lemma fcsrR_toBitVec (h : s.fcsr.toNat < 2 ^ fcsrTop cfg) :
    (s.fcsrR cfg).2.toBitVec = (view s).fcsrRead cfg := by
  have hhigh : ∀ i, fcsrTop cfg ≤ i → s.fcsr.toNat.testBit i = false := fun i hi =>
    Nat.testBit_lt_two_pow (lt_of_lt_of_le h (Nat.pow_le_pow_right (by norm_num) hi))
  apply BitVec.eq_of_getLsbD_eq
  intro i hi
  by_cases hc : vxFieldsInFCSR cfg
  · have htop : fcsrTop cfg = 11 := if_pos hc
    simp only [fcsrR, hc, if_true, composeFlags_eq, getLsbD_toBitVec_uint64,
      BitField.testBit_set_toNat (f := Fcsr.vxsat) rfl, BitField.testBit_set, view,
      FpCsrSpec.fcsrRead, BitVec.getLsbD_setWidth, BitVec.getLsbD_append, BitVec.getLsbD_ofBool,
      BitVec.getLsbD_ofNat, BitVec.testBit_toNat, getMasterFRM, BitField.testBit_get]
    simp only [Fcsr.vxrm, Fcsr.vxsat, Fcsr.flags, Fcsr.frm, Vxrm.rm, BitField.Mem,
      decide_eq_true hi, Bool.true_and]
    rcases Nat.lt_or_ge i 11 with h11 | h11
    · interval_cases i <;> simp
    · -- above the fixed point fields: nothing on either side
      simp [show ¬ i < 9 + 2 by omega, show i ≠ 8 by omega, show ¬ i < 5 by omega,
        show ¬ i - 5 < 3 by omega, show ¬ i - 5 - 3 < 1 by omega, show ¬ i - 5 - 3 - 1 < 2 by omega,
        hhigh i (by omega)]
  · have htop : fcsrTop cfg = 8 := if_neg hc
    simp only [fcsrR, hc, Bool.false_eq_true, if_false, composeFlags_eq, getLsbD_toBitVec_uint64,
      BitField.testBit_set, view, FpCsrSpec.fcsrRead, BitVec.getLsbD_setWidth,
      BitVec.getLsbD_append, BitVec.getLsbD_ofNat, BitVec.testBit_toNat, getMasterFRM,
      BitField.testBit_get]
    simp only [Fcsr.flags, Fcsr.frm, BitField.Mem, decide_eq_true hi, Bool.true_and]
    rcases Nat.lt_or_ge i 8 with h8 | h8
    · interval_cases i <;> simp
    · -- above `frm`: the register has no bit there
      simp [show ¬ i < 5 by omega, show ¬ i - 5 < 3 by omega, hhigh i (by omega)]

/-- Under the invariant the six CSRs read as the view. -/
theorem readsAs_view (h : FpCsrInv cfg s) : ReadsAs cfg s (view s) :=
  ⟨fflagsR_toBitVec s, frmR_toBitVec s, fcsrR_toBitVec s h.fcsr_lt, vxsatR_toBitVec s,
    vxrmR_toBitVec s h.vxrm_lt, vcsrR_toBitVec s⟩

/-- The state `riscvCSRInit` leaves: the registers clear, no flag, the key of
rounding mode 0 as `updateCurrentRMValid` sets it, and the floating point
unit rounding to nearest. -/
def init : FpCsrState := ⟨0, 0, 0, .none, .none, false, false, false, .NEAREST⟩

lemma fpCsrInv_init (cfg : FpCsrConfig) : FpCsrInv cfg init :=
  ⟨Nat.two_pow_pos _, by decide, ⟨rfl, fun rc h => Option.some.inj h⟩⟩

end FpCsrState

/-- **The six CSRs refine the four fields**: after any run of CSR accesses,
instructions and `mstatus` accesses from a state of the invariant, each of
`fflags`, `frm`, `fcsr`, `vxsat`, `vxrm` and `vcsr` reads what the fields,
run through the same operations, read. -/
theorem fpCsr_reads_refine (cfg : FpCsrConfig) {s₀ : FpCsrState} (h₀ : FpCsrInv cfg s₀)
    (ops : List FpCsrOp) :
    ReadsAs cfg (StepSystem.run (fpCsrStep cfg) s₀ ops)
      (StepSystem.run (FpCsrSpec.step cfg) s₀.view ops) := by
  rw [← FpCsrState.run_view]
  exact FpCsrState.readsAs_view _ (FpCsrState.run_fpCsrInv h₀ ops)

theorem fpCsr_reads_refine_init :
    FpCsrInv ⟨false, true, true⟩ FpCsrState.init ∧
      ReadsAs ⟨false, true, true⟩
        (StepSystem.run (fpCsrStep ⟨false, true, true⟩) FpCsrState.init
          [.fcsrW 0x7E5, .raiseFPFlags ⟨true, false, false, false, false, true⟩, .vxrmW 2])
        (StepSystem.run (FpCsrSpec.step ⟨false, true, true⟩) FpCsrState.init.view
          [.fcsrW 0x7E5, .raiseFPFlags ⟨true, false, false, false, false, true⟩, .vxrmW 2]) :=
  ⟨FpCsrState.fpCsrInv_init _, fpCsr_reads_refine _ (FpCsrState.fpCsrInv_init _) _⟩

end RiscvOvpsim
