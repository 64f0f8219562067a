import RiscvOvpsim.Basic
import RiscvOvpsim.Lib.BitField

/-!
The privilege state of a hart (`riscvStructure.h`, `riscvCSR.h`): the current
mode, Debug mode, `mstatus` and `dcsr` with the fields of their C bit-field
views, the trap registers of each mode, the delegation registers, `satp.MODE`,
and the data domain the simulator uses for loads and stores.

* `Mstatus.*`, `Dcsr.*`: the fields the trap, return and Debug functions read
  and write, at the bit positions of `CSR_REG_TYPE_64(status)` and
  `CSR_REG_TYPE_32(dcsr)`;
* `HartConfig`: what the configuration fixes: implemented modes, privilege
  version, the simulator's memory domains, reset values and write masks;
* `Hart`: the state;
* `Mstatus.IE_disjoint_PIE`, ...: the fields a trap writes are pairwise
  disjoint, so that a write of one leaves the others.
-/

namespace RiscvOvpsim

/-! ### Register fields -/

namespace Mstatus

def UIE : BitField := ⟨0, 1, BitField.fits_bit_zero⟩
def SIE : BitField := ⟨1, 1, by norm_num⟩
def MIE : BitField := ⟨3, 1, by norm_num⟩
def UPIE : BitField := ⟨4, 1, by norm_num⟩
def SPIE : BitField := ⟨5, 1, by norm_num⟩
def MPIE : BitField := ⟨7, 1, by norm_num⟩
def SPP : BitField := ⟨8, 1, by norm_num⟩
def MPP : BitField := ⟨11, 2, by norm_num⟩
def MPRV : BitField := ⟨17, 1, by norm_num⟩

/-- `_X##IE` of `TARGET_MODE_X` and the returns: the trap functions take
User and Supervisor mode by name and every other mode as Machine mode. -/
def IE : RiscvMode → BitField
  | .user => UIE
  | .supervisor => SIE
  | _ => MIE

/-- `_X##PIE`, as `IE`. -/
def PIE : RiscvMode → BitField
  | .user => UPIE
  | .supervisor => SPIE
  | _ => MPIE

/-- `_X##PP`: the field where a trap to `X` saves the previous mode and from
which its return takes it.  A trap to User mode saves none: its field has no
bits. -/
def PP : RiscvMode → BitField
  | .user => ⟨0, 0, by norm_num⟩
  | .supervisor => SPP
  | _ => MPP

end Mstatus

namespace Dcsr

def prv : BitField := ⟨0, 2, by norm_num⟩
def mprven : BitField := ⟨4, 1, by norm_num⟩
def cause : BitField := ⟨6, 3, by norm_num⟩
def stopcount : BitField := ⟨10, 1, by norm_num⟩

end Dcsr

/-- The fields of `xcause` a basic-mode trap writes. -/
structure TrapCause where
  Interrupt : Bool
  ExceptionCode : ℕ
  deriving DecidableEq, Repr

/-! ### Configuration and state -/

/-- What the configuration fixes.  The memory domains are compared by
identity, as the source compares the pointers: `vmDomain m` is
`vmDomains[m][0]`, which exists for the modes with virtual memory, and
`physDomain m` is `physDomains[m][0]`. -/
structure HartConfig (Dom : Type) where
  modes : ModeConfig
  privVersion : RiscvPrivVer
  vmDomain : RiscvMode → Option Dom
  physDomain : RiscvMode → Dom
  /-- `Sv_modes`: the bit mask of the supported `satp.MODE` values -/
  SvModes : ℕ
  /-- the reset value of `mstatus` -/
  mstatusReset : UInt64
  /-- the writable bits of `dcsr` -/
  dcsrMask : UInt64
  /-- whether the configured architecture has compressed instructions -/
  archC : Bool
  /-- `_X##IMode`: the custom vectoring mode of each mode, before version 1.10 -/
  IMode : RiscvMode → ℕ
  /-- `reset_address` -/
  resetAddress : UInt64

/-- The state of a hart these functions read and write.  `mode` is the
current mode, `dmode` the mode of data accesses, `dataDomain` the last domain
passed to `vmirtSetProcessorDataDomain`; `C` is whether the current
architecture has compressed instructions. -/
structure Hart (Dom : Type) where
  mode : RiscvMode
  DM : Bool
  mstatus : UInt64
  dcsr : UInt64
  dpc : UInt64
  satpMODE : ℕ
  dmode : RiscvMode
  dataDomain : Dom
  medeleg : UInt64
  sedeleg : UInt64
  mideleg : UInt64
  sideleg : UInt64
  cause : RiscvMode → TrapCause
  epc : RiscvMode → UInt64
  tval : RiscvMode → UInt64
  tvec : RiscvMode → UInt64
  pc : UInt64
  C : Bool

/-- `maskEPC`: the writable bits of `xepc`, all but bit 0 with compressed
instructions, else all but bits 0 and 1. -/
def HartConfig.maskEPC {Dom : Type} (cfg : HartConfig Dom) : UInt64 :=
  if cfg.archC then 0 - 2 else 0 - 4

/-! ### Disjointness of the trap fields -/

namespace Mstatus

lemma IE_disjoint_PIE (m n : RiscvMode) : (IE m).Disjoint (PIE n) := by
  cases m <;> cases n <;> decide

lemma IE_disjoint_MPRV (m : RiscvMode) : (IE m).Disjoint MPRV := by
  cases m <;> decide

lemma PIE_disjoint_MPRV (m : RiscvMode) : (PIE m).Disjoint MPRV := by
  cases m <;> decide

lemma IE_width_le_PIE (m : RiscvMode) : (IE m).width ≤ (PIE m).width := by
  cases m <;> decide

lemma one_le_PIE_width (m : RiscvMode) : 1 ≤ (PIE m).width := by
  cases m <;> decide

lemma IE_disjoint_PP (m : RiscvMode) : (IE m).Disjoint (PP m) := by
  cases m <;> decide

lemma PIE_disjoint_PP (m : RiscvMode) : (PIE m).Disjoint (PP m) := by
  cases m <;> decide

lemma PP_disjoint_MPRV (m : RiscvMode) : (PP m).Disjoint MPRV := by
  cases m <;> decide

end Mstatus

end RiscvOvpsim
