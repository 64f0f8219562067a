import RiscvOvpsim.Clic.Write
import RiscvOvpsim.Hart.Trap
import RiscvOvpsim.Lib.StepSystem

/-!
The CSRs of a hart in CLIC mode (`riscvCSR.c`, `riscvExceptions.c`): the
CLIC fields of `xcause`, `mintstatus`, the trap vector registers, the
`xnxti` CSRs by which a handler takes the next interrupt, and the
`xscratchcsw` CSRs by which it swaps stacks; with the CLIC part of a trap and
of its return.

In CLIC mode a trap to mode `X` saves the interrupt level `mintstatus.xil` in
`xcause.pil` and raises `xil` to the level of the trap; its return restores
`xil` from `pil`.  A write of `xnxti` in between may take further interrupts,
each raising `xil`, and leaves `pil` alone, so the return goes back to the
level that was interrupted.  `xcause.pp` and `xcause.pie` are aliases of
`mstatus.xPP` and `xPIE`: a read refreshes them, a write goes through to
`mstatus`.

* `ClicCsrConfig`, `ClicCsrState`, `ClicCsrOp`, `clicCsrStep`: the model;
* `AliasesAgree`, `xcause_aliases_agree`: after a read or a write of
  `xcause` in CLIC mode its aliases equal their masters in `mstatus`;
* `writeNxti_claim`: a write of `xnxti` is the status write alone, or it
  returns a handler and raises `xil` to the level of an interrupt above
  `xcause.pil`;
* `writeScratchcsw_twice`: a second swap of `xscratchcsw` with what the
  first returned undoes it;
* `TvecLegal`, `run_tvecLegal`: no run leaves a reserved vectoring mode, a
  mode other than CLIC without a basic controller, or a misaligned CLIC
  vector table;
* `clic_trap_return_level`, `clic_preemptible_handler_level`: a trap to `X`,
  a handler run, and the return from `X` restore `mintstatus.xil`, for a
  handler that writes neither `xcause` nor `xtvec` of `X`, and for one that
  saves `xcause` on entry and writes it back before its return.
-/

namespace RiscvOvpsim

/-! ### Registers

The bound of each field is a lemma of its own, as for the floating point
CSRs: a proof inside a field's definition would be shared with every earlier
definition of the same bound. -/

namespace Cause

theorem ExceptionCode_fits : 0 + 16 ≤ 64 := by norm_num
theorem pil_fits : 16 + 8 ≤ 64 := by norm_num
theorem pie_fits : 27 + 1 ≤ 64 := by norm_num
theorem pp_fits : 28 + 2 ≤ 64 := by norm_num
theorem inhv_fits : 30 + 1 ≤ 64 := by norm_num
theorem Interrupt_fits (is64 : Bool) : (if is64 then 63 else 31) + 1 ≤ 64 := by
  cases is64 <;> decide

def ExceptionCode : BitField := ⟨0, 16, ExceptionCode_fits⟩
def pil : BitField := ⟨16, 8, pil_fits⟩
def pie : BitField := ⟨27, 1, pie_fits⟩
def pp : BitField := ⟨28, 2, pp_fits⟩
def inhv : BitField := ⟨30, 1, inhv_fits⟩

/-- `Interrupt`: the top bit of the register at its XLEN. -/
def Interrupt (is64 : Bool) : BitField := ⟨if is64 then 63 else 31, 1, Interrupt_fits is64⟩

end Cause

namespace Mintstatus

theorem uil_fits : 0 + 8 ≤ 64 := by norm_num
theorem sil_fits : 8 + 8 ≤ 64 := by norm_num
theorem mil_fits : 24 + 8 ≤ 64 := by norm_num

def uil : BitField := ⟨0, 8, uil_fits⟩
def sil : BitField := ⟨8, 8, sil_fits⟩
def mil : BitField := ⟨24, 8, mil_fits⟩

/-- `_x##il`: the level of mode `X`, taken as the trap functions take modes. -/
def il : RiscvMode → BitField
  | .user => uil
  | .supervisor => sil
  | _ => mil

end Mintstatus

namespace Tvec

theorem MODE_fits : 0 + 2 ≤ 64 := by norm_num

def MODE : BitField := ⟨0, 2, MODE_fits⟩

end Tvec

/-- `riscv_int_Direct`. -/
def riscv_int_Direct : ℕ := 0

/-- `riscv_int_Reserved`. -/
def riscv_int_Reserved : ℕ := 2

/-- `riscv_int_CLIC`. -/
def riscv_int_CLIC : ℕ := 3

/-! ### Configuration and state -/

/-- What the configuration fixes: the implemented modes, the XLEN, the CLIC
and the `cliccfg` it shares, `tvec_align`, `ecode_mask`, and the write masks
of `mstatus` and of the trap vector registers. -/
structure ClicCsrConfig where
  modes : ModeConfig
  is64 : Bool
  clic : ClicConfig
  cliccfg : UInt64
  tvecAlign : ℕ
  ecodeMask : UInt64
  mstatusMask : UInt64
  tvecMask : RiscvMode → UInt64

namespace ClicCsrConfig

variable (cfg : ClicCsrConfig)

/-- The mask of the write of `mstatus` through the alias of mode `X`:
`mstatusW`, `sstatusW` with `sstatus_AMASK` and `ustatusW` with
`ustatus_AMASK`. -/
def statusMask : RiscvMode → UInt64
  | .user => cfg.mstatusMask &&& 0x0000000000000011
  | .supervisor => cfg.mstatusMask &&& 0x80000003818de733
  | _ => cfg.mstatusMask

/-- `RISCV_XLEN_BYTES`. -/
def xlenBytes : ℕ := if cfg.is64 then 8 else 4

/-- The write mask of `xcause` that `riscvCSRInit` builds: every bit, or
with a CLIC `ExceptionCode` alone, limited by `ecode_mask`; then
`Interrupt`, and with a CLIC `pil`, `pie`, `inhv` with selective hardware
vectoring, and the bits of `pp` that `MPP` and `SPP` have. -/
def causeMask (X : RiscvMode) : UInt64 :=
  let m : UInt64 := if !cfg.clic.CLICPresent then 0 - 1 else Cause.ExceptionCode.set 0 0xffff
  let m := (Cause.Interrupt cfg.is64).set (m &&& cfg.ecodeMask) 1
  if cfg.clic.CLICPresent then
    let m := Cause.pie.set (Cause.pil.set m 0xff) 1
    let m := if cfg.clic.CLICSELHVEC then Cause.inhv.set m 1 else m
    if X = .machine then Cause.pp.set m 3 else if X = .supervisor then Cause.pp.set m 1 else m
  else m

/-- `tvecW`: the masked value, its mode made legal (CLIC mode without a basic
controller, the old mode for the reserved one), aligned to 64 bytes in CLIC
mode and to `tvec_align` in any vectored mode, with the mode in bits 0
and 1. -/
def tvecW (newValue oldValue mask : UInt64) : UInt64 :=
  let oldMode := (oldValue &&& 3).toNat
  let newValue := (newValue &&& mask) ||| (oldValue &&& ~~~mask)
  let newMode := (newValue &&& 3).toNat
  let newMode :=
    if !cfg.clic.basicICPresent then riscv_int_CLIC
    else if newMode = riscv_int_Reserved then oldMode
    else newMode
  let newValue := if newMode = riscv_int_CLIC then newValue &&& (0 - 0x40) else newValue
  let newValue :=
    if cfg.tvecAlign ≠ 0 ∧ newMode ≠ riscv_int_Direct then newValue &&& (0 - UInt64.ofNat cfg.tvecAlign)
    else newValue
  (newValue &&& (0 - 4)) ||| UInt64.ofNat newMode

end ClicCsrConfig

/-- The state of the CLIC mode CSRs of a hart, with `mstatus`, whose `xPP` and
`xPIE` are the masters of the aliases in `xcause`, and the hart's interrupt
state, whose selection `xnxti` reads and acknowledges. -/
structure ClicCsrState where
  mstatus : UInt64
  mintstatus : UInt64
  cause : RiscvMode → UInt64
  scratch : RiscvMode → UInt64
  tvec : RiscvMode → UInt64
  tvt : RiscvMode → UInt64
  int : IntHart
  inSaveRestore : Bool

/-- The value `statusW` leaves in `mstatus`: the masked write, with a value
of `MPP` naming a mode that is not implemented reverted. -/
def statusWValue (modes : ModeConfig) (oldValue newValue mask : UInt64) : UInt64 :=
  let newValue := (newValue &&& mask) ||| (oldValue &&& ~~~mask)
  let oldMPP := Mstatus.MPP.get oldValue
  let newMPP := Mstatus.MPP.get newValue
  if !riscvHasMode modes (RiscvMode.ofBits newMPP) then Mstatus.MPP.set newValue oldMPP
  else newValue

/-- `statusWValue` is what the hart model's `statusW` leaves in `mstatus`. -/
lemma statusW_mstatus {Dom : Type} (hcfg : HartConfig Dom) (h : Hart Dom) (newValue mask : UInt64) :
    (statusW hcfg h newValue mask).mstatus = statusWValue hcfg.modes h.mstatus newValue mask :=
  rfl

/-! ### The model -/

namespace ClicCsrState

variable (cfg : ClicCsrConfig) (s : ClicCsrState)

/-- `useCLICM`, `useCLICS`, `useCLICU`: `xtvec.MODE` is CLIC mode. -/
def useCLIC (X : RiscvMode) : Bool := Tvec.MODE.get (s.tvec X) = riscv_int_CLIC

/-- `statusW` on these registers: the masked write of `mstatus`, and a test
for interrupts when an interrupt enable rises. -/
def statusW (newValue mask : UInt64) : ClicCsrState :=
  let oldIE := s.mstatus &&& 0xf
  let newIE := ((newValue &&& mask) ||| (s.mstatus &&& ~~~mask)) &&& 0xf
  let s' := { s with mstatus := statusWValue cfg.modes s.mstatus newValue mask }
  if newIE &&& ~~~oldIE ≠ 0 then { s' with int := s'.int.riscvTestInterrupt cfg.clic cfg.cliccfg }
  else s'

/-- `mcauseR`, `scauseR`, `ucauseR`: with a CLIC, the aliases are refreshed
from `mstatus` in CLIC mode and cleared otherwise; User mode has no `pp`
alias. -/
def causeR (X : RiscvMode) : ClicCsrState × UInt64 :=
  if !cfg.clic.CLICPresent then (s, s.cause X)
  else
    let (pp, pie) :=
      if s.useCLIC X then ((Mstatus.PP X).get s.mstatus, (Mstatus.PIE X).get s.mstatus) else (0, 0)
    let c := s.cause X
    let c := if X = .user then c else Cause.pp.set c pp
    let c := Cause.pie.set c pie
    ({ s with cause := Function.update s.cause X c }, c)

def mcauseR : ClicCsrState × UInt64 := s.causeR cfg .machine
def scauseR : ClicCsrState × UInt64 := s.causeR cfg .supervisor
def ucauseR : ClicCsrState × UInt64 := s.causeR cfg .user

/-- `mcauseW` and `scauseW`: the masked write; in CLIC mode the writable bits
of `pp` (as `Uns32` arithmetic) and `pie` go through to `mstatus`, and `pp`
is set to what `mstatus` keeps; in basic mode, outside a save or restore,
the CLIC fields are cleared. -/
def causeW (X : RiscvMode) (newValue : UInt64) : ClicCsrState × UInt64 :=
  let c := newValue &&& cfg.causeMask X
  if !cfg.clic.CLICPresent then ({ s with cause := Function.update s.cause X c }, c)
  else if s.useCLIC X then
    let PPMask : UInt32 := UInt32.ofNat ((Mstatus.PP X).get cfg.mstatusMask)
    let oldPP : UInt32 := UInt32.ofNat ((Mstatus.PP X).get s.mstatus)
    let newPP : UInt32 := UInt32.ofNat (Cause.pp.get c)
    let newPP := (newPP &&& PPMask) ||| (oldPP &&& ~~~PPMask)
    let mstatus := (Mstatus.PP X).set s.mstatus newPP.toNat
    let mstatus := (Mstatus.PIE X).set mstatus (Cause.pie.get c)
    let c := Cause.pp.set c newPP.toNat
    ({ s with mstatus := mstatus, cause := Function.update s.cause X c }, c)
  else if !s.inSaveRestore then
    let c := Cause.pil.set (Cause.pie.set (Cause.pp.set (Cause.inhv.set c 0) 0) 0) 0
    ({ s with cause := Function.update s.cause X c }, c)
  else ({ s with cause := Function.update s.cause X c }, c)

def mcauseW (newValue : UInt64) : ClicCsrState × UInt64 := s.causeW cfg .machine newValue
def scauseW (newValue : UInt64) : ClicCsrState × UInt64 := s.causeW cfg .supervisor newValue

/-- `ucauseW`: as `causeW`, but with no `pp`: only `pie` goes through to
`mstatus.UPIE`, and basic mode leaves `pp` as written. -/
def ucauseW (newValue : UInt64) : ClicCsrState × UInt64 :=
  let c := newValue &&& cfg.causeMask .user
  if !cfg.clic.CLICPresent then ({ s with cause := Function.update s.cause .user c }, c)
  else if s.useCLIC .user then
    ({ s with mstatus := Mstatus.UPIE.set s.mstatus (Cause.pie.get c),
              cause := Function.update s.cause .user c }, c)
  else if !s.inSaveRestore then
    let c := Cause.pil.set (Cause.pie.set (Cause.inhv.set c 0) 0) 0
    ({ s with cause := Function.update s.cause .user c }, c)
  else ({ s with cause := Function.update s.cause .user c }, c)

/-- The write of `xcause` of mode `X`: `ucauseW` for User mode, `causeW`
for the others. -/
def xcauseW (X : RiscvMode) (newValue : UInt64) : ClicCsrState × UInt64 :=
  if X = .user then s.ucauseW cfg newValue else s.causeW cfg X newValue

/-- `READ_NXTI`: the address of the handler of the selected interrupt in the
table `xtvt`, when the interrupt is of mode `X`, above the level `xcause.pil`
and not vectored by hardware; zero otherwise.  The product of the `Uns32`
entry size and the `Int32` id is taken modulo `2^32`. -/
def readNxti (X : RiscvMode) : UInt64 :=
  let sel := s.int.sel
  if sel.priv = X ∧ Cause.pil.get (s.cause X) < sel.level.toNat ∧ !sel.shv then
    s.tvt X + UInt64.ofNat (cfg.xlenBytes * (sel.id % 2 ^ 32).toNat % 2 ^ 32)
  else 0

/-- `WRITE_NXTI`: the status write through the alias of `X`, then, when the
read names a handler, the interrupt is taken: `xil` rises to its level,
`xcause` records it, and it is acknowledged. -/
def writeNxti (X : RiscvMode) (newValue : UInt64) : ClicCsrState × UInt64 :=
  let s := s.statusW cfg newValue (cfg.statusMask X)
  let result := s.readNxti cfg X
  if result ≠ 0 then
    let sel := s.int.sel
    let c := Cause.ExceptionCode.set (s.cause X) (sel.id % 2 ^ 16).toNat
    let c := (Cause.Interrupt cfg.is64).set c 1
    ({ s with mintstatus := (Mintstatus.il X).set s.mintstatus sel.level.toNat,
              cause := Function.update s.cause X c,
              int := s.int.riscvAcknowledgeCLICInt cfg.clic cfg.cliccfg (sel.id % 2 ^ 32).toNat },
      result)
  else (s, result)

def mnxtiW (newValue : UInt64) : ClicCsrState × UInt64 := s.writeNxti cfg .machine newValue
def snxtiW (newValue : UInt64) : ClicCsrState × UInt64 := s.writeNxti cfg .supervisor newValue
def unxtiW (newValue : UInt64) : ClicCsrState × UInt64 := s.writeNxti cfg .user newValue

/-- `WRITE_SCRATCHCSW`: after `xcause` is refreshed, the swap of `xscratch`
with the value when `xcause.pp` is `X`; otherwise the value is returned. -/
def writeScratchcsw (X : RiscvMode) (newValue : UInt64) : ClicCsrState × UInt64 :=
  let s := (s.causeR cfg X).1
  if Cause.pp.get (s.cause X) = X.toNat then
    ({ s with scratch := Function.update s.scratch X newValue }, s.scratch X)
  else (s, newValue)

def mscratchcswW (newValue : UInt64) : ClicCsrState × UInt64 :=
  s.writeScratchcsw cfg .machine newValue
def sscratchcswW (newValue : UInt64) : ClicCsrState × UInt64 :=
  s.writeScratchcsw cfg .supervisor newValue

/-- `WRITE_SCRATCHCSWL`: the swap when exactly one of the interrupted and the
interrupting code is an interrupt handler, by `xcause.pil` and `xil`. -/
def writeScratchcswl (X : RiscvMode) (newValue : UInt64) : ClicCsrState × UInt64 :=
  let s := (s.causeR cfg X).1
  if (Cause.pil.get (s.cause X) = 0) ≠ ((Mintstatus.il X).get s.mintstatus = 0) then
    ({ s with scratch := Function.update s.scratch X newValue }, s.scratch X)
  else (s, newValue)

def mscratchcswlW (newValue : UInt64) : ClicCsrState × UInt64 :=
  s.writeScratchcswl cfg .machine newValue
def sscratchcswlW (newValue : UInt64) : ClicCsrState × UInt64 :=
  s.writeScratchcswl cfg .supervisor newValue
def uscratchcswlW (newValue : UInt64) : ClicCsrState × UInt64 :=
  s.writeScratchcswl cfg .user newValue

/-- `mtvecW`, `stvecW`, `utvecW` with `UPDATE_TVEC`: on a change into or out
of CLIC mode the pending interrupts are refreshed, and leaving it clears
`xcause.inhv` and `pil`. -/
def writeTvec (X : RiscvMode) (newValue : UInt64) : ClicCsrState × UInt64 :=
  let newValue := cfg.tvecW newValue (s.tvec X) (cfg.tvecMask X)
  let oldCLIC := s.useCLIC X
  let s := { s with tvec := Function.update s.tvec X newValue }
  let newCLIC := s.useCLIC X
  if oldCLIC ≠ newCLIC then
    let s :=
      if !newCLIC then
        { s with cause := Function.update s.cause X (Cause.pil.set (Cause.inhv.set (s.cause X) 0) 0) }
      else s
    ({ s with int := s.int.riscvUpdatePending cfg.clic cfg.cliccfg }, newValue)
  else (s, newValue)

def mtvecW (newValue : UInt64) : ClicCsrState × UInt64 := s.writeTvec cfg .machine newValue
def stvecW (newValue : UInt64) : ClicCsrState × UInt64 := s.writeTvec cfg .supervisor newValue
def utvecW (newValue : UInt64) : ClicCsrState × UInt64 := s.writeTvec cfg .user newValue

/-- `TARGET_MODE_X` on these registers, with the previous mode saved in
`SPP` or `MPP` after it: the interrupt enable stacked, `xcause` cleared
unless `mtvec` is in CLIC mode, the code recorded with the level `xil` in
`pil`, and `xil` set to the trap's level unless that is negative. -/
def targetModeX (X modeY : RiscvMode) (isInt : Bool) (ecode : ℕ) (level : ℤ) : ClicCsrState :=
  let IE := (Mstatus.IE X).get s.mstatus
  let IL := (Mintstatus.il X).get s.mintstatus
  let mstatus := (Mstatus.IE X).set ((Mstatus.PIE X).set s.mstatus IE) 0
  let c := if !s.useCLIC .machine then 0 else s.cause X
  let c := Cause.pil.set ((Cause.Interrupt cfg.is64).set (Cause.ExceptionCode.set c ecode) isInt.toNat) IL
  let mintstatus := if 0 ≤ level then (Mintstatus.il X).set s.mintstatus level.toNat else s.mintstatus
  let mstatus :=
    if X = .supervisor then Mstatus.SPP.set mstatus modeY.toNat
    else if X = .machine then Mstatus.MPP.set mstatus modeY.toNat
    else mstatus
  { s with mstatus := mstatus, mintstatus := mintstatus, cause := Function.update s.cause X c }

/-- `riscvMRET`, `riscvSRET`, `riscvURET` on these registers, outside Debug
mode: in CLIC mode `xil` is restored from `xcause.pil`; the enable is
unstacked, `xPP` set to the minimum mode, and `doERETCommon` tests for
interrupts. -/
def xret (X : RiscvMode) : ClicCsrState :=
  let mintstatus :=
    if s.useCLIC X then (Mintstatus.il X).set s.mintstatus (Cause.pil.get (s.cause X))
    else s.mintstatus
  let mstatus := (Mstatus.PIE X).set ((Mstatus.IE X).set s.mstatus ((Mstatus.PIE X).get s.mstatus)) 1
  let mstatus :=
    if X = .user then mstatus else (Mstatus.PP X).set mstatus (riscvGetMinMode cfg.modes).toNat
  { s with mstatus := mstatus, mintstatus := mintstatus,
           int := s.int.riscvTestInterrupt cfg.clic cfg.cliccfg }

end ClicCsrState

/-- The level a trap is taken at in `riscvTakeException`: an interrupt's
own; a synchronous exception that changes mode is taken at level 0, one that
stays in its mode at the level it was raised at (`-1`: no change). -/
def trapLevel (isInt : Bool) (intLevel : UInt8) (modeX modeY : RiscvMode) : ℤ :=
  if isInt then intLevel.toNat else if modeX ≠ modeY then 0 else -1

/-- What changes these registers: the reads of `xcause` (which refresh its
aliases), the writes of `xcause`, `xnxti`, `xscratchcsw`, `xscratchcswl` and
`xtvec`, a trap from mode `modeY` to `X` (of the interrupt level `intLevel`
the selection presents), and a return. -/
inductive ClicCsrOp where
  | causeR (X : RiscvMode)
  | causeW (X : RiscvMode) (newValue : UInt64)
  | nxtiW (X : RiscvMode) (newValue : UInt64)
  | scratchcswW (X : RiscvMode) (newValue : UInt64)
  | scratchcswlW (X : RiscvMode) (newValue : UInt64)
  | tvecW (X : RiscvMode) (newValue : UInt64)
  | trap (X modeY : RiscvMode) (isInt : Bool) (ecode : ℕ) (intLevel : UInt8)
  | xret (X : RiscvMode)

/-- One operation. -/
def clicCsrStep (cfg : ClicCsrConfig) (s : ClicCsrState) : ClicCsrOp → ClicCsrState
  | .causeR X => (s.causeR cfg X).1
  | .causeW X v => (s.xcauseW cfg X v).1
  | .nxtiW X v => (s.writeNxti cfg X v).1
  | .scratchcswW X v => (s.writeScratchcsw cfg X v).1
  | .scratchcswlW X v => (s.writeScratchcswl cfg X v).1
  | .tvecW X v => (s.writeTvec cfg X v).1
  | .trap X modeY isInt ecode intLevel =>
    s.targetModeX cfg X modeY isInt ecode (trapLevel isInt intLevel X modeY)
  | .xret X => s.xret cfg X

/-- The operations that leave `xcause.pil` and `xtvec` of `X` as they are:
every one but a write of either and a trap to `X`. -/
def KeepsPil (X : RiscvMode) : ClicCsrOp → Prop
  | .causeW Y _ | .tvecW Y _ | .trap Y _ _ _ _ => Y ≠ X
  | _ => True

/-! ### What each operation writes -/

namespace Cause

@[simp] lemma pil_get_pp_set (x : UInt64) (v : ℕ) : pil.get (pp.set x v) = pil.get x :=
  BitField.get_set_of_disjoint (by decide) x v

@[simp] lemma pil_get_pie_set (x : UInt64) (v : ℕ) : pil.get (pie.set x v) = pil.get x :=
  BitField.get_set_of_disjoint (by decide) x v

@[simp] lemma pil_get_ExceptionCode_set (x : UInt64) (v : ℕ) :
    pil.get (ExceptionCode.set x v) = pil.get x :=
  BitField.get_set_of_disjoint (by decide) x v

@[simp] lemma pil_get_Interrupt_set (is64 : Bool) (x : UInt64) (v : ℕ) :
    pil.get ((Interrupt is64).set x v) = pil.get x :=
  BitField.get_set_of_disjoint (by cases is64 <;> decide) x v

@[simp] lemma pil_get_inhv_set (x : UInt64) (v : ℕ) : pil.get (inhv.set x v) = pil.get x :=
  BitField.get_set_of_disjoint (by decide) x v

@[simp] lemma pp_get_pie_set (x : UInt64) (v : ℕ) : pp.get (pie.set x v) = pp.get x :=
  BitField.get_set_of_disjoint (by decide) x v

@[simp] lemma pie_get_pp_set (x : UInt64) (v : ℕ) : pie.get (pp.set x v) = pie.get x :=
  BitField.get_set_of_disjoint (by decide) x v

end Cause

lemma Mintstatus.il_width (X : RiscvMode) : (Mintstatus.il X).width = 8 := by
  cases X <;> rfl

namespace ClicCsrState

variable (cfg : ClicCsrConfig) (s : ClicCsrState) (X Y : RiscvMode) (v : UInt64)

@[simp] lemma statusW_cause (m : UInt64) : (s.statusW cfg v m).cause = s.cause := by
  unfold statusW; dsimp only; split_ifs <;> rfl

@[simp] lemma statusW_tvec (m : UInt64) : (s.statusW cfg v m).tvec = s.tvec := by
  unfold statusW; dsimp only; split_ifs <;> rfl

@[simp] lemma statusW_mintstatus (m : UInt64) : (s.statusW cfg v m).mintstatus = s.mintstatus := by
  unfold statusW; dsimp only; split_ifs <;> rfl

@[simp] lemma causeR_tvec : (s.causeR cfg X).1.tvec = s.tvec := by
  unfold causeR; split_ifs <;> rfl

@[simp] lemma causeR_mstatus : (s.causeR cfg X).1.mstatus = s.mstatus := by
  unfold causeR; split_ifs <;> rfl

@[simp] lemma causeR_scratch : (s.causeR cfg X).1.scratch = s.scratch := by
  unfold causeR; split_ifs <;> rfl

/-- A read of `xcause` of `Y` leaves `pil` of every mode. -/
@[simp] lemma causeR_pil : Cause.pil.get ((s.causeR cfg Y).1.cause X) = Cause.pil.get (s.cause X) := by
  unfold causeR
  by_cases hX : X = Y
  · subst hX
    split_ifs <;> simp
  · split_ifs <;> simp [Function.update_of_ne hX]

lemma causeR_cause_of_ne (h : Y ≠ X) : (s.causeR cfg Y).1.cause X = s.cause X := by
  unfold causeR
  split_ifs <;> simp [Function.update_of_ne h.symm]

@[simp] lemma xcauseW_tvec : (s.xcauseW cfg Y v).1.tvec = s.tvec := by
  unfold xcauseW ucauseW causeW; split_ifs <;> rfl

lemma xcauseW_cause_of_ne (h : Y ≠ X) : (s.xcauseW cfg Y v).1.cause X = s.cause X := by
  unfold xcauseW
  split_ifs with hu
  · subst hu
    unfold ucauseW
    split_ifs <;> simp [Function.update_of_ne h.symm]
  · unfold causeW
    split_ifs <;> simp [Function.update_of_ne h.symm]

@[simp] lemma writeNxti_tvec : (s.writeNxti cfg Y v).1.tvec = s.tvec := by
  unfold writeNxti; dsimp only; split_ifs <;> simp

/-- A write of `xnxti` records a claimed interrupt in `ExceptionCode` and
`Interrupt`, never in `pil`. -/
@[simp] lemma writeNxti_pil : Cause.pil.get ((s.writeNxti cfg Y v).1.cause X) = Cause.pil.get (s.cause X) := by
  unfold writeNxti
  dsimp only
  by_cases hX : X = Y
  · subst hX
    split_ifs <;> simp
  · split_ifs <;> simp [Function.update_of_ne hX]

@[simp] lemma writeScratchcsw_tvec : (s.writeScratchcsw cfg Y v).1.tvec = s.tvec := by
  unfold writeScratchcsw; dsimp only; split_ifs <;> simp

@[simp] lemma writeScratchcsw_pil :
    Cause.pil.get ((s.writeScratchcsw cfg Y v).1.cause X) = Cause.pil.get (s.cause X) := by
  unfold writeScratchcsw; dsimp only; split_ifs <;> simp

@[simp] lemma writeScratchcswl_tvec : (s.writeScratchcswl cfg Y v).1.tvec = s.tvec := by
  unfold writeScratchcswl; dsimp only; split_ifs <;> simp

@[simp] lemma writeScratchcswl_pil :
    Cause.pil.get ((s.writeScratchcswl cfg Y v).1.cause X) = Cause.pil.get (s.cause X) := by
  unfold writeScratchcswl; dsimp only; split_ifs <;> simp

lemma writeTvec_tvec : (s.writeTvec cfg Y v).1.tvec = Function.update s.tvec Y (cfg.tvecW v (s.tvec Y) (cfg.tvecMask Y)) := by
  unfold writeTvec; dsimp only; split_ifs <;> rfl

lemma writeTvec_cause_of_ne (h : Y ≠ X) : (s.writeTvec cfg Y v).1.cause X = s.cause X := by
  unfold writeTvec
  dsimp only
  split_ifs <;> simp [Function.update_of_ne h.symm]

@[simp] lemma targetModeX_tvec (modeY : RiscvMode) (isInt : Bool) (ecode : ℕ) (level : ℤ) :
    (s.targetModeX cfg X modeY isInt ecode level).tvec = s.tvec := rfl

lemma targetModeX_cause_of_ne (h : Y ≠ X) (modeY : RiscvMode) (isInt : Bool) (ecode : ℕ) (level : ℤ) :
    (s.targetModeX cfg Y modeY isInt ecode level).cause X = s.cause X := by
  simp [targetModeX, Function.update_of_ne h.symm]

/-- A trap to `X` saves the level of `X` in `xcause.pil`. -/
lemma targetModeX_pil (modeY : RiscvMode) (isInt : Bool) (ecode : ℕ) (level : ℤ) :
    Cause.pil.get ((s.targetModeX cfg X modeY isInt ecode level).cause X) =
      (Mintstatus.il X).get s.mintstatus := by
  have hlt : (Mintstatus.il X).get s.mintstatus < 2 ^ Cause.pil.width := by
    have := (Mintstatus.il X).get_lt s.mintstatus
    rwa [Mintstatus.il_width] at this
  simp [targetModeX, Nat.mod_eq_of_lt hlt]

@[simp] lemma xret_tvec : (s.xret cfg X).tvec = s.tvec := rfl

@[simp] lemma xret_cause : (s.xret cfg X).cause = s.cause := rfl

/-- In CLIC mode a return restores the level of `X` from `xcause.pil`. -/
lemma xret_il (h : s.useCLIC X) : (Mintstatus.il X).get (s.xret cfg X).mintstatus = Cause.pil.get (s.cause X) := by
  have hlt : Cause.pil.get (s.cause X) < 2 ^ (Mintstatus.il X).width := by
    rw [Mintstatus.il_width]
    exact Cause.pil.get_lt (s.cause X)
  simp [xret, h, Nat.mod_eq_of_lt hlt]

end ClicCsrState

section Step

variable (cfg : ClicCsrConfig) (s : ClicCsrState) {X : RiscvMode}

open ClicCsrState

/-- Only a write of `xtvec` of `X` changes it. -/
lemma clicCsrStep_tvec {op : ClicCsrOp} (h : ∀ v, op ≠ .tvecW X v) :
    (clicCsrStep cfg s op).tvec X = s.tvec X := by
  cases op with
  | tvecW Y v =>
    have hY : Y ≠ X := fun e => h v (by rw [e])
    simp [clicCsrStep, writeTvec_tvec, Function.update_of_ne hY.symm]
  | _ => simp [clicCsrStep]

/-- The operations of `KeepsPil X` leave `xcause.pil` of `X`. -/
lemma clicCsrStep_pil {op : ClicCsrOp} (h : KeepsPil X op) :
    Cause.pil.get ((clicCsrStep cfg s op).cause X) = Cause.pil.get (s.cause X) := by
  cases op with
  | causeW Y v => simp only [clicCsrStep, xcauseW_cause_of_ne _ _ _ _ _ h]
  | tvecW Y v => simp only [clicCsrStep, writeTvec_cause_of_ne _ _ _ _ _ h]
  | trap Y modeY isInt ecode intLevel => simp only [clicCsrStep, targetModeX_cause_of_ne _ _ _ _ h]
  | _ => simp [clicCsrStep]

end Step

/-! ### The interrupt level across a handler -/

namespace ClicCsrConfig

variable (cfg : ClicCsrConfig)

/-- With a CLIC, every bit of `xcause.pil` is writable. -/
lemma causeMask_pil (h : cfg.clic.CLICPresent) (X : RiscvMode) : Cause.pil.get (cfg.causeMask X) = 2 ^ 8 - 1 := by
  unfold causeMask
  simp only [h, Bool.not_true, Bool.false_eq_true, if_false, if_true]
  split_ifs <;>
    simp only [Cause.pil_get_pp_set, Cause.pil_get_inhv_set, Cause.pil_get_pie_set, BitField.get_set] <;> rfl

end ClicCsrConfig

namespace ClicCsrState

variable (cfg : ClicCsrConfig) (s : ClicCsrState) (X : RiscvMode) (v : UInt64)

lemma causeR_snd : (s.causeR cfg X).2 = (s.causeR cfg X).1.cause X := by
  unfold causeR
  split_ifs <;> simp

/-- With a CLIC, a write of `xcause` in CLIC mode keeps the written `pil`. -/
lemma xcauseW_pil (hCLIC : cfg.clic.CLICPresent) (h : s.useCLIC X) :
    Cause.pil.get ((s.xcauseW cfg X v).1.cause X) = Cause.pil.get v := by
  have hmask : Cause.pil.get (v &&& cfg.causeMask X) = Cause.pil.get v :=
    BitField.get_and_of_get_eq (cfg.causeMask_pil hCLIC X) v
  unfold xcauseW
  split_ifs with hu
  · subst hu
    simp [ucauseW, hCLIC, h, hmask]
  · simp [causeW, hCLIC, h, hmask]

end ClicCsrState

lemma KeepsPil.ne_tvecW {X : RiscvMode} {op : ClicCsrOp} (h : KeepsPil X op) (v : UInt64) : op ≠ .tvecW X v := by
  rintro rfl
  exact h rfl

section Level

variable (cfg : ClicCsrConfig) {X : RiscvMode}

open ClicCsrState StepSystem

/-- Only a write of `xtvec` of `X` changes its vectoring mode, along a whole
run. -/
lemma run_tvec {s : ClicCsrState} {ops : List ClicCsrOp} (hops : ∀ v, ClicCsrOp.tvecW X v ∉ ops) :
    (run (clicCsrStep cfg) s ops).tvec X = s.tvec X :=
  (@run_conserved _ _ (clicCsrStep cfg) (fun op => ∀ v, op ≠ .tvecW X v) _ (fun _ => True)
    (fun s => s.tvec X) (fun s _ hop _ => ⟨trivial, clicCsrStep_tvec cfg s hop⟩) s ops trivial
    (fun _ hop v hv => hops v (hv ▸ hop))).2

/-- Along a run of operations of `KeepsPil X`, `xcause.pil` and `xtvec` of
`X` stay as they are. -/
lemma run_keepsPil {s : ClicCsrState} {ops : List ClicCsrOp} (hops : ∀ op ∈ ops, KeepsPil X op) :
    Cause.pil.get ((run (clicCsrStep cfg) s ops).cause X) = Cause.pil.get (s.cause X) :=
  (@run_conserved _ _ (clicCsrStep cfg) (KeepsPil X) _ (fun _ => True)
    (fun s => Cause.pil.get (s.cause X)) (fun s _ hop _ => ⟨trivial, clicCsrStep_pil cfg s hop⟩) s ops
    trivial hops).2

lemma useCLIC_of_tvec {s s' : ClicCsrState} (h : s'.tvec X = s.tvec X) (hs : s.useCLIC X) : s'.useCLIC X := by
  unfold useCLIC at hs ⊢
  rw [h]
  exact hs

/-- **A handler returns to the level it interrupted.**  In CLIC mode, a trap
to `X`, any run of operations that write neither `xcause.pil` nor `xtvec` of
`X` nor trap to `X` (claims of further interrupts by `xnxti` and traps to
other modes with their returns included), and the return from `X` leave
`mintstatus.xil` as it was before the trap. -/
theorem clic_trap_return_level (s : ClicCsrState) (hclic : s.useCLIC X) (modeY : RiscvMode)
    (isInt : Bool) (ecode : ℕ) (intLevel : UInt8) (ops : List ClicCsrOp)
    (hops : ∀ op ∈ ops, KeepsPil X op) :
    (Mintstatus.il X).get
        (run (clicCsrStep cfg) s (.trap X modeY isInt ecode intLevel :: ops ++ [.xret X])).mintstatus =
      (Mintstatus.il X).get s.mintstatus := by
  set s₁ := clicCsrStep cfg s (.trap X modeY isInt ecode intLevel) with hs₁
  have hnot : ∀ v, ClicCsrOp.tvecW X v ∉ ops := fun v hv => KeepsPil.ne_tvecW (hops _ hv) v rfl
  -- the handler run keeps `pil` and the vectoring mode the trap left
  have hclic' : (run (clicCsrStep cfg) s₁ ops).useCLIC X :=
    useCLIC_of_tvec ((run_tvec cfg hnot).trans rfl) hclic
  rw [List.cons_append, run_cons, ← hs₁, run_append, run_cons, run_nil]
  calc (Mintstatus.il X).get (clicCsrStep cfg (run (clicCsrStep cfg) s₁ ops) (.xret X)).mintstatus
      = Cause.pil.get ((run (clicCsrStep cfg) s₁ ops).cause X) := xret_il cfg _ X hclic'
    _ = Cause.pil.get (s₁.cause X) := run_keepsPil cfg hops
    _ = (Mintstatus.il X).get s.mintstatus := targetModeX_pil cfg s X _ _ _ _

/-- A Machine mode handler that claims a further interrupt by `mnxti` and is
preempted by a trap to Supervisor mode, which returns, comes back to level 0. -/
theorem clic_trap_return_level_nested :
    let cfg : ClicCsrConfig := ⟨⟨true, true⟩, true, ⟨0, 16, 256, false, false, 2, true, 8, 0, false, 0xaaa⟩,
      0, 0, 0xfff, 0x1888, fun _ => 0 - 1⟩
    let s : ClicCsrState := ⟨0, 0, fun _ => 0, fun _ => 0, fun _ => 3, fun _ => 0x1000,
      ⟨0, 0, 0, fun _ => 0, fun _ _ => 0, fun _ => 0, ⟨.machine, 20, 7, false⟩, true, false, false⟩, false⟩
    let ops : List ClicCsrOp :=
      [.nxtiW .machine 8, .trap .supervisor .machine true 5 3, .causeR .machine, .xret .supervisor]
    s.useCLIC .machine ∧ (∀ op ∈ ops, KeepsPil .machine op) ∧
      (Mintstatus.il .machine).get
          (run (clicCsrStep cfg) s (.trap .machine .user true 7 5 :: ops ++ [.xret .machine])).mintstatus =
        (Mintstatus.il .machine).get s.mintstatus := by
  intro cfg s ops
  have hclic : s.useCLIC .machine := by decide
  have hops : ∀ op ∈ ops, KeepsPil .machine op := by simp [ops, KeepsPil]
  exact ⟨hclic, hops, clic_trap_return_level cfg s hclic _ _ _ _ ops hops⟩

/-- **A preemptible handler returns to the level it interrupted.**  With a
CLIC, a handler of `X` in CLIC mode that reads `xcause` on entry and writes
it back before its return restores `mintstatus.xil`, whatever it does in
between but write `xtvec` of `X`: nested traps to `X` and their returns
included. -/
theorem clic_preemptible_handler_level (hCLIC : cfg.clic.CLICPresent) (s : ClicCsrState)
    (hclic : s.useCLIC X) (modeY : RiscvMode) (isInt : Bool) (ecode : ℕ) (intLevel : UInt8)
    (ops : List ClicCsrOp) (hops : ∀ v, ClicCsrOp.tvecW X v ∉ ops) :
    let s₁ := clicCsrStep cfg s (.trap X modeY isInt ecode intLevel)
    (Mintstatus.il X).get (run (clicCsrStep cfg) s
        (.trap X modeY isInt ecode intLevel :: .causeR X :: ops ++
          [.causeW X (s₁.causeR cfg X).2, .xret X])).mintstatus =
      (Mintstatus.il X).get s.mintstatus := by
  intro s₁
  set s₂ := clicCsrStep cfg s₁ (.causeR X) with hs₂
  set s₃ := run (clicCsrStep cfg) s₂ ops with hs₃
  -- the saved `xcause` holds the level the trap interrupted
  have hsaved : Cause.pil.get (s₁.causeR cfg X).2 = (Mintstatus.il X).get s.mintstatus := by
    rw [causeR_snd, causeR_pil]
    exact targetModeX_pil cfg s X _ _ _ _
  have hclic₂ : s₂.useCLIC X := useCLIC_of_tvec (by simp [s₂, s₁, clicCsrStep]) hclic
  have hclic₃ : s₃.useCLIC X := useCLIC_of_tvec (run_tvec cfg hops) hclic₂
  have hclic₄ : (s₃.xcauseW cfg X (s₁.causeR cfg X).2).1.useCLIC X :=
    useCLIC_of_tvec (by rw [xcauseW_tvec]) hclic₃
  rw [List.cons_append, List.cons_append, run_cons, run_cons, ← hs₂, run_append, ← hs₃]
  simp only [run_cons, run_nil, clicCsrStep]
  rw [xret_il cfg _ X hclic₄, xcauseW_pil cfg _ X _ hCLIC hclic₃, hsaved]

/-- A Machine mode handler preempted by a trap to Machine mode at a higher
level, which returns, comes back to level 0 once it writes `mcause` back. -/
theorem clic_preemptible_handler_level_nested :
    let cfg : ClicCsrConfig := ⟨⟨true, true⟩, true, ⟨0, 16, 256, false, false, 2, true, 8, 0, false, 0xaaa⟩,
      0, 0, 0xfff, 0x1888, fun _ => 0 - 1⟩
    let s : ClicCsrState := ⟨0, 0, fun _ => 0, fun _ => 0, fun _ => 3, fun _ => 0x1000,
      ⟨0, 0, 0, fun _ => 0, fun _ _ => 0, fun _ => 0, ⟨.machine, 20, 7, false⟩, true, false, false⟩, false⟩
    let ops : List ClicCsrOp := [.trap .machine .machine true 9 6, .causeR .machine, .xret .machine]
    let s₁ := clicCsrStep cfg s (.trap .machine .user true 7 5)
    cfg.clic.CLICPresent ∧ s.useCLIC .machine ∧ (∀ v, ClicCsrOp.tvecW .machine v ∉ ops) ∧
      (Mintstatus.il .machine).get (run (clicCsrStep cfg) s
          (.trap .machine .user true 7 5 :: .causeR .machine :: ops ++
            [.causeW .machine (s₁.causeR cfg .machine).2, .xret .machine])).mintstatus =
        (Mintstatus.il .machine).get s.mintstatus := by
  intro cfg s ops s₁
  have hCLIC : cfg.clic.CLICPresent := by decide
  have hclic : s.useCLIC .machine := by decide
  have hops : ∀ v, ClicCsrOp.tvecW .machine v ∉ ops := by simp [ops]
  exact ⟨hCLIC, hclic, hops, clic_preemptible_handler_level cfg hCLIC s hclic _ _ _ _ ops hops⟩

end Level

/-! ### The aliases of `xcause` -/

/-- The aliases of `xcause` of `X` agree with their masters in `mstatus`:
`pie` with `xPIE`, and but in User mode `pp` with `xPP`. -/
structure AliasesAgree (s : ClicCsrState) (X : RiscvMode) : Prop where
  pie : Cause.pie.get (s.cause X) = (Mstatus.PIE X).get s.mstatus
  pp : X ≠ .user → Cause.pp.get (s.cause X) = (Mstatus.PP X).get s.mstatus

lemma Mstatus.PIE_width (X : RiscvMode) : (Mstatus.PIE X).width = 1 := by
  cases X <;> rfl

lemma Mstatus.PP_width_le (X : RiscvMode) : (Mstatus.PP X).width ≤ 2 := by
  cases X <;> decide

/-- A value of a field of `mstatus` written into `xcause.pie` reads back. -/
lemma Cause.pie_get_set_PIE (x m : UInt64) (X : RiscvMode) :
    Cause.pie.get (Cause.pie.set x ((Mstatus.PIE X).get m)) = (Mstatus.PIE X).get m := by
  have hlt := (Mstatus.PIE X).get_lt m
  rw [Mstatus.PIE_width] at hlt
  rw [BitField.get_set]
  exact Nat.mod_eq_of_lt hlt

/-- A value below the width of `xPP` written into `xcause.pp` reads back. -/
lemma Cause.pp_get_set_of_lt {n : ℕ} {X : RiscvMode} (hn : n < 2 ^ (Mstatus.PP X).width) (x : UInt64) :
    Cause.pp.get (Cause.pp.set x n) = n := by
  have hle : 2 ^ (Mstatus.PP X).width ≤ 2 ^ 2 := Nat.pow_le_pow_right (by norm_num) (Mstatus.PP_width_le X)
  rw [BitField.get_set]
  exact Nat.mod_eq_of_lt (lt_of_lt_of_le hn hle)

/-- The `Uns32` merge of the writable bits of a new field value with the old
value stays below any power of two the mask and the old value are below. -/
lemma UInt32.merge_lt_two_pow {a o M : UInt32} {w : ℕ} (hM : M.toNat < 2 ^ w) (ho : o.toNat < 2 ^ w) :
    ((a &&& M) ||| (o &&& ~~~M)).toNat < 2 ^ w := by
  rw [UInt32.toNat_or, UInt32.toNat_and, UInt32.toNat_and]
  exact Nat.or_lt_two_pow (lt_of_le_of_lt Nat.and_le_right hM) (lt_of_le_of_lt Nat.and_le_left ho)

namespace ClicCsrState

variable (cfg : ClicCsrConfig) (s : ClicCsrState) (X : RiscvMode) (v : UInt64)

lemma toNat_ofNat_PP_get (m : UInt64) : (UInt32.ofNat ((Mstatus.PP X).get m)).toNat = (Mstatus.PP X).get m := by
  have hlt := (Mstatus.PP X).get_lt m
  have hle : 2 ^ (Mstatus.PP X).width ≤ 2 ^ 2 := Nat.pow_le_pow_right (by norm_num) (Mstatus.PP_width_le X)
  exact UInt32.toNat_ofNat_of_lt' (by unfold UInt32.size; omega)

/-- A read of `xcause` in CLIC mode refreshes its aliases from `mstatus`. -/
lemma causeR_aliasesAgree (hCLIC : cfg.clic.CLICPresent) (h : s.useCLIC X) :
    AliasesAgree (s.causeR cfg X).1 X := by
  constructor
  · simp only [causeR, hCLIC, h, Bool.not_true, Bool.false_eq_true, if_false, if_true, Function.update_self]
    exact Cause.pie_get_set_PIE _ _ X
  · intro hu
    simp only [causeR, hCLIC, h, hu, Bool.not_true, Bool.false_eq_true, if_false, if_true,
      Function.update_self, Cause.pp_get_pie_set]
    exact Cause.pp_get_set_of_lt ((Mstatus.PP X).get_lt s.mstatus) _

/-- A write of `xcause` in CLIC mode goes through to the masters, so that
they agree with the aliases it leaves. -/
lemma xcauseW_aliasesAgree (hCLIC : cfg.clic.CLICPresent) (h : s.useCLIC X) :
    AliasesAgree (s.xcauseW cfg X v).1 X := by
  unfold xcauseW
  split_ifs with hu
  · subst hu
    have hlt := Cause.pie.get_lt (v &&& cfg.causeMask .user)
    refine ⟨?_, fun hne => absurd rfl hne⟩
    simp only [ucauseW, hCLIC, h, Bool.not_true, Bool.false_eq_true, if_false, if_true, Function.update_self]
    rw [show Mstatus.PIE .user = Mstatus.UPIE from rfl, BitField.get_set]
    exact (Nat.mod_eq_of_lt hlt).symm
  · have hpie := Cause.pie.get_lt (v &&& cfg.causeMask X)
    constructor
    · simp only [causeW, hCLIC, h, Bool.not_true, Bool.false_eq_true, if_false, if_true, Function.update_self,
        Cause.pie_get_pp_set, BitField.get_set, Mstatus.PIE_width]
      exact (Nat.mod_eq_of_lt hpie).symm
    · intro _
      simp only [causeW, hCLIC, h, Bool.not_true, Bool.false_eq_true, if_false, if_true, Function.update_self]
      rw [BitField.get_set_of_disjoint (Mstatus.PIE_disjoint_PP X)]
      -- the merged `pp` is below the width of `xPP`, so both fields hold it whole
      set PPMask := UInt32.ofNat ((Mstatus.PP X).get cfg.mstatusMask)
      set newPP := (UInt32.ofNat (Cause.pp.get (v &&& cfg.causeMask X)) &&& PPMask) |||
        (UInt32.ofNat ((Mstatus.PP X).get s.mstatus) &&& ~~~PPMask)
      have hPP : newPP.toNat < 2 ^ (Mstatus.PP X).width := UInt32.merge_lt_two_pow
        (by rw [toNat_ofNat_PP_get]; exact (Mstatus.PP X).get_lt _)
        (by rw [toNat_ofNat_PP_get]; exact (Mstatus.PP X).get_lt _)
      rw [Cause.pp_get_set_of_lt hPP, BitField.get_set, Nat.mod_eq_of_lt hPP]

end ClicCsrState

/-- **The aliases of `xcause` are coherent.**  With a CLIC, in CLIC mode, a
read of `xcause` of `X` and any write of it leave `xcause.pie` equal to
`mstatus.xPIE` and, but in User mode, `xcause.pp` equal to `mstatus.xPP`. -/
theorem xcause_aliases_agree (cfg : ClicCsrConfig) (hCLIC : cfg.clic.CLICPresent) (s : ClicCsrState)
    {X : RiscvMode} (h : s.useCLIC X) :
    AliasesAgree (s.causeR cfg X).1 X ∧ ∀ v, AliasesAgree (s.xcauseW cfg X v).1 X :=
  ⟨s.causeR_aliasesAgree cfg X hCLIC h, fun v => s.xcauseW_aliasesAgree cfg X v hCLIC h⟩

/-- The aliases of `scause` after a read and after any write, in CLIC mode. -/
theorem xcause_aliases_agree_supervisor :
    let cfg : ClicCsrConfig := ⟨⟨true, true⟩, true, ⟨0, 16, 256, false, false, 2, true, 8, 0, false, 0xaaa⟩,
      0, 0, 0xfff, 0x1888, fun _ => 0 - 1⟩
    let s : ClicCsrState := ⟨0, 0, fun _ => 0, fun _ => 0, fun _ => 3, fun _ => 0x1000,
      ⟨0, 0, 0, fun _ => 0, fun _ _ => 0, fun _ => 0, ⟨.machine, 20, 7, false⟩, true, false, false⟩, false⟩
    cfg.clic.CLICPresent ∧ s.useCLIC .supervisor ∧ AliasesAgree (s.causeR cfg .supervisor).1 .supervisor ∧
      ∀ v, AliasesAgree (s.xcauseW cfg .supervisor v).1 .supervisor := by
  intro cfg s
  have hCLIC : cfg.clic.CLICPresent := by decide
  have hclic : s.useCLIC .supervisor := by decide
  exact ⟨hCLIC, hclic, xcause_aliases_agree cfg hCLIC s hclic⟩

/-! ### Claims by `xnxti` -/

namespace ClicCsrState

variable (cfg : ClicCsrConfig) (s : ClicCsrState) (X : RiscvMode) (v : UInt64)

/-- `READ_NXTI` names a handler only for an interrupt of `X` above
`xcause.pil` that hardware does not vector. -/
lemma readNxti_ne_zero (h : s.readNxti cfg X ≠ 0) :
    s.int.sel.priv = X ∧ Cause.pil.get (s.cause X) < s.int.sel.level.toNat ∧ s.int.sel.shv = false := by
  unfold readNxti at h
  dsimp only at h
  split_ifs at h with hc
  · obtain ⟨hp, hl, hs⟩ := hc
    exact ⟨hp, hl, by simpa using hs⟩
  · exact absurd rfl h

/-- A write of `xnxti` whose read gives zero is the status write alone. -/
lemma writeNxti_of_eq_zero (h : (s.statusW cfg v (cfg.statusMask X)).readNxti cfg X = 0) :
    s.writeNxti cfg X v = (s.statusW cfg v (cfg.statusMask X), 0) := by
  unfold writeNxti
  dsimp only
  rw [if_neg (not_not.mpr h), h]

/-- A write of `xnxti` whose read names a handler returns it and raises `xil`
to the level of the selected interrupt. -/
lemma writeNxti_of_ne_zero (h : (s.statusW cfg v (cfg.statusMask X)).readNxti cfg X ≠ 0) :
    (s.writeNxti cfg X v).2 = (s.statusW cfg v (cfg.statusMask X)).readNxti cfg X ∧
      (Mintstatus.il X).get (s.writeNxti cfg X v).1.mintstatus =
        (s.statusW cfg v (cfg.statusMask X)).int.sel.level.toNat := by
  have hlvl : (s.statusW cfg v (cfg.statusMask X)).int.sel.level.toNat < 2 ^ (Mintstatus.il X).width := by
    rw [Mintstatus.il_width]
    exact UInt8.toNat_lt _
  unfold writeNxti
  dsimp only
  rw [if_pos h]
  exact ⟨rfl, by rw [BitField.get_set, Nat.mod_eq_of_lt hlvl]⟩

end ClicCsrState

/-- **`xnxti` claims only interrupts above the interrupted level.**  A write
of `xnxti` of `X` is the status write alone and returns zero, or it returns a
handler and then the selection after the status write was an interrupt of
`X` above `xcause.pil`, not vectored by hardware, whose level `xil` now holds;
`xcause.pil` stays. -/
theorem writeNxti_claim (cfg : ClicCsrConfig) (s : ClicCsrState) (X : RiscvMode) (v : UInt64) :
    let s₁ := s.statusW cfg v (cfg.statusMask X)
    let r := s.writeNxti cfg X v
    (r.2 = 0 ∧ r.1 = s₁) ∨
      (r.2 ≠ 0 ∧ s₁.int.sel.priv = X ∧ Cause.pil.get (s.cause X) < s₁.int.sel.level.toNat ∧
        s₁.int.sel.shv = false ∧ (Mintstatus.il X).get r.1.mintstatus = s₁.int.sel.level.toNat ∧
        Cause.pil.get (r.1.cause X) = Cause.pil.get (s.cause X)) := by
  intro s₁ r
  have hpil : Cause.pil.get (r.1.cause X) = Cause.pil.get (s.cause X) := s.writeNxti_pil cfg X X v
  by_cases hr : s₁.readNxti cfg X = 0
  · have hw := s.writeNxti_of_eq_zero cfg X v hr
    exact .inl ⟨congrArg Prod.snd hw, congrArg Prod.fst hw⟩
  · obtain ⟨hp, hl, hs⟩ := s₁.readNxti_ne_zero cfg X hr
    obtain ⟨hres, hil⟩ := s.writeNxti_of_ne_zero cfg X v hr
    rw [ClicCsrState.statusW_cause] at hl
    exact .inr ⟨hres ▸ hr, hp, hl, hs, hil, hpil⟩

/-! ### Swaps of `xscratchcsw` -/

/-- Refreshing the aliases twice is refreshing them once. -/
lemma Cause.refresh_refresh (c : UInt64) (pp pie : ℕ) :
    Cause.pie.set (Cause.pp.set (Cause.pie.set (Cause.pp.set c pp) pie) pp) pie =
      Cause.pie.set (Cause.pp.set c pp) pie := by
  rw [BitField.set_comm (f := Cause.pp) (g := Cause.pie) (by decide), BitField.set_set, BitField.set_set]

namespace ClicCsrState

variable (cfg : ClicCsrConfig) (s : ClicCsrState) (X : RiscvMode) (v : UInt64)

@[simp] lemma useCLIC_with_cause (c : RiscvMode → UInt64) : ({ s with cause := c } : ClicCsrState).useCLIC X = s.useCLIC X :=
  rfl

/-- `causeR` with a CLIC: the refreshed aliases written into `xcause`. -/
lemma causeR_of_CLICPresent (hC : cfg.clic.CLICPresent) :
    s.causeR cfg X =
      let pp := if s.useCLIC X then (Mstatus.PP X).get s.mstatus else 0
      let pie := if s.useCLIC X then (Mstatus.PIE X).get s.mstatus else 0
      let c := Cause.pie.set (if X = .user then s.cause X else Cause.pp.set (s.cause X) pp) pie
      ({ s with cause := Function.update s.cause X c }, c) := by
  unfold causeR
  rw [if_neg (by simp [hC])]
  split_ifs <;> rfl

/-- A second read of `xcause` changes nothing. -/
lemma causeR_causeR : ((s.causeR cfg X).1.causeR cfg X).1 = (s.causeR cfg X).1 := by
  by_cases hC : cfg.clic.CLICPresent
  · rw [s.causeR_of_CLICPresent cfg X hC]
    dsimp only
    rw [causeR_of_CLICPresent cfg _ X hC]
    -- the second read writes the values the first one wrote
    by_cases hu : X = .user
    · subst hu
      cases hc : s.useCLIC .user <;> simp [hc]
    · cases hc : s.useCLIC X <;> simp [hc, hu, Cause.refresh_refresh]
  · simp [causeR, hC]

@[simp] lemma useCLIC_with_scratch (f : RiscvMode → UInt64) :
    ({ s with scratch := f } : ClicCsrState).useCLIC X = s.useCLIC X :=
  rfl

/-- A read of `xcause` does not look at the scratch registers. -/
lemma causeR_with_scratch (f : RiscvMode → UInt64) :
    ({ s with scratch := f }.causeR cfg X).1 = { (s.causeR cfg X).1 with scratch := f } := by
  by_cases hC : cfg.clic.CLICPresent
  · rw [s.causeR_of_CLICPresent cfg X hC, causeR_of_CLICPresent cfg _ X hC]
    cases hc : s.useCLIC X <;> simp [hc]
  · simp [causeR, hC]

lemma writeScratchcsw_of_pp (h : Cause.pp.get ((s.causeR cfg X).1.cause X) = X.toNat) :
    s.writeScratchcsw cfg X v =
      ({ (s.causeR cfg X).1 with scratch := Function.update s.scratch X v }, s.scratch X) := by
  unfold writeScratchcsw
  dsimp only
  rw [if_pos h, causeR_scratch]

lemma writeScratchcsw_of_not_pp (h : Cause.pp.get ((s.causeR cfg X).1.cause X) ≠ X.toNat) :
    s.writeScratchcsw cfg X v = ((s.causeR cfg X).1, v) := by
  unfold writeScratchcsw
  dsimp only
  rw [if_neg h]

end ClicCsrState

/-- **A second swap of `xscratchcsw` undoes the first.**  Writing back what a
write of `xscratchcsw` returned returns the first value and leaves the
scratch registers as they were, whether the first write swapped (the trap
came from `X` itself) or not. -/
theorem writeScratchcsw_twice (cfg : ClicCsrConfig) (s : ClicCsrState) (X : RiscvMode) (v : UInt64) :
    let r₁ := s.writeScratchcsw cfg X v
    let r₂ := r₁.1.writeScratchcsw cfg X r₁.2
    r₂.2 = v ∧ r₂.1.scratch = s.scratch := by
  intro r₁ r₂
  by_cases hpp : Cause.pp.get ((s.causeR cfg X).1.cause X) = X.toNat
  · -- both writes swap: the refreshed `pp` is the same at the second
    have h₁ : r₁ = ({ (s.causeR cfg X).1 with scratch := Function.update s.scratch X v }, s.scratch X) :=
      s.writeScratchcsw_of_pp cfg X v hpp
    have hR : (r₁.1.causeR cfg X).1 = { (s.causeR cfg X).1 with scratch := Function.update s.scratch X v } := by
      rw [h₁, ClicCsrState.causeR_with_scratch, ClicCsrState.causeR_causeR]
    have hpp₂ : Cause.pp.get ((r₁.1.causeR cfg X).1.cause X) = X.toNat := by rw [hR]; exact hpp
    have h₂ : r₂ = _ := r₁.1.writeScratchcsw_of_pp cfg X r₁.2 hpp₂
    rw [h₂, hR, h₁]
    simp
  · have h₁ : r₁ = ((s.causeR cfg X).1, v) := s.writeScratchcsw_of_not_pp cfg X v hpp
    have hpp₂ : Cause.pp.get ((r₁.1.causeR cfg X).1.cause X) ≠ X.toNat := by
      rw [h₁, ClicCsrState.causeR_causeR]; exact hpp
    have h₂ : r₂ = _ := r₁.1.writeScratchcsw_of_not_pp cfg X r₁.2 hpp₂
    rw [h₂, h₁, ClicCsrState.causeR_causeR, ClicCsrState.causeR_scratch]
    exact ⟨rfl, rfl⟩

/-! ### Legal trap vectors -/

/-- What every write of a trap vector register leaves in it: a vectoring
mode other than the reserved one, CLIC mode when there is no basic
controller, and in CLIC mode a vector table aligned to 64 bytes. -/
structure TvecLegal (cfg : ClicCsrConfig) (x : UInt64) : Prop where
  not_reserved : Tvec.MODE.get x ≠ riscv_int_Reserved
  clic_of_no_basic : cfg.clic.basicICPresent = false → Tvec.MODE.get x = riscv_int_CLIC
  aligned : Tvec.MODE.get x = riscv_int_CLIC → x.toNat % 64 = riscv_int_CLIC

namespace Tvec

lemma MODE_get_eq (x : UInt64) : MODE.get x = (x &&& 3).toNat := by
  rw [UInt64.toNat_and, show (3 : UInt64).toNat = 2 ^ 2 - 1 from rfl, Nat.and_two_pow_sub_one_eq_mod,
    BitField.get, show MODE.lo = 0 from rfl, show MODE.width = 2 from rfl, pow_zero, Nat.div_one]

lemma toNat_and_three_lt (x : UInt64) : (x &&& 3).toNat < 4 := by
  rw [← MODE_get_eq]
  exact MODE.get_lt x

/-- The last step of `tvecW`: the mode inserted into the two low bits. -/
lemma MODE_get_insert (w : UInt64) {m : ℕ} (hm : m < 4) : MODE.get ((w &&& (0 - 4)) ||| UInt64.ofNat m) = m := by
  have hm' : (UInt64.ofNat m).toNat = m := UInt64.toNat_ofNat_of_lt' (by unfold UInt64.size; omega)
  rw [BitField.get, show MODE.lo = 0 from rfl, show MODE.width = 2 from rfl, pow_zero, Nat.div_one,
    UInt64.toNat_or, UInt64.toNat_and, Nat.or_mod_two_pow, Nat.and_mod_two_pow, hm',
    show (0 - 4 : UInt64).toNat % 2 ^ 2 = 0 by decide, Nat.and_zero, Nat.zero_or]
  exact Nat.mod_eq_of_lt hm

/-- A value whose low six bits are clear keeps them clear through a mask. -/
lemma and_mod_sixtyfour {w : UInt64} (hw : w.toNat % 2 ^ 6 = 0) (y : UInt64) : (w &&& y).toNat % 2 ^ 6 = 0 := by
  rw [UInt64.toNat_and, Nat.and_mod_two_pow, hw, Nat.zero_and]

lemma and_neg_sixtyfour (w : UInt64) : (w &&& (0 - 0x40)).toNat % 2 ^ 6 = 0 := by
  rw [UInt64.toNat_and, Nat.and_mod_two_pow, show (0 - 0x40 : UInt64).toNat % 2 ^ 6 = 0 by decide,
    Nat.and_zero]

/-- A mode inserted into a value aligned to 64 bytes is the value modulo 64. -/
lemma toNat_insert_mod (w : UInt64) (hw : w.toNat % 2 ^ 6 = 0) {m : ℕ} (hm : m < 4) :
    ((w &&& (0 - 4)) ||| UInt64.ofNat m).toNat % 64 = m := by
  have hm' : (UInt64.ofNat m).toNat = m := UInt64.toNat_ofNat_of_lt' (by unfold UInt64.size; omega)
  rw [show (64 : ℕ) = 2 ^ 6 from rfl, UInt64.toNat_or, Nat.or_mod_two_pow, and_mod_sixtyfour hw, hm',
    Nat.zero_or]
  omega

end Tvec

namespace ClicCsrConfig

variable (cfg : ClicCsrConfig)

/-- **`tvecW` leaves a legal value**, from any value and mask, when the old
value's mode is not the reserved one. -/
lemma tvecW_legal (v old mask : UInt64) (hold : Tvec.MODE.get old ≠ riscv_int_Reserved) :
    TvecLegal cfg (cfg.tvecW v old mask) := by
  unfold tvecW
  dsimp only
  set w := (v &&& mask) ||| (old &&& ~~~mask)
  have hold' : (old &&& 3).toNat ≠ riscv_int_Reserved := by rwa [← Tvec.MODE_get_eq]
  -- the mode `tvecW` settles on is one of the three legal ones
  set newMode : ℕ := if !cfg.clic.basicICPresent then riscv_int_CLIC
    else if (w &&& 3).toNat = riscv_int_Reserved then (old &&& 3).toNat else (w &&& 3).toNat with hnew
  clear_value w newMode
  have hlt : newMode < 4 := by
    have h₁ := Tvec.toNat_and_three_lt w
    have h₂ := Tvec.toNat_and_three_lt old
    rw [hnew]
    unfold riscv_int_CLIC
    split_ifs <;> omega
  have hne : newMode ≠ riscv_int_Reserved := by
    rw [hnew]
    split_ifs with h₁ h₂
    · decide
    · exact hold'
    · exact h₂
  refine ⟨?_, ?_, ?_⟩ <;> rw [Tvec.MODE_get_insert _ hlt]
  · exact hne
  · intro hb
    rw [hnew, hb]
    rfl
  · intro hclic
    -- in CLIC mode the value was cleared below bit 6 before the alignment
    have h₆ : (if newMode = riscv_int_CLIC then w &&& (0 - 0x40) else w).toNat % 2 ^ 6 = 0 := by
      rw [if_pos hclic]
      exact Tvec.and_neg_sixtyfour w
    generalize (if newMode = riscv_int_CLIC then w &&& (0 - 0x40) else w) = x at h₆ ⊢
    have hx : (if cfg.tvecAlign ≠ 0 ∧ newMode ≠ riscv_int_Direct then x &&& (0 - UInt64.ofNat cfg.tvecAlign)
        else x).toNat % 2 ^ 6 = 0 := by
      split_ifs
      · exact Tvec.and_mod_sixtyfour h₆ _
      · exact h₆
    rw [Tvec.toNat_insert_mod _ hx hlt, hclic]

end ClicCsrConfig

section Tvec

variable (cfg : ClicCsrConfig) (s : ClicCsrState) {X : RiscvMode}

open ClicCsrState

/-- One operation keeps every trap vector legal. -/
lemma clicCsrStep_tvecLegal (h : ∀ X, TvecLegal cfg (s.tvec X)) (op : ClicCsrOp) (X : RiscvMode) :
    TvecLegal cfg ((clicCsrStep cfg s op).tvec X) := by
  by_cases hop : ∀ v, op ≠ .tvecW X v
  · rw [clicCsrStep_tvec cfg s hop]
    exact h X
  · -- a write of this very register
    obtain ⟨v, rfl⟩ : ∃ v, op = .tvecW X v := by simpa using hop
    simp only [clicCsrStep, writeTvec_tvec, Function.update_self]
    exact cfg.tvecW_legal v (s.tvec X) (cfg.tvecMask X) (h X).not_reserved

/-- **No run leaves an illegal trap vector.**  From a state whose trap vector
registers are legal, every run of operations keeps them legal: no reserved
vectoring mode, CLIC mode when there is no basic controller, and a CLIC
vector table aligned to 64 bytes. -/
theorem run_tvecLegal {s : ClicCsrState} (h : ∀ X, TvecLegal cfg (s.tvec X)) (ops : List ClicCsrOp) :
    ∀ X, TvecLegal cfg ((StepSystem.run (clicCsrStep cfg) s ops).tvec X) :=
  @StepSystem.run_invariant _ _ (clicCsrStep cfg) (fun _ => True) (fun s => ∀ X, TvecLegal cfg (s.tvec X))
    (fun s op _ hs => clicCsrStep_tvecLegal cfg s hs op) s ops h (fun _ _ => trivial)

/-- Trap vectors in CLIC mode, written with a reserved mode and with a
misaligned table, stay legal without a basic controller. -/
theorem run_tvecLegal_writes :
    let cfg : ClicCsrConfig := ⟨⟨true, true⟩, true, ⟨0, 16, 256, false, false, 2, true, 8, 0, false, 0xaaa⟩,
      0, 0, 0xfff, 0x1888, fun _ => 0 - 1⟩
    let s : ClicCsrState := ⟨0, 0, fun _ => 0, fun _ => 0, fun _ => 3, fun _ => 0x1000,
      ⟨0, 0, 0, fun _ => 0, fun _ _ => 0, fun _ => 0, ⟨.machine, 20, 7, false⟩, true, false, false⟩, false⟩
    let ops : List ClicCsrOp := [.tvecW .machine 0x2002, .tvecW .supervisor 0x7, .causeR .machine]
    (∀ X, TvecLegal cfg (s.tvec X)) ∧ ∀ X, TvecLegal cfg ((StepSystem.run (clicCsrStep cfg) s ops).tvec X) := by
  intro cfg s ops
  have h : ∀ X, TvecLegal cfg (s.tvec X) := fun _ =>
    show TvecLegal cfg 3 from ⟨by decide, fun _ => by decide, fun _ => by decide⟩
  exact ⟨h, run_tvecLegal cfg h ops⟩

end Tvec

end RiscvOvpsim
