import RiscvOvpsim.Hart.State
import RiscvOvpsim.Interrupt.Arbiter

/-!
Traps, returns, Debug mode and the data domain (`riscvExceptions.c`,
`riscvVM.c`, `riscvUtils.c`, `riscvCSR.c`).

* `riscvVMRefreshMPRVDomain`, `riscvSetMode`: the choice of the data domain
  from the current mode, `mstatus.MPRV` and `MPP`, `dcsr.mprven` and
  `satp.MODE`, and the mode switch that makes it;
* `statusW`, `satpW`, `dcsrWInt`: the register writes that change an input of
  that choice;
* `targetModeX`, `riscvTakeException`: a trap, with `TARGET_MODE_X`;
* `riscvMRET`, `riscvSRET`, `riscvURET`: the returns, with `clearMPRV` and
  `doERETCommon`;
* `enterDM`, `leaveDM`, `riscvSetDM`, `riscvReset`: Debug mode and reset;
* `HartOp`, `hartStep`, `hartNew`: the operations, one step, and the state
  the constructor leaves.
-/

namespace RiscvOvpsim

section Model

variable {Dom : Type} (cfg : HartConfig Dom)

/-- A one-bit field read as a flag. -/
def flag (f : BitField) (x : UInt64) : Bool := f.get x ≠ 0

/-! ### The data domain -/

/-- `getMPRV`: `mstatus.MPRV`, in Debug mode only with `dcsr.mprven`. -/
def getMPRV (s : Hart Dom) : Bool :=
  let MPRV := flag Mstatus.MPRV s.mstatus
  if s.DM then MPRV && flag Dcsr.mprven s.dcsr else MPRV

/-- `riscvVMRefreshMPRVDomain`: `mstatus.MPP`, clamped to an implemented mode,
when `MPRV` is in effect, else the current mode, with its virtual domain when
translation is on and the domain exists, else its physical domain. -/
def riscvVMRefreshMPRVDomain (s : Hart Dom) : Hart Dom :=
  let VM := s.satpMODE ≠ 0
  let mode :=
    if getMPRV s then
      let modeMPP := RiscvMode.ofBits (Mstatus.MPP.get s.mstatus)
      if riscvHasMode cfg.modes modeMPP then modeMPP else riscvGetMinMode cfg.modes
    else s.mode
  let domain := if VM then cfg.vmDomain mode else none
  let domain := domain.getD (cfg.physDomain mode)
  { s with dmode := mode, dataDomain := domain }

/-- `riscvSetMode`: switch mode and refresh the data domain. -/
def riscvSetMode (s : Hart Dom) (mode : RiscvMode) : Hart Dom :=
  riscvVMRefreshMPRVDomain cfg { s with mode := mode }

/-! ### Register writes -/

/-- `statusW`: a masked write of `mstatus` through one of its aliases; a
value of `MPP` that names a mode that is not implemented is reverted, and the
data domain refreshed. -/
def statusW (s : Hart Dom) (newValue mask : UInt64) : Hart Dom :=
  let oldValue := s.mstatus
  let newValue := (newValue &&& mask) ||| (oldValue &&& ~~~mask)
  let oldMPP := Mstatus.MPP.get oldValue
  let newMPP := Mstatus.MPP.get newValue
  let newValue :=
    if !riscvHasMode cfg.modes (RiscvMode.ofBits newMPP) then Mstatus.MPP.set newValue oldMPP
    else newValue
  riscvVMRefreshMPRVDomain cfg { s with mstatus := newValue }

/-- `satpW`, as far as `satp.MODE` goes: an unsupported mode discards the
write; otherwise the change goes through `riscvSetMode`. -/
def satpW (s : Hart Dom) (targetMode : ℕ) : Hart Dom :=
  if !cfg.SvModes.testBit targetMode then s
  else riscvSetMode cfg { s with satpMODE := targetMode } s.mode

/-- `dcsrWInt`: a masked write of `dcsr`; `cause` and `nmip` are written only
when `updateCause` is set. -/
def dcsrWInt (s : Hart Dom) (newValue : UInt64) (updateCause : Bool) : Hart Dom :=
  let oldValue := s.dcsr
  let mask :=
    if !updateCause then cfg.dcsrMask &&& ~~~(0x1c0 ||| 0x008) else cfg.dcsrMask
  { s with dcsr := (newValue &&& mask) ||| (oldValue &&& ~~~mask) }

/-! ### Traps -/

/-- `getIMode`: the vectoring mode of `xtvec`, or the custom one. -/
def getIMode (customMode tvecMode : ℕ) : ℕ := if tvecMode ≠ 0 then tvecMode else customMode

/-- `TARGET_MODE_X` for a trap to mode `X`, in basic mode: stack the interrupt
enable, record the cause, the writable bits of the return address and the
trap value. -/
def targetModeX (s : Hart Dom) (X : RiscvMode) (isInt : Bool) (ecode : ℕ)
    (EPC tval : UInt64) : Hart Dom :=
  let IE := (Mstatus.IE X).get s.mstatus
  let mstatus := (Mstatus.PIE X).set s.mstatus IE
  let mstatus := (Mstatus.IE X).set mstatus 0
  { s with
    mstatus := mstatus
    cause := Function.update s.cause X ⟨isInt, ecode⟩
    epc := Function.update s.epc X (EPC &&& cfg.maskEPC)
    tval := Function.update s.tval X tval }

/-- The write of the previous mode `modeY` into `mstatus.SPP` or `MPP` that
follows `TARGET_MODE_X` for a trap to Supervisor or Machine mode. -/
def savePrevMode (s : Hart Dom) (X modeY : RiscvMode) : Hart Dom :=
  { s with
    mstatus :=
      if X = .supervisor then Mstatus.SPP.set s.mstatus modeY.toNat
      else if X = .machine then Mstatus.MPP.set s.mstatus modeY.toNat
      else s.mstatus }

/-- The trap target `X` of `TARGET_MODE_X`: User and Supervisor mode by name,
every other mode as Machine mode. -/
def trapMode : RiscvMode → RiscvMode
  | .user => .user
  | .supervisor => .supervisor
  | _ => .machine

/-- The handler address of a basic-mode trap: `xtvec.BASE`, plus four times
the code for a vectored interrupt (the CLIC branch is taken only with
`xtvec.MODE = 3`, and without a CLIC there is no hardware vectoring). -/
def handlerPC (s : Hart Dom) (X : RiscvMode) (isInt : Bool) (ecode : ℕ) : UInt64 :=
  let base := s.tvec X &&& ~~~3
  let mode := getIMode (cfg.IMode X) (s.tvec X &&& 3).toNat
  if mode = 0 ∨ !isInt then base
  else if mode ≠ 3 then base + UInt64.ofNat (4 * ecode)
  else base &&& (0 - 64)

/-- The target mode of a trap: `getExceptionModeX`, by `medeleg` and
`sedeleg`, for an exception, and `getInterruptModeX`, by `mideleg` and
`sideleg`, for an interrupt. -/
def trapModeX (s : Hart Dom) (isInt : Bool) (ecode : ℕ) : RiscvMode :=
  if !isInt then getModeX s.mode s.medeleg.toUInt32 s.sedeleg.toUInt32 ecode
  else getModeX s.mode s.mideleg.toUInt32 s.sideleg.toUInt32 ecode

/-- `riscvTakeException` for a basic-mode hart, with the address `EPC` of the
trapping instruction: in Debug mode it only enters Debug mode (where it
already is); otherwise the delegation registers give the target mode, never
below the current one, `TARGET_MODE_X` updates its registers, the previous
mode goes to `SPP` or `MPP`, and the hart switches mode and jumps to the
handler. -/
def riscvTakeException (s : Hart Dom) (isInt : Bool) (ecode : ℕ) (EPC tval : UInt64) :
    Hart Dom :=
  if s.DM then s
  else
    let modeY := s.mode
    let modeX := trapModeX s isInt ecode
    let X := trapMode modeX
    let s := savePrevMode (targetModeX cfg s X isInt ecode EPC tval) X modeY
    let pc := handlerPC cfg s X isInt ecode
    { riscvSetMode cfg s modeX with pc := pc }

/-! ### Returns -/

/-- `getERETMode`. -/
def getERETMode (newMode minMode : RiscvMode) : RiscvMode :=
  if riscvHasMode cfg.modes newMode then newMode else minMode

/-- `clearMPRV`: from version 1.12, a return below Machine mode clears
`MPRV`. -/
def clearMPRV (s : Hart Dom) (newMode : RiscvMode) : Hart Dom :=
  { s with
    mstatus :=
      if RiscvPrivVer.v20190405 < cfg.privVersion ∧ newMode ≠ .machine then
        Mstatus.MPRV.set s.mstatus 0
      else s.mstatus }

/-- `setPCxRET`: without compressed instructions the return address is
word-aligned. -/
def setPCxRET (s : Hart Dom) (newPC : UInt64) : Hart Dom :=
  { s with pc := if !s.C then newPC &&& (0 - 4) else newPC }

/-- `doERETCommon`. -/
def doERETCommon (s : Hart Dom) (newMode : RiscvMode) (epc : UInt64) : Hart Dom :=
  setPCxRET (riscvSetMode cfg s newMode) epc

/-- `riscvMRET`: a no-op in Debug mode. -/
def riscvMRET (s : Hart Dom) : Hart Dom :=
  if s.DM then s
  else
    let MPP := RiscvMode.ofBits (Mstatus.MPP.get s.mstatus)
    let minMode := riscvGetMinMode cfg.modes
    let newMode := getERETMode cfg MPP minMode
    let mstatus := Mstatus.MIE.set s.mstatus (Mstatus.MPIE.get s.mstatus)
    let mstatus := Mstatus.MPIE.set mstatus 1
    let mstatus := Mstatus.MPP.set mstatus minMode.toNat
    let s := clearMPRV cfg { s with mstatus := mstatus } newMode
    doERETCommon cfg s newMode (s.epc .machine)

/-- `riscvSRET`: a no-op in Debug mode. -/
def riscvSRET (s : Hart Dom) : Hart Dom :=
  if s.DM then s
  else
    let SPP := RiscvMode.ofBits (Mstatus.SPP.get s.mstatus)
    let minMode := riscvGetMinMode cfg.modes
    let newMode := getERETMode cfg SPP minMode
    let mstatus := Mstatus.SIE.set s.mstatus (Mstatus.SPIE.get s.mstatus)
    let mstatus := Mstatus.SPIE.set mstatus 1
    let mstatus := Mstatus.SPP.set mstatus minMode.toNat
    let s := clearMPRV cfg { s with mstatus := mstatus } newMode
    doERETCommon cfg s newMode (s.epc .supervisor)

/-- `riscvURET`: a no-op in Debug mode. -/
def riscvURET (s : Hart Dom) : Hart Dom :=
  if s.DM then s
  else
    let mstatus := Mstatus.UIE.set s.mstatus (Mstatus.UPIE.get s.mstatus)
    let mstatus := Mstatus.UPIE.set mstatus 1
    doERETCommon cfg { s with mstatus := mstatus } .user (s.epc .user)

/-! ### Debug mode and reset -/

/-- `enterDM`: save the mode, the cause and the return address in `dcsr` and
`dpc`, and run in Machine mode; nothing changes in Debug mode. -/
def enterDM (s : Hart Dom) (cause : ℕ) (EPC : UInt64) : Hart Dom :=
  if s.DM then s
  else
    let dcsr := Dcsr.prv.set s.dcsr s.mode.toNat
    let dcsr := Dcsr.cause.set dcsr cause
    riscvSetMode cfg { s with DM := true, dcsr := dcsr, dpc := EPC } .machine

/-- `leaveDM`: return to the mode in `dcsr.prv` at `dpc`. -/
def leaveDM (s : Hart Dom) : Hart Dom :=
  let newMode := RiscvMode.ofBits (Dcsr.prv.get s.dcsr)
  let s := clearMPRV cfg { s with DM := false } newMode
  doERETCommon cfg s newMode s.dpc

/-- `riscvSetDM`: enter or leave Debug mode, on a change. -/
def riscvSetDM (s : Hart Dom) (DM : Bool) (EPC : UInt64) : Hart Dom :=
  if s.DM = DM then s
  else if DM then enterDM cfg s 3 EPC
  else leaveDM cfg s

/-- `riscvCSRReset`, as far as these registers go: the architecture returns
to the configured one, `mstatus` takes its reset value, `mcause` is cleared
and `dcsr` is written through `dcsrWInt`, all without a refresh of the data
domain. -/
def riscvCSRReset (s : Hart Dom) : Hart Dom :=
  let s := { s with C := cfg.archC, mstatus := cfg.mstatusReset,
                    cause := Function.update s.cause .machine ⟨false, 0⟩ }
  dcsrWInt cfg s (RiscvMode.machine.toNat.toUInt64) true

/-- `riscvReset`: leave Debug mode, switch to Machine mode, reset the
registers and jump to the reset address. -/
def riscvReset (s : Hart Dom) : Hart Dom :=
  let s := riscvSetDM cfg s false s.pc
  let s := riscvSetMode cfg s .machine
  let s := riscvCSRReset cfg s
  { s with pc := cfg.resetAddress }

/-! ### Runs -/

/-- The operations that change the state. -/
inductive HartOp where
  /-- a write of `mstatus`, `sstatus` or `ustatus`, with the alias's mask -/
  | writeStatus (newValue mask : UInt64)
  | writeSatp (targetMode : ℕ)
  /-- a write of `dcsr` by software or, as an artifact access, by a debugger -/
  | writeDcsr (newValue : UInt64) (updateCause : Bool)
  | takeException (isInt : Bool) (ecode : ℕ) (EPC tval : UInt64)
  | mret
  | sret
  | uret
  /-- entry to Debug mode, by a halt request, `EBREAK`, a trigger or a step,
  with the cause and the return address -/
  | enterDebug (cause : ℕ) (EPC : UInt64)
  /-- exit from Debug mode, by `DRET` or a debugger's resume -/
  | leaveDebug
  /-- any other `riscvSetMode` call -/
  | setMode (mode : RiscvMode)
  | reset

/-- The return instruction that matches a trap to mode `X`. -/
def xretOp : RiscvMode → HartOp
  | .user => .uret
  | .supervisor => .sret
  | _ => .mret

/-- One operation. -/
def hartStep (s : Hart Dom) : HartOp → Hart Dom
  | .writeStatus newValue mask => statusW cfg s newValue mask
  | .writeSatp targetMode => satpW cfg s targetMode
  | .writeDcsr newValue updateCause => dcsrWInt cfg s newValue updateCause
  | .takeException isInt ecode EPC tval => riscvTakeException cfg s isInt ecode EPC tval
  | .mret => riscvMRET cfg s
  | .sret => riscvSRET cfg s
  | .uret => riscvURET cfg s
  | .enterDebug cause EPC => enterDM cfg s cause EPC
  | .leaveDebug => riscvSetDM cfg s false s.pc
  | .setMode mode => riscvSetMode cfg s mode
  | .reset => riscvReset cfg s

/-- The state before the constructor's reset: Machine mode, `mstatus` at its
reset value, every other register zero, and the physical Machine domain. -/
def hartInit : Hart Dom :=
  { mode := .machine, DM := false, mstatus := cfg.mstatusReset, dcsr := 0, dpc := 0,
    satpMODE := 0, dmode := .machine, dataDomain := cfg.physDomain .machine,
    medeleg := 0, sedeleg := 0, mideleg := 0, sideleg := 0,
    cause := fun _ => ⟨false, 0⟩, epc := fun _ => 0, tval := fun _ => 0, tvec := fun _ => 0,
    pc := 0, C := cfg.archC }

/-- The state the constructor leaves, after its reset. -/
def hartNew : Hart Dom := riscvReset cfg (hartInit cfg)

end Model

end RiscvOvpsim
