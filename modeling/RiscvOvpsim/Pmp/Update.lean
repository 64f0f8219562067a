import RiscvOvpsim.Pmp.Entry
import RiscvOvpsim.Lib.StepSystem

/-!
The functions of `riscvVM.c` that change PMP state: the protection of memory
domains (`pmpProtect`, `setPMPPriv`), the invalidation of an entry's range
(`invalidatePMPEntry`), the register writes `riscvVMWritePMPCFG` and
`riscvVMWritePMPAddr`, `riscvVMResetPMP`, and the access-driven refresh
`mapPMP` with its loop `refinePMPRegionRange`.

The loops of the source become structural recursions that visit the indices
in the source's order: `writePMPCFGLoop` from the highest byte of the
written register to the lowest, `mapPMPLoop` from the lowest-priority entry
(highest number) to the highest.

The PMP subsystem as a whole is `pmpStep` over `PmpOp`, the four operations
through which its state changes, from the state `riscvVMNewPMP` and
`createPMPDomain` leave (`pmpNew`).
-/

namespace RiscvOvpsim

variable (cfg : PmpConfig)

/-! ### Memory domains -/

/-- `vmirtProtectMemory(domain, lo, hi, priv, MEM_PRIV_SET)`: the domain
grants `priv` on `[lo, hi]` and is unchanged elsewhere. -/
def vmirtProtectMemory (d : UInt64 → MemPriv) (lo hi : UInt64) (priv : MemPriv) :
    UInt64 → MemPriv :=
  fun a => if lo ≤ a ∧ a ≤ hi then priv else d a

/-- `pmpProtect`: set `priv` on `[lo, hi]` if `updatePriv`, and remove all
access from the byte on either side when an access could straddle the
boundary there. -/
def pmpProtect (d : UInt64 → MemPriv) (lo hi : UInt64) (priv : MemPriv) (updatePriv : Bool) :
    UInt64 → MemPriv :=
  let unalignedOK := cfg.unaligned
  let d := if updatePriv then vmirtProtectMemory d lo hi priv else d
  if (priv ≠ MemPriv.none ∨ updatePriv = false) ∧
      (unalignedOK ∨ 32 < cfg.flenArch ∨ 32 < cfg.xlenArch) then
    let loMin : UInt64 := 0
    let hiMax := getAddressMask cfg.extBits
    let d :=
      if loMin < lo ∧ (unalignedOK ∨ lo &&& 4 ≠ 0) then
        vmirtProtectMemory d (lo - 1) (lo - 1) MemPriv.none
      else d
    if hi < hiMax ∧ (unalignedOK ∨ (hi + 1) &&& 4 ≠ 0) then
      vmirtProtectMemory d (hi + 1) (hi + 1) MemPriv.none
    else d
  else d

/-- `setPMPPriv`: protect the data and code domains of `mode`; a unified
domain takes the whole privilege, split domains the `RW` and `X` parts. -/
def setPMPPriv (s : PmpState) (mode : RiscvMode) (low high : UInt64) (priv : MemPriv)
    (updatePriv : Bool) : PmpState :=
  let dataDomain := s.domain mode false
  let codeDomain := s.domain mode true
  if cfg.unified then
    let d := pmpProtect cfg dataDomain low high priv updatePriv
    { s with domain := Function.update s.domain mode fun _ => d }
  else
    let privRW := priv &&& MemPriv.RW
    let privX := priv &&& MemPriv.X
    let data :=
      if updatePriv = false ∨ priv = MemPriv.none ∨ privRW ≠ MemPriv.none then
        pmpProtect cfg dataDomain low high privRW updatePriv
      else dataDomain
    let code :=
      if updatePriv = false ∨ priv = MemPriv.none ∨ privX ≠ MemPriv.none then
        pmpProtect cfg codeDomain low high privX updatePriv
      else codeDomain
    { s with domain := Function.update s.domain mode fun isCode => if isCode then code else data }

@[simp] lemma setPMPPriv_pmpcfg (s : PmpState) (mode : RiscvMode) (low high : UInt64)
    (priv : MemPriv) (updatePriv : Bool) :
    (setPMPPriv cfg s mode low high priv updatePriv).pmpcfg = s.pmpcfg := by
  unfold setPMPPriv
  split <;> rfl

@[simp] lemma setPMPPriv_pmpaddr (s : PmpState) (mode : RiscvMode) (low high : UInt64)
    (priv : MemPriv) (updatePriv : Bool) :
    (setPMPPriv cfg s mode low high priv updatePriv).pmpaddr = s.pmpaddr := by
  unfold setPMPPriv
  split <;> rfl

/-- `invalidatePMPEntry`: remove all access to the range of an active entry
from the Supervisor domains, and from the Machine domains when the entry or
a lower-priority entry is locked. -/
def invalidatePMPEntry (s : PmpState) (index : ℕ) : PmpState :=
  let e := getPMPCFGElem s index
  if getPMPRegionActive cfg s e index then
    let bounds := getPMPEntryBounds cfg s index
    if bounds.1 ≤ bounds.2 then
      let s := setPMPPriv cfg s .supervisor bounds.1 bounds.2 MemPriv.none true
      let updateM := e.L || lowerPriorityPMPEntryLocked cfg s index
      setPMPPriv cfg s .machine bounds.1 bounds.2 MemPriv.none updateM
    else s
  else s

@[simp] lemma invalidatePMPEntry_pmpcfg (s : PmpState) (index : ℕ) :
    (invalidatePMPEntry cfg s index).pmpcfg = s.pmpcfg := by
  unfold invalidatePMPEntry
  dsimp only
  split_ifs <;> simp

@[simp] lemma invalidatePMPEntry_pmpaddr (s : PmpState) (index : ℕ) :
    (invalidatePMPEntry cfg s index).pmpaddr = s.pmpaddr := by
  unfold invalidatePMPEntry
  dsimp only
  split_ifs <;> simp

/-! ### Configuration register writes -/

/-- `WM64_pmpcfg`: the writable bits of each configuration byte. -/
def WM64_pmpcfg : UInt64 := 0x9f9f9f9f9f9f9f9f

/-- `getPMPCFGOffset`: on RV64 the odd-numbered registers are absent and
`pmpcfg2` controls entries 8 to 15. -/
def getPMPCFGOffset (rv64 : Bool) (index : ℕ) : ℕ := if rv64 then index / 2 else index

/-- The number of entries a configuration register controls. -/
def entriesPerCFG (rv64 : Bool) : ℕ := if rv64 then 8 else 4

/-- `validPMPCFG`. -/
def validPMPCFG (rv64 : Bool) (index : ℕ) : Bool :=
  let numCFG := (cfg.numRegs + entriesPerCFG rv64 - 1) / entriesPerCFG rv64
  decide (getPMPCFGOffset rv64 index < numCFG)

/-- `readPMPCFGInt`: the `u32[index]` or `u64[index/2]` view of the bytes. -/
def readPMPCFGInt (rv64 : Bool) (s : PmpState) (index : ℕ) : UInt64 :=
  let base := if rv64 then index / 2 * 8 else index * 4
  (List.range (entriesPerCFG rv64)).foldl
    (fun acc i => acc ||| ((s.pmpcfg (base + i)).toByte.toUInt64 <<< (8 * i).toUInt64)) 0

/-- Byte `i` of a register value, `src.u8[i]`. -/
def srcByte (src : UInt64) (i : ℕ) : ℕ := src.toNat >>> (8 * i) % 256

/-- The configuration written over `dstCFG` from byte `i` of the source: when
`G ≥ 1` the mode `NA4` is not selectable and the old mode is kept instead. -/
def newPMPCFGElem (dstCFG : PmpcfgElem) (src : UInt64) (i : ℕ) : PmpcfgElem :=
  let srcCFG := PmpcfgElem.ofByte (srcByte src i)
  if cfg.grain ≠ 0 ∧ srcCFG.mode = .na4 then { srcCFG with mode := dstCFG.mode } else srcCFG

/-- One iteration of the loop of `riscvVMWritePMPCFG`: an unlocked byte
that changes is invalidated under its old and its new specification. -/
def writePMPCFGByte (artifact : Bool) (index : ℕ) (src : UInt64) (s : PmpState) (i : ℕ) :
    PmpState :=
  let cfgIndex := index * 4 + i
  let srcCFG := newPMPCFGElem cfg (getPMPCFGElem s cfgIndex) src i
  if getPMPCFGElem s cfgIndex ≠ srcCFG ∧ pmpLocked artifact s cfgIndex = false then
    let s := invalidatePMPEntry cfg s cfgIndex
    let s := { s with pmpcfg := Function.update s.pmpcfg cfgIndex srcCFG }
    invalidatePMPEntry cfg s cfgIndex
  else s

/-- The loop `for(i=entriesPerCFG-1; i>=0; i--)`: `writePMPCFGLoop n` visits
bytes `n-1`, ..., `0`. -/
def writePMPCFGLoop (artifact : Bool) (index : ℕ) (src : UInt64) : ℕ → PmpState → PmpState
  | 0, s => s
  | i + 1, s => writePMPCFGLoop artifact index src i (writePMPCFGByte cfg artifact index src s i)

/-- The mask of the bytes of a partially implemented last register. -/
def numBytesMask (numBytes : ℕ) : UInt64 :=
  if 8 ≤ numBytes then 0xFFFFFFFFFFFFFFFF else ((1 : UInt64) <<< (numBytes * 8).toUInt64) - 1

/-- `riscvVMWritePMPCFG`: write a configuration register and return the value
it then reads. -/
def riscvVMWritePMPCFG (artifact rv64 : Bool) (s : PmpState) (index : ℕ) (newValue : UInt64) :
    PmpState × UInt64 :=
  if validPMPCFG cfg rv64 index then
    let offset := getPMPCFGOffset rv64 index
    let numBytes := cfg.numRegs - offset * entriesPerCFG rv64
    let src := newValue &&& WM64_pmpcfg &&& numBytesMask numBytes
    let s := writePMPCFGLoop cfg artifact index src (entriesPerCFG rv64) s
    (s, readPMPCFGInt rv64 s index)
  else (s, 0)

/-! ### Address register writes and reset -/

/-- `validPMPAddr`. -/
def validPMPAddr (index : ℕ) : Bool := decide (index < cfg.numRegs)

/-- The value `riscvVMWritePMPAddr` stores: masked to the implemented
physical address bits, and to the grain when `G ≥ 1`. -/
def maskPMPAddr (newValue : UInt64) : UInt64 :=
  let newValue := newValue &&& (getAddressMask cfg.extBits >>> 2)
  if cfg.grain ≠ 0 then
    newValue &&& ((0xFFFFFFFFFFFFFFFF : UInt64) <<< (cfg.grain - 1).toUInt64)
  else newValue

/-- `riscvVMWritePMPAddr`: a write is ignored when the entry is locked or the
next entry is a locked `TOR` entry; otherwise the entry is invalidated under
its old and its new address.  Returns the value the register then reads. -/
def riscvVMWritePMPAddr (artifact : Bool) (s : PmpState) (index : ℕ) (newValue : UInt64) :
    PmpState × UInt64 :=
  let newValue := maskPMPAddr cfg newValue
  if validPMPAddr cfg index ∧ s.pmpaddr index ≠ newValue then
    let s :=
      if pmpLocked artifact s index then s
      else if pmpLockedTOR cfg artifact s (index + 1) then s
      else
        let s := invalidatePMPEntry cfg s index
        let s := { s with pmpaddr := Function.update s.pmpaddr index newValue }
        invalidatePMPEntry cfg s index
    (s, getEffectivePMPAddr cfg s index)
  else (s, 0)

/-- One iteration of the loop of `riscvVMResetPMP`. -/
def resetPMPEntry (s : PmpState) (i : ℕ) : PmpState :=
  if s.pmpaddr i ≠ 0 ∨ s.pmpcfg i ≠ PmpcfgElem.zero then
    let s := invalidatePMPEntry cfg s i
    { s with
      pmpaddr := Function.update s.pmpaddr i 0
      pmpcfg := Function.update s.pmpcfg i PmpcfgElem.zero }
  else s

/-- `riscvVMResetPMP`: entries `0`, ..., `numRegs-1` in turn. -/
def riscvVMResetPMP (s : PmpState) : PmpState :=
  (List.range cfg.numRegs).foldl (resetPMPEntry cfg) s

/-! ### Access-driven mapping -/

/-- The accumulator of `mapPMP`: `lowMap`, `highMap` and `priv`. -/
structure PmpRange where
  low : UInt64
  high : UInt64
  priv : MemPriv

/-- `refinePMPRegionRange`: a matching entry replaces the range and
privilege; an entry above or below the address cuts the range short. -/
def refinePMPRegionRange (s : PmpState) (mode : RiscvMode) (PA : UInt64) (r : PmpRange)
    (index : ℕ) : PmpRange :=
  let e := getPMPCFGElem s index
  if getPMPRegionActive cfg s e index then
    let bounds := getPMPEntryBounds cfg s index
    if bounds.2 < bounds.1 then r
    else if bounds.1 ≤ PA ∧ PA ≤ bounds.2 then
      ⟨bounds.1, bounds.2, if mode ≠ .machine ∨ e.L then e.priv else MemPriv.RWX⟩
    else if PA < bounds.1 ∧ bounds.1 < r.high then { r with high := bounds.1 - 1 }
    else if bounds.2 < PA ∧ r.low < bounds.2 then { r with low := bounds.2 + 1 }
    else r
  else r

/-- The loop `for(i=numRegs-1; i>=0; i--)`: `mapPMPLoop n` visits entries
`n-1`, ..., `0`. -/
def mapPMPLoop (s : PmpState) (mode : RiscvMode) (PA : UInt64) : ℕ → PmpRange → PmpRange
  | 0, r => r
  | i + 1, r => mapPMPLoop s mode PA i (refinePMPRegionRange cfg s mode PA r i)

/-- `mapPMP`: map the range around `lowPA` with the privilege PMP gives it, or
report a PMP access fault (`AFErrorIn = riscv_AFault_PMP`, the `Bool`) when
that privilege is insufficient or the range ends before `highPA`. -/
def mapPMP (s : PmpState) (mode : RiscvMode) (requiredPriv : MemPriv) (lowPA highPA : UInt64) :
    PmpState × Bool :=
  if cfg.numRegs ≠ 0 then
    let priv := if mode = .machine then MemPriv.RWX else MemPriv.none
    let r := mapPMPLoop cfg s mode lowPA cfg.numRegs ⟨0, getAddressMask cfg.extBits, priv⟩
    if (r.priv &&& requiredPriv) ≠ requiredPriv ∨ r.high < highPA then (s, true)
    else (setPMPPriv cfg s mode r.low r.high r.priv true, false)
  else (s, false)

/-! ### The PMP subsystem -/

/-- The operations through which PMP state changes. -/
inductive PmpOp where
  | writeCfg (artifact rv64 : Bool) (index : ℕ) (value : UInt64)
  | writeAddr (artifact : Bool) (index : ℕ) (value : UInt64)
  | reset
  | map (mode : RiscvMode) (requiredPriv : MemPriv) (lowPA highPA : UInt64)

/-- One operation. -/
def pmpStep (s : PmpState) : PmpOp → PmpState
  | .writeCfg artifact rv64 index value => (riscvVMWritePMPCFG cfg artifact rv64 s index value).1
  | .writeAddr artifact index value => (riscvVMWritePMPAddr cfg artifact s index value).1
  | .reset => riscvVMResetPMP cfg s
  | .map mode requiredPriv lowPA highPA => (mapPMP cfg s mode requiredPriv lowPA highPA).1

/-- The state after `riscvVMNewPMP` and `createPMPDomain`: all registers zero,
and every PMP domain without access when PMP registers are implemented. -/
def pmpNew : PmpState where
  pmpcfg := fun _ => PmpcfgElem.zero
  pmpaddr := fun _ => 0
  domain := fun _ _ _ => if cfg.numRegs ≠ 0 then MemPriv.none else MemPriv.RWX

end RiscvOvpsim
