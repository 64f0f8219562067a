import RiscvOvpsim.Basic

/-!
The page table walks of `riscvVM.c` ("Sv32 PAGE TABLE WALK", "Sv39 PAGE
TABLE WALK", "Sv48 PAGE TABLE WALK").

The three walkers `tlbLookupSv32`, `tlbLookupSv39` and `tlbLookupSv48` are
the same code over different field widths, so they are one walk `tlbLookup`
over an `SvMode` that holds the widths, each walker being `tlbLookup` at its
own `SvMode`.  The walk is cut where the source has its phases:

* `ptwLoop`: the loop `for(i=levels-1, a=root; i>=0; i--, a=PPN<<12)` that
  reads PTEs until a leaf, as a structural recursion on the levels left;
* `ptwLeaf`: the superpage alignment check, the TLB entry filled from the leaf
  PTE (`fillEntry`) and `checkEntryPermission`;
* `setPTEA`, `setPTED` and `writeBack`: the A/D update and the write of the
  changed PTE.

The walk produces a `pteError` (`tlbLookupPTE`) that `PTE_ERROR` turns into
an exception with `handlePTWException` (`tlbLookup`).  The page tables are a
`PtwMemory`: the word at each physical address, and whether a read or a
write there fails (`PTWBadAddr`).  A successful walk returns the TLB entry and
the PTE write it made, if any.
-/

namespace RiscvOvpsim

open RiscvException

/-! ### Page table encodings -/

/-- The parameters in which the three walkers differ. -/
structure SvMode where
  /-- the number of levels of the table -/
  levels : ℕ
  /-- `SVxx_VPN_SHIFT`: the bits of each VPN field -/
  vpnShift : ℕ
  /-- the bytes of a PTE -/
  entryBytes : ℕ
  /-- the bits of `PTE.fields.PPN` and of `satp.PPN` -/
  ppnBits : ℕ
  /-- the bits of `VA.raw`: `Uns32` for Sv32, `Uns64` otherwise -/
  vaBits : ℕ
  /-- whether `VPNextend` must extend `VPN` (`validVA`) -/
  extend : Bool
  deriving DecidableEq, Repr

/-- Sv32: two levels of ten-bit VPN fields, four-byte PTEs, 22-bit PPNs. -/
def Sv32 : SvMode := ⟨2, 10, 4, 22, 32, false⟩

/-- Sv39: three levels of nine-bit VPN fields, eight-byte PTEs, 44-bit PPNs. -/
def Sv39 : SvMode := ⟨3, 9, 8, 44, 64, true⟩

/-- Sv48: four levels of nine-bit VPN fields, eight-byte PTEs, 44-bit PPNs. -/
def Sv48 : SvMode := ⟨4, 9, 8, 44, 64, true⟩

/-! ### Addresses and entries -/

/-- A signed bit field `Int64 f : width` at bit `lo` of a word. -/
def signedField (x : UInt64) (lo width : ℕ) : ℤ :=
  let u := x.toNat / 2 ^ lo % 2 ^ width
  if u < 2 ^ (width - 1) then u else (u : ℤ) - 2 ^ width

/-- `validVA`: `VPNextend` must extend `VPN`. -/
def validVA (VPN VPNextend : ℤ) : Bool :=
  if 0 ≤ VPN then VPNextend = 0 else VPNextend = -1

/-- `getSv32VPNi`, `getSv39VPNi` and `getSv48VPNi`: field `level` of the VPN
of a virtual address.  The `VPN` bit field of Sv39 and Sv48 is signed, but
its sign extension lies above the bits the mask keeps. -/
def getVPNi (sv : SvMode) (VA : UInt64) (level : ℕ) : ℕ :=
  VA.toNat / 2 ^ 12 % 2 ^ (sv.levels * sv.vpnShift) / 2 ^ (level * sv.vpnShift) %
    2 ^ sv.vpnShift

/-- `getPTETableAddress`: the address of the table a PPN points to. -/
def getPTETableAddress (PPN : UInt64) : UInt64 := PPN <<< 12

/-- `satp.PPN`, which has the width of a PTE's PPN. -/
def satpPPN (sv : SvMode) (satp : UInt64) : UInt64 := UInt64.ofNat (satp.toNat % 2 ^ sv.ppnBits)

/-- `getRootTableAddress`. -/
def getRootTableAddress (sv : SvMode) (satp : UInt64) : UInt64 :=
  getPTETableAddress (satpPPN sv satp)

/-- The fields of a PTE, common to `Sv32Entry`, `Sv39Entry` and `Sv48Entry`:
`V : 1`, `priv : 3`, `U : 1`, `G : 1`, `A : 1`, `D : 1`, `RSW : 2`, then
the PPN. -/
def pteV (PTE : UInt64) : Bool := PTE.toNat.testBit 0

/-- `PTE.fields.priv`: bits 1 to 3, `R`, `W` and `X`. -/
def ptePriv (PTE : UInt64) : MemPriv := MemPriv.ofBits (PTE.toNat / 2)

/-- `PTE.fields.U`. -/
def pteU (PTE : UInt64) : Bool := PTE.toNat.testBit 4

/-- `PTE.fields.G`. -/
def pteG (PTE : UInt64) : Bool := PTE.toNat.testBit 5

/-- `PTE.fields.A`. -/
def pteA (PTE : UInt64) : Bool := PTE.toNat.testBit 6

/-- `PTE.fields.D`. -/
def pteD (PTE : UInt64) : Bool := PTE.toNat.testBit 7

/-- `PTE.fields.PPN`: the bits from bit 10 on, `ppnBits` of them. -/
def ptePPN (sv : SvMode) (PTE : UInt64) : UInt64 :=
  UInt64.ofNat (PTE.toNat / 2 ^ 10 % 2 ^ sv.ppnBits)

/-- `PTE.fields.A = 1`. -/
def pteSetA (PTE : UInt64) : UInt64 := PTE ||| 0x40

/-- `PTE.fields.D = 1`. -/
def pteSetD (PTE : UInt64) : UInt64 := PTE ||| 0x80

/-- The page table memory as the walk sees it through the page table walk
domain: the word at each physical address, and whether a read or a write
there fails and sets `PTWBadAddr`. -/
structure PtwMemory where
  word : UInt64 → UInt64
  readFault : UInt64 → Bool
  writeFault : UInt64 → Bool

/-- `readPageTableEntry`: a 4-byte or an 8-byte read. -/
def readPageTableEntry (mem : PtwMemory) (PTEAddr : UInt64) (entryBytes : ℕ) : UInt64 :=
  if entryBytes = 4 then (mem.word PTEAddr).toUInt32.toUInt64 else mem.word PTEAddr

/-- What the walk reads of the hart besides the page tables: `satp`,
`mstatus.MXR` and `mstatus.SUM`, the privileged architecture version, the
options `updatePTEA` and `updatePTED`, the implemented ASID bits and whether
the access is an artifact access. -/
structure PtwContext where
  satp : UInt64
  MXR : Bool
  SUM : Bool
  privVersion : RiscvPrivVer
  updatePTEA : Bool
  updatePTED : Bool
  ASIDMask : ℕ
  artifactAccess : Bool

/-- A TLB entry, with the fields the walk fills. -/
structure TlbEntry where
  lowVA : UInt64
  highVA : UInt64
  PA : UInt64
  priv : MemPriv
  U : Bool
  G : Bool
  A : Bool
  D : Bool
  deriving DecidableEq, Repr

/-- `getG`: every entry is global when no ASID bits are implemented. -/
def getG (ctx : PtwContext) (G : Bool) : Bool := G || ctx.ASIDMask == 0

/-- `checkEntryPermission`: the privilege the entry gives `mode`, or none if
that does not include `requiredPriv`. -/
def checkEntryPermission (ctx : PtwContext) (mode : RiscvMode) (entry : TlbEntry)
    (requiredPriv : MemPriv) : MemPriv :=
  let priv := entry.priv
  -- MXR makes executable pages readable, before the mode-specific check
  let priv := if priv.x && ctx.MXR then priv ||| MemPriv.R else priv
  let priv :=
    if mode = .user then
      if !entry.U then MemPriv.none else priv
    else if entry.U then
      if !ctx.SUM then MemPriv.none
      -- from version 1.11 Supervisor mode never executes a page with U=1
      else if RiscvPrivVer.v1_11 ≤ ctx.privVersion then priv.diff MemPriv.X
      else priv
    else priv
  if priv &&& requiredPriv = requiredPriv then priv else MemPriv.none

/-! ### Errors -/

/-- `pteError`: the ways a walk fails. -/
inductive PteError where
  | vaExtend
  | read
  | write
  | v0
  | r0w1
  | leaf
  | align
  | priv
  | a0
  | d0
  deriving DecidableEq, Repr

/-- `originalAccessFault`: the access fault of the access type.  The source
aborts for a privilege other than `R`, `W` or `X`, which no caller passes. -/
def originalAccessFault (requiredPriv : MemPriv) : ℕ :=
  if requiredPriv = MemPriv.R then LoadAccessFault
  else if requiredPriv = MemPriv.W then StoreAMOAccessFault
  else InstructionAccessFault

/-- `handlePTWException`: an access fault for a failed PTE read or write, a
page fault of the access type otherwise. -/
def handlePTWException (requiredPriv : MemPriv) (error : PteError) : ℕ :=
  match error with
  | .read | .write => originalAccessFault requiredPriv
  | _ =>
      if requiredPriv = MemPriv.R then LoadPageFault
      else if requiredPriv = MemPriv.W then StoreAMOPageFault
      else InstructionPageFault

/-! ### The walk -/

section Walk

variable (sv : SvMode) (ctx : PtwContext) (mem : PtwMemory)

/-- The table walk loop.  `n` counts the levels still to visit, the level
visited is `n - 1`, and `a` is the address of its table.  Returns the level,
address and value of the leaf PTE. -/
def ptwLoop (VA : UInt64) : ℕ → UInt64 → Except PteError (ℕ × UInt64 × UInt64)
  | 0, _ => .error .leaf
  | i + 1, a =>
      let PTEAddr := a + UInt64.ofNat (getVPNi sv VA i * sv.entryBytes)
      let PTE := readPageTableEntry mem PTEAddr sv.entryBytes
      if mem.readFault PTEAddr then .error .read
      else if !pteV PTE then .error .v0
      else if ptePriv PTE &&& MemPriv.RW = MemPriv.W then .error .r0w1
      else if ptePriv PTE ≠ MemPriv.none then .ok (i, PTEAddr, PTE)
      else ptwLoop VA i (getPTETableAddress (ptePPN sv PTE))

/-- The TLB entry of the leaf PTE at level `i`: the page of the level's size
around `VA`, at the physical page of the PTE (`PA.fields.PPN =
PTE.fields.PPN` with a zero page offset), with the PTE's attributes. -/
def fillEntry (VA : UInt64) (i : ℕ) (PTE : UInt64) : TlbEntry :=
  let size : UInt64 := 1 <<< UInt64.ofNat (i * sv.vpnShift + 12)
  let lowVA := VA &&& (0 - size)
  ⟨lowVA, lowVA + size - 1, ptePPN sv PTE <<< 12, ptePriv PTE, pteU PTE, getG ctx (pteG PTE),
    pteA PTE, pteD PTE⟩

/-- The leaf phase: the page the leaf PTE at level `i` maps must be aligned to
its size, and the entry of that page must give the access. -/
def ptwLeaf (mode : RiscvMode) (VA : UInt64) (requiredPriv : MemPriv) (i : ℕ) (PTE : UInt64) :
    Except PteError TlbEntry :=
  let PA := ptePPN sv PTE <<< 12
  let size : UInt64 := 1 <<< UInt64.ofNat (i * sv.vpnShift + 12)
  if PA &&& (size - 1) ≠ 0 then .error .align
  else
    let entry := fillEntry sv ctx VA i PTE
    if checkEntryPermission ctx mode entry requiredPriv = MemPriv.none then .error .priv
    else .ok entry

/-- The A update: `A` is set on any access, when the hardware may. -/
def setPTEA (entry : TlbEntry) (PTE : UInt64) : Except PteError (TlbEntry × UInt64 × Bool) :=
  if entry.A then .ok (entry, PTE, false)
  else if !ctx.updatePTEA then .error .a0
  else .ok ({ entry with A := true }, pteSetA PTE, true)

/-- The D update: `D` is set on a write, when the hardware may. -/
def setPTED (requiredPriv : MemPriv) :
    TlbEntry × UInt64 × Bool → Except PteError (TlbEntry × UInt64 × Bool)
  | (entry, PTE, doWrite) =>
      if entry.D || !requiredPriv.w then .ok (entry, PTE, doWrite)
      else if !ctx.updatePTED then .error .d0
      else .ok ({ entry with D := true }, pteSetD PTE, true)

/-- The write of a changed PTE; an artifact access writes nothing. -/
def writeBack (PTEAddr : UInt64) :
    TlbEntry × UInt64 × Bool → Except PteError (TlbEntry × Option (UInt64 × UInt64))
  | (entry, PTE, doWrite) =>
      if doWrite then
        if ctx.artifactAccess then .ok (entry, none)
        else if mem.writeFault PTEAddr then .error .write
        else .ok (entry, some (PTEAddr, PTE))
      else .ok (entry, none)

/-- The walk for the address `lowVA` of the entry, up to the `pteError`. -/
def tlbLookupPTE (mode : RiscvMode) (lowVA : UInt64) (requiredPriv : MemPriv) :
    Except PteError (TlbEntry × Option (UInt64 × UInt64)) := do
  let VA := UInt64.ofNat (lowVA.toNat % 2 ^ sv.vaBits)
  let levelBits := sv.levels * sv.vpnShift
  if sv.extend && !validVA (signedField VA 12 levelBits)
      (signedField VA (12 + levelBits) (64 - 12 - levelBits)) then
    throw .vaExtend
  -- clear the page offset bits
  let VA := VA &&& ~~~0xFFF
  let (i, PTEAddr, PTE) ← ptwLoop sv mem VA sv.levels (getRootTableAddress sv ctx.satp)
  let entry ← ptwLeaf sv ctx mode VA requiredPriv i PTE
  let updated ← setPTEA ctx entry PTE >>= setPTED ctx requiredPriv
  writeBack ctx mem PTEAddr updated

/-- `tlbLookupSvxx`: the walk, with its error turned into an exception. -/
def tlbLookup (mode : RiscvMode) (lowVA : UInt64) (requiredPriv : MemPriv) :
    Except ℕ (TlbEntry × Option (UInt64 × UInt64)) :=
  (tlbLookupPTE sv ctx mem mode lowVA requiredPriv).mapError (handlePTWException requiredPriv)

end Walk

/-- `tlbLookupSv32`. -/
def tlbLookupSv32 (ctx : PtwContext) (mem : PtwMemory) (mode : RiscvMode) (lowVA : UInt64)
    (requiredPriv : MemPriv) : Except ℕ (TlbEntry × Option (UInt64 × UInt64)) :=
  tlbLookup Sv32 ctx mem mode lowVA requiredPriv

/-- `tlbLookupSv39`. -/
def tlbLookupSv39 (ctx : PtwContext) (mem : PtwMemory) (mode : RiscvMode) (lowVA : UInt64)
    (requiredPriv : MemPriv) : Except ℕ (TlbEntry × Option (UInt64 × UInt64)) :=
  tlbLookup Sv39 ctx mem mode lowVA requiredPriv

/-- `tlbLookupSv48`. -/
def tlbLookupSv48 (ctx : PtwContext) (mem : PtwMemory) (mode : RiscvMode) (lowVA : UInt64)
    (requiredPriv : MemPriv) : Except ℕ (TlbEntry × Option (UInt64 × UInt64)) :=
  tlbLookup Sv48 ctx mem mode lowVA requiredPriv

end RiscvOvpsim
