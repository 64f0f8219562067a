import RiscvOvpsim.Basic
import RiscvOvpsim.Lib.BitField
import RiscvOvpsim.Lib.Bitmap
import RiscvOvpsim.Lib.BitScan
import RiscvOvpsim.Lib.ArgMax

/-!
The interrupt state of a hart with a CLIC (`riscvCLIC.c`, `riscvCLICTypes.h`,
`riscvExceptions.c`): the four byte-wide fields of each CLIC interrupt, the
interrupt inputs, the cache `clic.ipe` of the pending-and-enabled interrupts
and the interrupt it selects, the basic registers `mie` and `mip` with the
software-pending bits, and whether the hart is halted in `WFI`.

* `ClicConfig`, `IntHart`, `Clic`: the configuration, a hart, a cluster with
  its shared `cliccfg`;
* `IntHart.getCLICInterruptPending`, `getCLICInterruptEnable`,
  `getCLICInterruptMode`: what the fields and the input of an interrupt say;
* `IntHart.riscvRefreshPendingAndEnabledInternalCLIC`: the scan of `clic.ipe`
  for the interrupt of greatest rank; `riscvTestInterrupt`: the refresh, and
  the restart of a hart halted in `WFI` when an interrupt is pending;
* `riscvTestInterrupt_getPending`: after the test a hart is halted only when
  nothing is pending.
-/

namespace RiscvOvpsim

/-! ### Registers -/

/-- `CLICIntFieldType`: the byte-wide fields of a CLIC interrupt, in the order
of their bytes in its word. -/
inductive CLICIntFieldType where
  | clicintip
  | clicintie
  | clicintattr
  | clicintctl
  deriving DecidableEq, Repr

namespace CLICIntFieldType

/-- The field in byte `b` of the word. -/
def ofByte (b : ℕ) : CLICIntFieldType :=
  match b % 4 with
  | 0 => clicintip
  | 1 => clicintie
  | 2 => clicintattr
  | _ => clicintctl

/-- The byte of the word that holds the field. -/
def toByte : CLICIntFieldType → ℕ
  | clicintip => 0
  | clicintie => 1
  | clicintattr => 2
  | clicintctl => 3

@[simp] lemma ofByte_toByte (f : CLICIntFieldType) : ofByte f.toByte = f := by
  cases f <;> rfl

lemma toByte_lt_four (f : CLICIntFieldType) : f.toByte < 4 := by
  cases f <;> decide

end CLICIntFieldType

-- the fields of `cliccfg`
namespace Cliccfg

def nvbits : BitField := ⟨0, 1, BitField.fits_bit_zero⟩
def nlbits : BitField := ⟨1, 4, by norm_num⟩
def nmbits : BitField := ⟨5, 2, by norm_num⟩
def u1 : BitField := ⟨7, 25, by norm_num⟩

end Cliccfg

-- the fields of `clicinfo`
namespace Clicinfo

def num_interrupt : BitField := ⟨0, 13, by norm_num⟩
def version : BitField := ⟨13, 8, by norm_num⟩
def CLICINTCTLBITS : BitField := ⟨21, 4, by norm_num⟩

end Clicinfo

-- the fields of `clicintattr`
namespace Clicintattr

def shv : BitField := ⟨0, 1, BitField.fits_bit_zero⟩
def trig : BitField := ⟨1, 2, by norm_num⟩
def u1 : BitField := ⟨3, 3, by norm_num⟩
def mode : BitField := ⟨6, 2, by norm_num⟩

end Clicintattr

/-! ### Configuration and state -/

/-- What the configuration fixes, the same for every hart of a cluster. -/
structure ClicConfig where
  /-- `numHarts`: the harts of a cluster, zero for a single hart -/
  numHarts : ℕ
  /-- `local_int_num`: the interrupts above the sixteen standard ones -/
  localIntNum : ℕ
  /-- `CLICLEVELS`: zero when there is no CLIC -/
  CLICLEVELS : ℕ
  externalCLIC : Bool
  CLICANDBASIC : Bool
  CLICCFGMBITS : ℕ
  CLICSELHVEC : Bool
  CLICINTCTLBITS : ℕ
  CLICVERSION : ℕ
  /-- whether the architecture has the N extension -/
  archN : Bool
  /-- `interruptMask`: the standard interrupts the harts implement -/
  interruptMask : UInt64
  deriving DecidableEq, Repr

namespace ClicConfig

variable (cfg : ClicConfig)

/-- `CLICPresent`. -/
def CLICPresent : Bool := cfg.CLICLEVELS ≠ 0

/-- `CLICInternal`. -/
def CLICInternal : Bool := cfg.CLICPresent && !cfg.externalCLIC

/-- `basicICPresent`. -/
def basicICPresent : Bool := !cfg.CLICPresent || cfg.CLICANDBASIC

/-- `getNumHarts`. -/
def getNumHarts : ℕ := if cfg.numHarts = 0 then 1 else cfg.numHarts

/-- `riscvGetIntNum`: the standard and the local interrupts. -/
def riscvGetIntNum : ℕ := cfg.localIntNum + 16

/-- `getIntNum`: `clicinfo.num_interrupt`, as `riscvNewCLIC` wrote it into its
13 bits. -/
def getIntNum : ℕ := cfg.riscvGetIntNum % 2 ^ 13

/-- `ipDWords`: the words of the interrupt bit maps. -/
def ipDWords : ℕ := (cfg.riscvGetIntNum + 63) / 64

/-- `getCLICIntCtl1Bits`: the bits of `clicintctl` that read as one. -/
def getCLICIntCtl1Bits : ℕ := 2 ^ (8 - cfg.CLICINTCTLBITS) - 1

/-- `riscvHasException` for the standard interrupt `i`: the CLIC software
interrupt exists with a CLIC, the others by `interruptMask`. -/
def riscvHasInterrupt (i : ℕ) : Bool :=
  if i = 12 then cfg.CLICPresent else cfg.interruptMask.toNat.testBit i

lemma getNumHarts_pos : 0 < cfg.getNumHarts := by
  unfold getNumHarts
  split_ifs with h
  · exact Nat.one_pos
  · exact Nat.pos_of_ne_zero h

end ClicConfig

/-- `RV_NO_INT`. -/
def RV_NO_INT : Int := -1

/-- `riscvCLICOutState`: the interrupt a CLIC presents to its hart. -/
structure ClicSel where
  priv : RiscvMode
  id : Int
  level : UInt8
  shv : Bool
  deriving DecidableEq, Repr

/-- The interrupt state of a hart.  The word arrays `ip` and `clic.ipe` are
functions from word indices; `WFI` is bit `RVD_WFI` of `disable`. -/
structure IntHart where
  mie : UInt64
  mip : UInt64
  /-- `swip`: the pending bits software wrote -/
  swip : UInt32
  /-- `ip`: the interrupt inputs -/
  ip : ℕ → UInt64
  /-- `clic.intState`: the fields of each interrupt -/
  intState : ℕ → CLICIntFieldType → UInt8
  /-- `clic.ipe`: the pending-and-enabled interrupts, as cached -/
  ipe : ℕ → UInt64
  /-- `clic.sel` -/
  sel : ClicSel
  /-- `netValue.enableCLIC` -/
  enableCLIC : Bool
  WFI : Bool
  DM : Bool

/-- A cluster: the harts and the `cliccfg` they share, kept at the root. -/
structure Clic where
  cliccfg : UInt64
  harts : ℕ → IntHart

/-! ### One interrupt -/

namespace IntHart

variable (h : IntHart)

/-- `setCLICInterruptField`. -/
def setCLICInterruptField (i : ℕ) (type : CLICIntFieldType) (newValue : UInt8) : IntHart :=
  { h with intState := Function.update h.intState i (Function.update (h.intState i) type newValue) }

/-- `isCLICInterruptEdge`: bit 0 of `clicintattr.trig`. -/
def isCLICInterruptEdge (i : ℕ) : Bool :=
  Clicintattr.trig.get (h.intState i .clicintattr).toUInt64 &&& 1 != 0

/-- `isCLICInterruptActiveLow`: bit 1 of `clicintattr.trig`. -/
def isCLICInterruptActiveLow (i : ℕ) : Bool :=
  Clicintattr.trig.get (h.intState i .clicintattr).toUInt64 &&& 2 != 0

/-- `getCLICInterruptPending`: the latched bit, and for a level-triggered
interrupt also the input as it is. -/
def getCLICInterruptPending (i : ℕ) : Bool :=
  let IP := h.intState i .clicintip != 0
  if !h.isCLICInterruptEdge i then IP || Bitmap.get h.ip i else IP

/-- `getCLICInterruptEnable`. -/
def getCLICInterruptEnable (i : ℕ) : Bool := h.intState i .clicintie != 0

/-- `getCLICPendingEnable`: the cached bit. -/
def getCLICPendingEnable (i : ℕ) : Bool := Bitmap.get h.ipe i

/-- `getCLICInterruptValue`: the word of the union `riscvCLICIntState`, which
on the little-endian hosts the simulator runs on holds field `k` in byte
`k`. -/
def getCLICInterruptValue (i : ℕ) : UInt32 :=
  UInt32.ofNat ((h.intState i .clicintip).toNat + (h.intState i .clicintie).toNat * 2 ^ 8 +
    (h.intState i .clicintattr).toNat * 2 ^ 16 + (h.intState i .clicintctl).toNat * 2 ^ 24)

@[simp] lemma setCLICInterruptField_intState (i : ℕ) (type : CLICIntFieldType) (v : UInt8)
    (j : ℕ) (f : CLICIntFieldType) :
    (h.setCLICInterruptField i type v).intState j f = if j = i ∧ f = type then v else h.intState j f := by
  unfold setCLICInterruptField
  by_cases hj : j = i
  · subst hj
    by_cases hf : f = type
    · subst hf
      simp
    · simp [hf]
  · simp [hj]

section Config

variable (cfg : ClicConfig) (cliccfg : UInt64)

/-- The mode `getCLICInterruptMode` reads from a value `attr_mode` of
`clicintattr.mode`: Machine mode without `nmbits`; with one mode bit in an
M/U configuration, its high bit chooses Machine or User mode; otherwise the
field itself, its low bit set when `nmbits` is one. -/
def clicInterruptMode (attr_mode : ℕ) : RiscvMode :=
  let nmbits := Cliccfg.nmbits.get cliccfg
  if nmbits = 0 then .machine
  else if cfg.CLICCFGMBITS = 1 then (if attr_mode &&& 2 ≠ 0 then .machine else .user)
  else RiscvMode.ofBits (attr_mode ||| (if nmbits = 1 then 1 else 0))

/-- `getCLICInterruptMode`: the mode of an interrupt, as `clicintattr.mode`
reads under `cliccfg.nmbits` and the configured `CLICCFGMBITS`. -/
def getCLICInterruptMode (i : ℕ) : RiscvMode :=
  clicInterruptMode cfg cliccfg (Clicintattr.mode.get (h.intState i .clicintattr).toUInt64)

/-! ### The selection -/

/-- The rank of an interrupt: its mode above its `clicintctl`. -/
def clicRank (i : ℕ) : ℕ :=
  (h.getCLICInterruptMode cfg cliccfg i).toNat <<< 8 ||| (h.intState i .clicintctl).toNat

/-- One step of the scan: interrupt `i` is selected when its rank is at least
the greatest so far, so that the highest-numbered wins a tie. -/
def updateCLICSelected (acc : ℕ × Int) (i : ℕ) : ℕ × Int :=
  let rank := h.clicRank cfg cliccfg i
  if acc.1 ≤ rank then (rank, i) else acc

/-- The scan of `riscvRefreshPendingAndEnabledInternalCLIC`: every word of
`clic.ipe` in turn, the set bits of each from bit 0 up; the greatest rank and
the interrupt that has it. -/
def scanCLICPendingEnabled : ℕ × Int :=
  (List.range cfg.ipDWords).foldl
    (fun acc wordIndex =>
      let pendingEnabled := h.ipe wordIndex
      if pendingEnabled ≠ 0 then
        BitScan.loop (h.updateCLICSelected cfg cliccfg) 64 pendingEnabled.toNat (wordIndex * 64) acc
      else acc)
    (0, RV_NO_INT)

/-- `riscvRefreshPendingAndEnabledInternalCLIC`: the interrupt the CLIC
presents, with its mode, its level (the bits of `clicintctl` that
`cliccfg.nlbits` names, the others one) and `clicintattr.shv`. -/
def riscvRefreshPendingAndEnabledInternalCLIC : ClicSel :=
  let id := (h.scanCLICPendingEnabled cfg cliccfg).2
  if id ≠ RV_NO_INT then
    let clicintattr := (h.intState id.toNat .clicintattr).toUInt64
    let clicintctl := h.intState id.toNat .clicintctl
    let nlbits := Cliccfg.nlbits.get cliccfg
    let nlbitsMask : UInt8 := ~~~(UInt8.ofNat (2 ^ (8 - nlbits) - 1))
    { priv := h.getCLICInterruptMode cfg cliccfg id.toNat
      id := id
      level := (clicintctl &&& nlbitsMask) ||| ~~~nlbitsMask
      shv := Clicintattr.shv.get clicintattr ≠ 0 }
  else ⟨.user, RV_NO_INT, 0, false⟩

/-- `riscvRefreshPendingAndEnabled`, as far as the state goes: an internal
CLIC selects again.  The basic-mode selection it also makes is recorded only
in `pendEnab`, which decides when the interrupt is taken and is not modelled
here. -/
def riscvRefreshPendingAndEnabled : IntHart :=
  if cfg.CLICInternal then { h with sel := h.riscvRefreshPendingAndEnabledInternalCLIC cfg cliccfg }
  else h

end Config

/-! ### Pending interrupts and `WFI` -/

/-- `getPendingBasic`: the pending and enabled basic interrupts. -/
def getPendingBasic : UInt64 := h.mie &&& h.mip

/-- `getPendingCLIC`: whether the CLIC presents an interrupt. -/
def getPendingCLIC : Bool := h.enableCLIC && h.sel.id != RV_NO_INT

/-- `getPending`: whether an interrupt is pending that ends a `WFI`. -/
def getPending : Bool := h.getPendingBasic != 0 || h.getPendingCLIC

/-- `restartProcessor` for `RVD_RESTART_WFI`. -/
def restartProcessor : IntHart := { h with WFI := false }

/-- `riscvTestInterrupt`: refresh the selection and restart a hart halted in
`WFI` if an interrupt is pending.  Taking a pending and enabled interrupt is
scheduled for the hart's next instruction, outside this state. -/
def riscvTestInterrupt (cfg : ClicConfig) (cliccfg : UInt64) : IntHart :=
  let h := h.riscvRefreshPendingAndEnabled cfg cliccfg
  if h.getPending then h.restartProcessor else h

section Frame

variable (cfg : ClicConfig) (cliccfg : UInt64)

/-- The refresh changes only the selection. -/
lemma riscvRefreshPendingAndEnabled_eq :
    ∃ sel, h.riscvRefreshPendingAndEnabled cfg cliccfg = { h with sel := sel } := by
  unfold riscvRefreshPendingAndEnabled
  split_ifs
  · exact ⟨_, rfl⟩
  · exact ⟨h.sel, rfl⟩

/-- The test changes only the selection and the halt. -/
lemma riscvTestInterrupt_eq :
    ∃ sel WFI, h.riscvTestInterrupt cfg cliccfg = { h with sel := sel, WFI := WFI } := by
  obtain ⟨sel, hsel⟩ := h.riscvRefreshPendingAndEnabled_eq cfg cliccfg
  unfold riscvTestInterrupt restartProcessor
  rw [hsel]
  dsimp only
  split_ifs
  · exact ⟨sel, false, rfl⟩
  · exact ⟨sel, h.WFI, rfl⟩

@[simp] lemma riscvTestInterrupt_intState : (h.riscvTestInterrupt cfg cliccfg).intState = h.intState := by
  obtain ⟨sel, WFI, heq⟩ := h.riscvTestInterrupt_eq cfg cliccfg
  rw [heq]

@[simp] lemma riscvTestInterrupt_ip : (h.riscvTestInterrupt cfg cliccfg).ip = h.ip := by
  obtain ⟨sel, WFI, heq⟩ := h.riscvTestInterrupt_eq cfg cliccfg
  rw [heq]

@[simp] lemma riscvTestInterrupt_ipe : (h.riscvTestInterrupt cfg cliccfg).ipe = h.ipe := by
  obtain ⟨sel, WFI, heq⟩ := h.riscvTestInterrupt_eq cfg cliccfg
  rw [heq]

@[simp] lemma riscvTestInterrupt_mie : (h.riscvTestInterrupt cfg cliccfg).mie = h.mie := by
  obtain ⟨sel, WFI, heq⟩ := h.riscvTestInterrupt_eq cfg cliccfg
  rw [heq]

@[simp] lemma riscvTestInterrupt_mip : (h.riscvTestInterrupt cfg cliccfg).mip = h.mip := by
  obtain ⟨sel, WFI, heq⟩ := h.riscvTestInterrupt_eq cfg cliccfg
  rw [heq]

@[simp] lemma riscvTestInterrupt_swip : (h.riscvTestInterrupt cfg cliccfg).swip = h.swip := by
  obtain ⟨sel, WFI, heq⟩ := h.riscvTestInterrupt_eq cfg cliccfg
  rw [heq]

/-- **After a test, a hart is halted in `WFI` only when nothing is
pending.** -/
lemma riscvTestInterrupt_getPending (hW : (h.riscvTestInterrupt cfg cliccfg).WFI = true) :
    (h.riscvTestInterrupt cfg cliccfg).getPending = false := by
  unfold riscvTestInterrupt at hW ⊢
  dsimp only at hW ⊢
  split_ifs at hW ⊢ with hp
  · exact absurd hW Bool.false_ne_true
  · exact Bool.eq_false_iff.mpr hp

end Frame

end IntHart

end RiscvOvpsim
