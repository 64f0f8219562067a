import RiscvOvpsim.Basic

/-!
Physical memory protection registers (`riscvVM.c`, "PHYSICAL MEMORY
MANAGEMENT"): the configuration byte of an entry, the PMP state of a hart,
and the read-only functions that interpret an entry.

* `PmpcfgElem` is the union `pmpcfgElem`: a configuration byte seen through
  its fields `priv : 3`, `mode : 2`, `_u1 : 2` and `L : 1`.  The fields are
  stored and compared as the byte they pack (`PmpcfgElem.ofByte_toByte`).
* `PmpState` holds `pmpcfg.u8[]`, `pmpaddr[]` and the PMP memory domains
  `pmpDomains[mode][isCode]`, each a map from physical address to privilege.
* `getEffectivePMPAddr`, `getPMPRegionActive`, `getPMPEntryBounds`,
  `pmpLocked`, `pmpLockedTOR` and `lowerPriorityPMPEntryLocked` read an entry
  as the source does, with the `Uns64` arithmetic of the source (wrapping
  `UInt64` operations).
-/

namespace RiscvOvpsim

/-! ### Configuration bytes -/

/-- `pmpcfgMode`: the address-matching mode of an entry. -/
inductive PmpcfgMode where
  | off
  | tor
  | na4
  | napot
  deriving DecidableEq, Repr

namespace PmpcfgMode

/-- The two-bit encoding of a mode. -/
def toNat : PmpcfgMode → ℕ
  | off => 0
  | tor => 1
  | na4 => 2
  | napot => 3

/-- A two-bit field read as a mode. -/
def ofBits (n : ℕ) : PmpcfgMode :=
  match n % 4 with
  | 0 => off
  | 1 => tor
  | 2 => na4
  | _ => napot

@[simp] lemma ofBits_toNat (m : PmpcfgMode) : ofBits m.toNat = m := by
  cases m <;> rfl

lemma toNat_lt (m : PmpcfgMode) : m.toNat < 4 := by
  cases m <;> simp [toNat]

end PmpcfgMode

/-- `pmpcfgElem`: one configuration byte through its fields `priv : 3`,
`mode : 2`, `_u1 : 2` (reserved) and `L : 1`. -/
structure PmpcfgElem where
  priv : MemPriv
  mode : PmpcfgMode
  u1 : Fin 4
  L : Bool
  deriving DecidableEq, Repr

namespace PmpcfgElem

/-- The all-zero byte: an unlocked entry in mode `OFF`. -/
def zero : PmpcfgElem := ⟨MemPriv.none, .off, 0, false⟩

instance : Inhabited PmpcfgElem := ⟨zero⟩

/-- The `u8` view of the union. -/
def toByte (e : PmpcfgElem) : ℕ :=
  e.priv.toBits + 8 * e.mode.toNat + 32 * e.u1.val + 128 * e.L.toNat

/-- A byte seen through the fields of the union. -/
def ofByte (b : ℕ) : PmpcfgElem :=
  ⟨MemPriv.ofBits b, PmpcfgMode.ofBits (b / 8), ⟨b / 32 % 4, Nat.mod_lt _ (by norm_num)⟩,
    b.testBit 7⟩

@[simp] lemma ofByte_zero : ofByte 0 = zero := rfl

/-- Reading the fields of the byte a configuration packs gives it back, so
that comparing configurations is comparing their bytes, as the source does. -/
lemma ofByte_toByte (e : PmpcfgElem) : ofByte e.toByte = e := by
  obtain ⟨⟨r, w, x⟩, m, u, l⟩ := e
  revert u
  cases m <;> cases r <;> cases w <;> cases x <;> cases l <;> decide

end PmpcfgElem

/-! ### Configuration and state -/

/-- The configuration the PMP functions read: `configInfo.PMP_registers`,
`configInfo.PMP_grain` (`G`), `extBits`, `configInfo.unaligned`, the current
FLEN and XLEN, and whether data and code share one PMP domain. -/
structure PmpConfig where
  numRegs : ℕ
  grain : ℕ
  extBits : ℕ
  unaligned : Bool
  flenArch : ℕ
  xlenArch : ℕ
  unified : Bool

/-- The PMP state of a hart: `pmpcfg.u8[]`, `pmpaddr[]` and the domains
`pmpDomains[mode][isCode]`, each a map from physical address to the
privilege it currently grants. -/
structure PmpState where
  pmpcfg : ℕ → PmpcfgElem
  pmpaddr : ℕ → UInt64
  domain : RiscvMode → Bool → UInt64 → MemPriv

variable (cfg : PmpConfig)

/-- `getPMPCFGElem`. -/
def getPMPCFGElem (s : PmpState) (index : ℕ) : PmpcfgElem := s.pmpcfg index

/-- `pmpLocked`: an entry is locked by its `L` bit, except for artifact
(debugger) accesses. -/
def pmpLocked (artifact : Bool) (s : PmpState) (index : ℕ) : Bool :=
  !artifact && (getPMPCFGElem s index).L

/-- `getEffectivePMPAddr`: the address register as the grain makes it read,
with bits `[G-2:0]` read as ones in `NAPOT` mode (`G ≥ 2`) and bits `[G-1:0]`
read as zeros otherwise (`G ≥ 1`). -/
def getEffectivePMPAddr (s : PmpState) (index : ℕ) : UInt64 :=
  let e := getPMPCFGElem s index
  let G := cfg.grain
  let result := s.pmpaddr index
  if 2 ≤ G ∧ e.mode = .napot then
    result ||| (((1 : UInt64) <<< (G - 1).toUInt64) - 1)
  else if 1 ≤ G ∧ e.mode ≠ .napot then
    result &&& ((0xFFFFFFFFFFFFFFFF : UInt64) <<< G.toUInt64)
  else
    result

/-- `getPMPRegionActive`: `OFF` entries are inactive, and a `TOR` entry is
effectively inactive when its address is zero. -/
def getPMPRegionActive (s : PmpState) (e : PmpcfgElem) (index : ℕ) : Bool :=
  match e.mode with
  | .off => false
  | .tor => getEffectivePMPAddr cfg s index != 0
  | _ => true

/-- `pmpLockedTOR`: the entry exists, is locked and is in `TOR` mode. -/
def pmpLockedTOR (artifact : Bool) (s : PmpState) (index : ℕ) : Bool :=
  decide (index < cfg.numRegs) && (getPMPCFGElem s index).mode == .tor &&
    pmpLocked artifact s index

/-- `getPMPEntryBounds`: the lowest and highest byte address an entry covers.
A `TOR` entry runs from the previous address register, masked to the grain,
to its own address minus one, and may come out empty (`low > high`). -/
def getPMPEntryBounds (s : PmpState) (index : ℕ) : UInt64 × UInt64 :=
  let e := getPMPCFGElem s index
  let low := getEffectivePMPAddr cfg s index <<< 2
  match e.mode with
  | .na4 => (low, low + 3)
  | .napot =>
      let notLow := ~~~(low + 3)
      let mask := ((notLow &&& (0 - notLow)) <<< 1) - 1
      (low &&& ~~~mask, (low &&& ~~~mask) ||| mask)
  | _ =>
      let high := low - 1
      let low : UInt64 := if index = 0 then 0 else s.pmpaddr (index - 1) <<< 2
      (low &&& ((0xFFFFFFFFFFFFFFFC : UInt64) <<< cfg.grain.toUInt64), high)

/-- `lowerPriorityPMPEntryLocked`: some entry numbered above `index` is
locked and not `OFF`. -/
def lowerPriorityPMPEntryLocked (s : PmpState) (index : ℕ) : Bool :=
  (List.range' (index + 1) (cfg.numRegs - (index + 1))).any fun i =>
    (getPMPCFGElem s i).L && (getPMPCFGElem s i).mode != .off

end RiscvOvpsim
