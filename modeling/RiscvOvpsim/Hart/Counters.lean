import RiscvOvpsim.Hart.Mprv

/-!
The cycle and retired-instruction counters (`riscvCSR.c`: `getCycles`,
`getInstructions`, `stopCount`, `riscvInhibitCycle`, `riscvInhibitInstret`,
`cycleR`, `cycleW`, `instretR`, `instretW`, `mcycleW`, `mcyclehW`,
`minstretW`, `minstrethW`, `riscvPreInhibit`, `riscvPostInhibit`,
`mcountinhibitW`, `dcsrWInt`).

A counter is not stored.  While it counts, its base is kept and the counter
is the free-running VMI count less the base; while it is inhibited, the base
is the counter itself.  A write, and a change of inhibition, set the base
that makes the counter read what it should from the next instruction on.

The VMI counts are `executed` and `retired`, the instructions executed and
retired before the current one: during the current instruction,
`vmirtGetICount` and `vmirtGetExecutedICount` include it, so a true access
reads one more.

* `counterR`, `counterBase`: the read and the write of a counter, of which
  `cycleR`, `instretR`, `cycleW` and `instretW` are the two instances;
* `CountSpec`, `countSpecStep`: the architectural counters, which count the
  instructions that run while they are not inhibited, hold their value over
  an instruction that changes their inhibition, and read after a write what
  was written, or for a write of a 32-bit half the other half as it was;
* `countStep_view`, `count_refinement`: every instruction, and so every run,
  of the model is one of the specification as the counters read.
-/

namespace RiscvOvpsim

namespace Mcountinhibit

def CY : BitField := ⟨0, 1, BitField.fits_bit_zero⟩
def IR : BitField := ⟨2, 1, by norm_num⟩

end Mcountinhibit

/-- What the configuration fixes for the counters. -/
structure CountConfig (Dom : Type) where
  hart : HartConfig Dom
  /-- whether XLEN is 32, so that a counter is written one half at a time -/
  XLEN32 : Bool
  /-- the writable bits of `mcountinhibit` -/
  mcountinhibitMask : UInt64
  /-- whether the hart has a parent, as the harts of a cluster have -/
  hasParent : Bool

/-- The registers that inhibit the counters: `mcountinhibit`, and `DM` and
`dcsr` of the hart. -/
structure CountCsrs (Dom : Type) where
  hart : Hart Dom
  mcountinhibit : UInt64

/-- A hart with its counters.  `executed` and `retired` are the VMI counts
before the current instruction; `artifactAccess` is set for an access that
is not made by an instruction. -/
structure CountHart (Dom : Type) where
  csrs : CountCsrs Dom
  baseCycles : UInt64
  baseInstructions : UInt64
  executed : UInt64
  retired : UInt64
  artifactAccess : Bool

/-- The instructions that write the counters or their inhibition; every
other instruction is `other`.  The writes are true accesses that
`hpmAccessValid` allows. -/
inductive CountOp where
  | other
  | mcycleW (newValue : UInt64)
  | mcyclehW (newValue : UInt64)
  | minstretW (newValue : UInt64)
  | minstrethW (newValue : UInt64)
  | mcountinhibitW (newValue : UInt64)
  | dcsrW (newValue : UInt64)
  deriving DecidableEq, Repr

section Model

variable {Dom : Type} (cfg : CountConfig Dom)

namespace CountCsrs

variable (c : CountCsrs Dom)

/-- `stopCount`: in Debug mode with `dcsr.stopcount`; when `singleOnly`,
only for a hart without a parent. -/
def stopCount (singleOnly : Bool) : Bool :=
  c.hart.DM && flag Dcsr.stopcount c.hart.dcsr && (!singleOnly || !cfg.hasParent)

/-- `riscvInhibitCycle`. -/
def riscvInhibitCycle : Bool := flag Mcountinhibit.CY c.mcountinhibit || c.stopCount cfg true

/-- `riscvInhibitInstret`. -/
def riscvInhibitInstret : Bool := flag Mcountinhibit.IR c.mcountinhibit || c.stopCount cfg false

/-- The register writes an instruction makes: `mcountinhibit` masked, and
`dcsr` as a true access writes it. -/
def write : CountOp → CountCsrs Dom
  | .mcountinhibitW newValue => { c with mcountinhibit := newValue &&& cfg.mcountinhibitMask }
  | .dcsrW newValue => { c with hart := dcsrWInt cfg.hart c.hart newValue false }
  | _ => c

end CountCsrs

/-! ### One counter -/

/-- `getCycles` and `getInstructions`: the VMI count as an access reads it.
During an instruction the count includes it, and a true access leaves it
out. -/
def getCount (before : UInt64) (artifactAccess : Bool) : UInt64 :=
  let result := if artifactAccess then before else before + 1
  if !artifactAccess then result - 1 else result

/-- `cycleR` and `instretR`: the count less the base, or the base while the
counter is inhibited. -/
def counterR (inhibit : Bool) (count base : UInt64) : UInt64 :=
  if !inhibit then count - base else base

/-- `cycleW` and `instretW`: the base that makes the counter read `newValue`,
one more when the current instruction is counted before the write. -/
def counterBase (inhibit : Bool) (count newValue : UInt64) (increment : Bool) : UInt64 :=
  if !inhibit then (if increment then count - newValue + 1 else count - newValue) else newValue

/-- `setLower`: the low half of `oldValue` replaced, on a little-endian host. -/
def setLower (newValue : UInt32) (oldValue : UInt64) : UInt64 :=
  (oldValue &&& (0xFFFFFFFF00000000 : UInt64)) ||| newValue.toUInt64

/-- `setUpper`: the high half of `oldValue` replaced. -/
def setUpper (newValue : UInt32) (oldValue : UInt64) : UInt64 :=
  (oldValue &&& (0xFFFFFFFF : UInt64)) ||| (newValue.toUInt64 <<< 32)

namespace CountHart

variable (s : CountHart Dom)

/-- `getCycles`. -/
def getCycles : UInt64 := getCount s.executed s.artifactAccess

/-- `getInstructions`. -/
def getInstructions : UInt64 := getCount s.retired s.artifactAccess

/-- `cycleR`. -/
def cycleR : UInt64 := counterR (s.csrs.riscvInhibitCycle cfg) s.getCycles s.baseCycles

/-- `instretR`. -/
def instretR : UInt64 := counterR (s.csrs.riscvInhibitInstret cfg) s.getInstructions s.baseInstructions

/-- `cycleW`: the current instruction is counted before a write it makes
when `preIncrement` is set. -/
def cycleW (newValue : UInt64) (preIncrement : Bool) : CountHart Dom :=
  { s with baseCycles :=
      counterBase (s.csrs.riscvInhibitCycle cfg) s.getCycles newValue (preIncrement && !s.artifactAccess) }

/-- `instretW`: the current instruction is counted before the write. -/
def instretW (newValue : UInt64) : CountHart Dom :=
  { s with baseInstructions := counterBase (s.csrs.riscvInhibitInstret cfg) s.getInstructions newValue true }

/-- `mcycleW`: on RV32 the low half. -/
def mcycleW (newValue : UInt64) : CountHart Dom :=
  if cfg.XLEN32 then s.cycleW cfg (setLower newValue.toUInt32 (s.cycleR cfg)) true
  else s.cycleW cfg newValue true

/-- `mcyclehW`: the high half. -/
def mcyclehW (newValue : UInt64) : CountHart Dom :=
  s.cycleW cfg (setUpper newValue.toUInt32 (s.cycleR cfg)) true

/-- `minstretW`: on RV32 the low half. -/
def minstretW (newValue : UInt64) : CountHart Dom :=
  if cfg.XLEN32 then s.instretW cfg (setLower newValue.toUInt32 (s.instretR cfg))
  else s.instretW cfg newValue

/-- `minstrethW`: the high half. -/
def minstrethW (newValue : UInt64) : CountHart Dom :=
  s.instretW cfg (setUpper newValue.toUInt32 (s.instretR cfg))

end CountHart

/-- `riscvCountState`: the inhibitions and the counters before a register
write that may change the inhibitions. -/
structure RiscvCountState where
  inhibitCycle : Bool
  inhibitInstret : Bool
  cycle : UInt64
  instret : UInt64

namespace CountHart

variable (s : CountHart Dom)

/-- `riscvPreInhibit`. -/
def riscvPreInhibit : RiscvCountState :=
  ⟨s.csrs.riscvInhibitCycle cfg, s.csrs.riscvInhibitInstret cfg, s.cycleR cfg, s.instretR cfg⟩

/-- `riscvPostInhibit`: a counter whose inhibition changed is written with
its value from before. -/
def riscvPostInhibit (state : RiscvCountState) (preIncrement : Bool) : CountHart Dom :=
  let s := if state.inhibitCycle ≠ s.csrs.riscvInhibitCycle cfg then s.cycleW cfg state.cycle preIncrement else s
  if state.inhibitInstret ≠ s.csrs.riscvInhibitInstret cfg then s.instretW cfg state.instret else s

/-- `mcountinhibitW`. -/
def mcountinhibitW (newValue : UInt64) : CountHart Dom :=
  let state := s.riscvPreInhibit cfg
  let s := { s with csrs := { s.csrs with mcountinhibit := newValue &&& cfg.mcountinhibitMask } }
  s.riscvPostInhibit cfg state true

/-- `dcsrWInt` with its effect on the counters: the write of `dcsr`, between
`riscvPreInhibit` and `riscvPostInhibit`. -/
def dcsrWInt (newValue : UInt64) (updateCause : Bool) : CountHart Dom :=
  let state := s.riscvPreInhibit cfg
  let s := { s with csrs := { s.csrs with hart := RiscvOvpsim.dcsrWInt cfg.hart s.csrs.hart newValue updateCause } }
  s.riscvPostInhibit cfg state true

/-- The end of an instruction: it has executed and retired. -/
def retire : CountHart Dom := { s with executed := s.executed + 1, retired := s.retired + 1 }

end CountHart

/-- One instruction. -/
def countStep (s : CountHart Dom) : CountOp → CountHart Dom
  | .other => s.retire
  | .mcycleW newValue => (s.mcycleW cfg newValue).retire
  | .mcyclehW newValue => (s.mcyclehW cfg newValue).retire
  | .minstretW newValue => (s.minstretW cfg newValue).retire
  | .minstrethW newValue => (s.minstrethW cfg newValue).retire
  | .mcountinhibitW newValue => (s.mcountinhibitW cfg newValue).retire
  | .dcsrW newValue => (s.dcsrWInt cfg newValue s.artifactAccess).retire

/-! ### The architectural counters -/

/-- The counters as the architecture defines them, with the registers that
inhibit them. -/
structure CountSpec (Dom : Type) where
  cycle : UInt64
  instret : UInt64
  csrs : CountCsrs Dom

/-- A counter over an instruction that does not write it: one more when it
counts before and after the instruction, else held. -/
def countTick (before after : Bool) (v : UInt64) : UInt64 :=
  if before = false ∧ after = false then v + 1 else v

/-- One instruction of the specification: the write of a counter is what the
next instruction reads, a 32-bit half write keeps the other half, and
otherwise `countTick`. -/
def countSpecStep (a : CountSpec Dom) (op : CountOp) : CountSpec Dom :=
  let csrs := a.csrs.write cfg op
  let cycle := countTick (a.csrs.riscvInhibitCycle cfg) (csrs.riscvInhibitCycle cfg) a.cycle
  let instret := countTick (a.csrs.riscvInhibitInstret cfg) (csrs.riscvInhibitInstret cfg) a.instret
  match op with
  | .mcycleW newValue =>
      ⟨if cfg.XLEN32 then setLower newValue.toUInt32 a.cycle else newValue, instret, csrs⟩
  | .mcyclehW newValue => ⟨setUpper newValue.toUInt32 a.cycle, instret, csrs⟩
  | .minstretW newValue =>
      ⟨cycle, if cfg.XLEN32 then setLower newValue.toUInt32 a.instret else newValue, csrs⟩
  | .minstrethW newValue => ⟨cycle, setUpper newValue.toUInt32 a.instret, csrs⟩
  | _ => ⟨cycle, instret, csrs⟩

/-- The counters as an instruction reads them. -/
def CountHart.view (s : CountHart Dom) : CountSpec Dom := ⟨s.cycleR cfg, s.instretR cfg, s.csrs⟩

/-! ### One counter over one instruction -/

lemma getCount_false (before : UInt64) : getCount before false = before := by
  simp [getCount]

/-- A counter that is not written ticks over an instruction. -/
lemma counterR_succ (inhibit : Bool) (count base : UInt64) :
    counterR inhibit (count + 1) base = countTick inhibit inhibit (counterR inhibit count base) := by
  cases inhibit
  · simp only [counterR, countTick, Bool.not_false, if_true, and_self]
    grind
  · simp [counterR, countTick]

/-- **A written counter reads its new value at the next instruction**,
counting or not. -/
lemma counterR_counterBase (inhibit : Bool) (count newValue : UInt64) :
    counterR inhibit (count + 1) (counterBase inhibit count newValue true) = newValue := by
  cases inhibit
  · simp only [counterR, counterBase, Bool.not_false, if_true]
    grind
  · simp [counterR, counterBase]

lemma countTick_of_ne {before after : Bool} (h : before ≠ after) (v : UInt64) :
    countTick before after v = v := by
  unfold countTick
  rw [if_neg]
  rintro ⟨h₁, h₂⟩
  exact h (h₁.trans h₂.symm)

/-- **A counter over a change of the registers that inhibit it**: written
back with its value `v` from before the change when its inhibition changed,
it holds `v`; otherwise it ticks. -/
lemma counterR_writeBack {old new : Bool} {count base v : UInt64}
    (hv : old = new → counterR new count base = v) :
    counterR new (count + 1) (if old ≠ new then counterBase new count v true else base) =
      countTick old new v := by
  by_cases h : old = new
  · rw [if_neg (not_not.mpr h), counterR_succ, hv h, h]
  · rw [if_pos h, counterR_counterBase, countTick_of_ne h]

namespace CountHart

variable (s : CountHart Dom)

@[simp] lemma retire_csrs : s.retire.csrs = s.csrs := rfl
@[simp] lemma retire_artifactAccess : s.retire.artifactAccess = s.artifactAccess := rfl
@[simp] lemma cycleW_csrs (v : UInt64) (p : Bool) : (s.cycleW cfg v p).csrs = s.csrs := rfl
@[simp] lemma cycleW_artifactAccess (v : UInt64) (p : Bool) :
    (s.cycleW cfg v p).artifactAccess = s.artifactAccess := rfl
@[simp] lemma instretW_csrs (v : UInt64) : (s.instretW cfg v).csrs = s.csrs := rfl
@[simp] lemma instretW_artifactAccess (v : UInt64) :
    (s.instretW cfg v).artifactAccess = s.artifactAccess := rfl

variable {s} (hA : s.artifactAccess = false)
include hA

lemma cycleR_retire :
    s.retire.cycleR cfg = countTick (s.csrs.riscvInhibitCycle cfg) (s.csrs.riscvInhibitCycle cfg) (s.cycleR cfg) := by
  simp only [cycleR, getCycles, retire, hA, getCount_false]
  exact counterR_succ _ _ _

lemma instretR_retire :
    s.retire.instretR cfg =
      countTick (s.csrs.riscvInhibitInstret cfg) (s.csrs.riscvInhibitInstret cfg) (s.instretR cfg) := by
  simp only [instretR, getInstructions, retire, hA, getCount_false]
  exact counterR_succ _ _ _

lemma cycleR_retire_cycleW (v : UInt64) : (s.cycleW cfg v true).retire.cycleR cfg = v := by
  simp only [cycleR, getCycles, cycleW, retire, hA, getCount_false, Bool.not_false, Bool.and_true]
  exact counterR_counterBase _ _ _

lemma instretR_retire_instretW (v : UInt64) : (s.instretW cfg v).retire.instretR cfg = v := by
  simp only [instretR, getInstructions, instretW, retire, hA, getCount_false]
  exact counterR_counterBase _ _ _

/-- A write of the cycle counter leaves the other counter to tick. -/
lemma instretR_retire_cycleW (v : UInt64) (p : Bool) :
    (s.cycleW cfg v p).retire.instretR cfg =
      countTick (s.csrs.riscvInhibitInstret cfg) (s.csrs.riscvInhibitInstret cfg) (s.instretR cfg) :=
  instretR_retire cfg hA

lemma cycleR_retire_instretW (v : UInt64) :
    (s.instretW cfg v).retire.cycleR cfg =
      countTick (s.csrs.riscvInhibitCycle cfg) (s.csrs.riscvInhibitCycle cfg) (s.cycleR cfg) :=
  cycleR_retire cfg hA

omit hA in
/-- A counter reads the same under other registers that inhibit it alike. -/
lemma cycleR_csrs {c : CountCsrs Dom} (hc : c.riscvInhibitCycle cfg = s.csrs.riscvInhibitCycle cfg) :
    ({ s with csrs := c } : CountHart Dom).cycleR cfg = s.cycleR cfg := by
  simp only [cycleR, getCycles, hc]

omit hA in
lemma instretR_csrs {c : CountCsrs Dom} (hc : c.riscvInhibitInstret cfg = s.csrs.riscvInhibitInstret cfg) :
    ({ s with csrs := c } : CountHart Dom).instretR cfg = s.instretR cfg := by
  simp only [instretR, getInstructions, hc]

omit hA in
/-- `riscvPostInhibit` writes back each counter whose inhibition changed. -/
lemma riscvPostInhibit_eq (state : RiscvCountState) (p : Bool) :
    s.riscvPostInhibit cfg state p =
      { s with
        baseCycles :=
          if state.inhibitCycle ≠ s.csrs.riscvInhibitCycle cfg then
            counterBase (s.csrs.riscvInhibitCycle cfg) s.getCycles state.cycle (p && !s.artifactAccess)
          else s.baseCycles
        baseInstructions :=
          if state.inhibitInstret ≠ s.csrs.riscvInhibitInstret cfg then
            counterBase (s.csrs.riscvInhibitInstret cfg) s.getInstructions state.instret true
          else s.baseInstructions } := by
  unfold riscvPostInhibit
  by_cases hC : state.inhibitCycle = s.csrs.riscvInhibitCycle cfg <;>
    by_cases hI : state.inhibitInstret = s.csrs.riscvInhibitInstret cfg <;>
    simp only [ne_eq, hC, hI, not_true_eq_false, not_false_eq_true, if_true, if_false, cycleW_csrs] <;>
    rfl

/-- **A register write between `riscvPreInhibit` and `riscvPostInhibit`**:
over the instruction a counter whose inhibition changes holds its value, and
any other ticks. -/
lemma view_retire_riscvPostInhibit (c : CountCsrs Dom) :
    ((({ s with csrs := c } : CountHart Dom).riscvPostInhibit cfg (s.riscvPreInhibit cfg) true).retire).view cfg =
      ⟨countTick (s.csrs.riscvInhibitCycle cfg) (c.riscvInhibitCycle cfg) (s.cycleR cfg),
        countTick (s.csrs.riscvInhibitInstret cfg) (c.riscvInhibitInstret cfg) (s.instretR cfg), c⟩ := by
  simp only [view, riscvPostInhibit_eq, retire, riscvPreInhibit, cycleR, instretR, getCycles,
    getInstructions, hA, getCount_false, Bool.not_false, Bool.and_true]
  rw [counterR_writeBack fun h => by rw [← h], counterR_writeBack fun h => by rw [← h]]

/-- A write of the cycle counter: it reads the written value, the other
counter ticks. -/
lemma view_retire_cycleW (v : UInt64) :
    ((s.cycleW cfg v true).retire).view cfg =
      ⟨v, countTick (s.csrs.riscvInhibitInstret cfg) (s.csrs.riscvInhibitInstret cfg) (s.instretR cfg),
        s.csrs⟩ := by
  rw [view, cycleR_retire_cycleW cfg hA, instretR_retire_cycleW cfg hA, retire_csrs, cycleW_csrs]

lemma view_retire_instretW (v : UInt64) :
    ((s.instretW cfg v).retire).view cfg =
      ⟨countTick (s.csrs.riscvInhibitCycle cfg) (s.csrs.riscvInhibitCycle cfg) (s.cycleR cfg), v,
        s.csrs⟩ := by
  rw [view, cycleR_retire_instretW cfg hA, instretR_retire_instretW cfg hA, retire_csrs, instretW_csrs]

end CountHart

/-! ### The refinement -/

variable {cfg} in
/-- **Every instruction of the model is one of the specification**, as the
counters read at the next instruction. -/
theorem countStep_view {s : CountHart Dom} (hA : s.artifactAccess = false) (op : CountOp) :
    (countStep cfg s op).view cfg = countSpecStep cfg (s.view cfg) op := by
  cases op with
  | other =>
      simp only [countStep, countSpecStep, CountHart.view, CountCsrs.write, CountHart.retire_csrs,
        CountHart.cycleR_retire cfg hA, CountHart.instretR_retire cfg hA]
  | mcycleW v =>
      have hw : s.mcycleW cfg v =
          s.cycleW cfg (if cfg.XLEN32 then setLower v.toUInt32 (s.cycleR cfg) else v) true := by
        unfold CountHart.mcycleW
        split_ifs <;> rfl
      rw [countStep, hw, CountHart.view_retire_cycleW cfg hA]
      rfl
  | mcyclehW v =>
      rw [countStep, CountHart.mcyclehW, CountHart.view_retire_cycleW cfg hA]
      rfl
  | minstretW v =>
      have hw : s.minstretW cfg v =
          s.instretW cfg (if cfg.XLEN32 then setLower v.toUInt32 (s.instretR cfg) else v) := by
        unfold CountHart.minstretW
        split_ifs <;> rfl
      rw [countStep, hw, CountHart.view_retire_instretW cfg hA]
      rfl
  | minstrethW v =>
      rw [countStep, CountHart.minstrethW, CountHart.view_retire_instretW cfg hA]
      rfl
  | mcountinhibitW v =>
      -- the write is the one the specification makes, between the two inhibit calls
      have hw : s.mcountinhibitW cfg v = ({ s with csrs := s.csrs.write cfg (.mcountinhibitW v) } :
          CountHart Dom).riscvPostInhibit cfg (s.riscvPreInhibit cfg) true := rfl
      rw [countStep, hw, CountHart.view_retire_riscvPostInhibit cfg hA]
      rfl
  | dcsrW v =>
      -- a true access writes `dcsr` without its cause
      have hw : s.dcsrWInt cfg v false = ({ s with csrs := s.csrs.write cfg (.dcsrW v) } :
          CountHart Dom).riscvPostInhibit cfg (s.riscvPreInhibit cfg) true := rfl
      rw [countStep, hA, hw, CountHart.view_retire_riscvPostInhibit cfg hA]
      rfl

lemma countStep_artifactAccess (s : CountHart Dom) (op : CountOp) :
    (countStep cfg s op).artifactAccess = s.artifactAccess := by
  cases op <;>
    simp [countStep, CountHart.mcycleW, CountHart.minstretW, CountHart.mcyclehW, CountHart.minstrethW,
      CountHart.mcountinhibitW, CountHart.dcsrWInt, CountHart.riscvPostInhibit_eq, apply_ite]

end Model

/-- **The counters refine the architectural counters.**  Along every run of
instructions from a state outside an artifact access, `cycleR` and
`instretR` read at each instruction what the specification's counters hold
after the same instructions from the same values. -/
theorem count_refinement {Dom : Type} (cfg : CountConfig Dom) {s : CountHart Dom}
    (hA : s.artifactAccess = false) (ops : List CountOp) :
    (StepSystem.run (countStep cfg) s ops).view cfg = StepSystem.run (countSpecStep cfg) (s.view cfg) ops :=
  StepSystem.run_map (fun s op hs => (countStep_artifactAccess cfg s op).trans hs)
    (fun _ op hs => countStep_view hs op) hA ops

/-- On RV32, a write of the high half of `minstret`, an instruction, a write
of `mcountinhibit` that inhibits `minstret`, and another instruction. -/
theorem count_refinement_rv32 :
    let cfg : CountConfig ℕ := ⟨mprvExampleConfig, true, 5, false⟩
    let s : CountHart ℕ := ⟨⟨hartNew mprvExampleConfig, 0⟩, 0, 0, 100, 90, false⟩
    let ops := [CountOp.minstrethW 1, .other, .mcountinhibitW 4, .other]
    s.artifactAccess = false ∧
      (StepSystem.run (countStep cfg) s ops).view cfg = StepSystem.run (countSpecStep cfg) (s.view cfg) ops :=
  ⟨rfl, count_refinement _ rfl _⟩

section Counting

variable {Dom : Type} (cfg : CountConfig Dom)

/-- **The specification counts**: over `n` instructions that write no
counter state, a counter that is not inhibited grows by `n`, and one that is
inhibited holds. -/
lemma countSpec_run_other (a : CountSpec Dom) (n : ℕ) :
    StepSystem.run (countSpecStep cfg) a (List.replicate n .other) =
      ⟨if a.csrs.riscvInhibitCycle cfg then a.cycle else a.cycle + UInt64.ofNat n,
        if a.csrs.riscvInhibitInstret cfg then a.instret else a.instret + UInt64.ofNat n, a.csrs⟩ := by
  induction n generalizing a with
  | zero => cases a; simp
  | succ n ih =>
    rw [List.replicate_succ, StepSystem.run_cons, ih]
    -- one instruction ticks both counters under unchanged registers
    cases hC : a.csrs.riscvInhibitCycle cfg <;> cases hI : a.csrs.riscvInhibitInstret cfg <;>
      simp only [countSpecStep, CountCsrs.write, countTick, hC, hI, UInt64.ofNat_add] <;>
      congr 1 <;> grind

/-- Over `n` instructions that write no counter state, `instretR` grows by
`n` unless it is inhibited. -/
theorem instretR_run_other {s : CountHart Dom} (hA : s.artifactAccess = false) (n : ℕ) :
    (StepSystem.run (countStep cfg) s (List.replicate n .other)).instretR cfg =
      if s.csrs.riscvInhibitInstret cfg then s.instretR cfg else s.instretR cfg + UInt64.ofNat n := by
  have h := congrArg CountSpec.instret (count_refinement cfg hA (List.replicate n .other))
  rw [countSpec_run_other] at h
  exact h

end Counting

end RiscvOvpsim
