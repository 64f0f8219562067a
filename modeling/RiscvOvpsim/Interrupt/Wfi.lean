import RiscvOvpsim.Clic.Map
import RiscvOvpsim.Interrupt.Csr

/-!
Halting in `WFI` and the operations that can end it (`riscvExceptions.c`:
`riscvWFI`, `riscvTestInterrupt`, `riscvUpdatePending`, `interruptPortCB`,
`testCLICInterrupt` and the port callbacks of an external CLIC;
`riscvCSR.c`: `ipW`, `ieW`; `riscvCLIC.c`: the writes of the CLIC's memory).

A hart halted in `WFI` is restarted only by `riscvTestInterrupt`, and
`getPending` reads `mie`, `mip`, the CLIC's selection `clic.sel.id` and
`enableCLIC`.  So every operation that changes one of them must end in a
test, unless the change cannot make an interrupt pending.

* `NoLostWakeup`: a hart halted in `WFI` has nothing pending;
* `noLostWakeup_congr`: a change that keeps what `getPending` reads and the
  halt keeps it, and `riscvTestInterrupt_noLostWakeup`: a test makes it so;
* one lemma per operation that it keeps `NoLostWakeup`;
* `wakeStep`: a cluster under `WFI`, input changes, writes of the pending and
  enable registers, writes of the CLIC's memory and changes of the ports of
  an external CLIC; `no_lost_wakeup`: along every run from harts that are not
  halted, as `riscvReset` leaves them, no hart is halted with an interrupt
  pending.
-/

namespace RiscvOvpsim

namespace IntHart

section Ops

variable (cfg : ClicConfig) (cliccfg : UInt64) (h : IntHart)

/-- `riscvWFI`: halt in `WFI` unless in Debug mode or an interrupt is
pending. -/
def riscvWFI : IntHart :=
  if !(h.DM || h.getPending) then { h with WFI := true } else h

/-- `ipW`: a write of the software-pending bits through the `mip`, `sip` or
`uip` alias with read mask `rMask`; the writable bits are those of `mie`, and
in CLIC mode the old value is kept.  A change goes to `riscvUpdatePending`. -/
def ipW (mieMask newValue rMask : UInt64) (useCLIC : Bool) : IntHart :=
  let oldValue := h.swip
  let newValue : UInt64 :=
    if !useCLIC then
      let wMask := (mieMask &&& rMask).toUInt32
      (newValue &&& wMask.toUInt64) ||| (oldValue &&& ~~~wMask).toUInt64
    else oldValue.toUInt64
  let h : IntHart := { h with swip := newValue.toUInt32 }
  if oldValue.toUInt64 ≠ newValue then h.riscvUpdatePending cfg cliccfg else h

/-- `ieW` on a hart: `mie` as `RiscvOvpsim.ieW` stores it and, outside CLIC
mode, a test for interrupts on a change. -/
def ieW (mieMask : UInt64) (newValue rMask : UInt32) (useCLIC : Bool) : IntHart :=
  let oldValue := h.mie.toUInt32
  let mie := RiscvOvpsim.ieW h.mie mieMask false newValue rMask useCLIC
  let h : IntHart := { h with mie := mie }
  if !useCLIC && oldValue != mie.toUInt32 then h.riscvTestInterrupt cfg cliccfg else h

/-- `testCLICInterrupt`: a test for interrupts when the CLIC presents one. -/
def testCLICInterrupt : IntHart :=
  if h.getPendingCLIC then h.riscvTestInterrupt cfg cliccfg else h

/-- A port callback of an external CLIC: the port's value is latched into the
hart, then `testCLICInterrupt`. -/
def latchCLICPort (latch : IntHart → IntHart) : IntHart :=
  (latch h).testCLICInterrupt cfg cliccfg

/-- `irqIDPortCB`: the presented interrupt, as a signed 32-bit value. -/
def irqIDPortCB (newValue : UInt64) : IntHart :=
  h.latchCLICPort cfg cliccfg fun h => { h with sel := { h.sel with id := newValue.toUInt32.toInt32.toInt } }

/-- `irqLevelPortCB`. -/
def irqLevelPortCB (newValue : UInt64) : IntHart :=
  h.latchCLICPort cfg cliccfg fun h => { h with sel := { h.sel with level := newValue.toUInt8 } }

/-- `irqSecurePortCB`: the mode, `newValue & RISCV_MODE_M`. -/
def irqSecurePortCB (newValue : UInt64) : IntHart :=
  h.latchCLICPort cfg cliccfg fun h =>
    { h with sel := { h.sel with priv := RiscvMode.ofBits (newValue &&& 3).toNat } }

/-- `irqSHVPortCB`. -/
def irqSHVPortCB (newValue : UInt64) : IntHart :=
  h.latchCLICPort cfg cliccfg fun h => { h with sel := { h.sel with shv := newValue &&& 1 != 0 } }

/-- `irqPortCB`: the enable of the presented interrupt. -/
def irqPortCB (newValue : UInt64) : IntHart :=
  h.latchCLICPort cfg cliccfg fun h => { h with enableCLIC := newValue &&& 1 != 0 }

end Ops

/-! ### No lost wake-up -/

variable (h : IntHart)

/-- A hart halted in `WFI` has no interrupt pending. -/
def NoLostWakeup : Prop := h.WFI = true → h.getPending = false

instance : Decidable h.NoLostWakeup := inferInstanceAs (Decidable (_ → _))

section Wake

variable (cfg : ClicConfig) (cliccfg : UInt64)

/-- **After a test, a halted hart has nothing pending.** -/
lemma riscvTestInterrupt_noLostWakeup : (h.riscvTestInterrupt cfg cliccfg).NoLostWakeup :=
  h.riscvTestInterrupt_getPending cfg cliccfg

/-- A change that keeps the halt and all that `getPending` reads keeps
`NoLostWakeup`. -/
lemma noLostWakeup_congr {h' : IntHart} (hmie : h'.mie = h.mie) (hmip : h'.mip = h.mip)
    (hsel : h'.sel = h.sel) (hen : h'.enableCLIC = h.enableCLIC) (hW : h'.WFI = h.WFI) :
    h'.NoLostWakeup ↔ h.NoLostWakeup := by
  unfold NoLostWakeup getPending getPendingBasic getPendingCLIC
  rw [hmie, hmip, hsel, hen, hW]

variable {h}

lemma setCLICInterruptField_noLostWakeup (hg : h.NoLostWakeup) (i : ℕ) (type : CLICIntFieldType)
    (v : UInt8) : (h.setCLICInterruptField i type v).NoLostWakeup :=
  (h.noLostWakeup_congr rfl rfl rfl rfl rfl).mpr hg

lemma updateCLICInterruptField_noLostWakeup (hg : h.NoLostWakeup) (i : ℕ) (type : CLICIntFieldType)
    (v : UInt8) : (h.updateCLICInterruptField cfg cliccfg i type v).NoLostWakeup := by
  unfold updateCLICInterruptField
  split_ifs
  · exact riscvTestInterrupt_noLostWakeup _ cfg cliccfg
  · exact hg

lemma setCLICInterruptPending_noLostWakeup (hg : h.NoLostWakeup) (i : ℕ) (v isStore : Bool) :
    (h.setCLICInterruptPending i v isStore).NoLostWakeup := by
  unfold setCLICInterruptPending
  by_cases hl : (isStore || h.isCLICInterruptEdge i) = true
  · rw [if_pos hl]
    exact setCLICInterruptField_noLostWakeup hg i _ _
  · rw [if_neg hl]
    exact hg

/-- A write of the pending bit tests for interrupts when the cached bit
changes, and otherwise changes no selection. -/
lemma writeCLICInterruptPending_noLostWakeup (hg : h.NoLostWakeup) (i : ℕ) (v : UInt8)
    (isStore : Bool) : (h.writeCLICInterruptPending cfg cliccfg i v isStore).NoLostWakeup := by
  unfold writeCLICInterruptPending updateCLICPendingEnable
  dsimp only
  by_cases hc : (h.getCLICPendingEnable i != (h.getCLICInterruptEnable i && (v &&& 1 != 0))) = true
  · rw [if_pos hc]
    exact riscvTestInterrupt_noLostWakeup _ cfg cliccfg
  · rw [if_neg hc]
    exact setCLICInterruptPending_noLostWakeup hg i _ isStore

lemma writeCLICInterruptEnable_noLostWakeup (hg : h.NoLostWakeup) (i : ℕ) (v : UInt8) :
    (h.writeCLICInterruptEnable cfg cliccfg i v).NoLostWakeup := by
  unfold writeCLICInterruptEnable updateCLICPendingEnable setCLICInterruptEnable
  dsimp only
  by_cases hc : (h.getCLICPendingEnable i != (h.getCLICInterruptPending i && (v &&& 1 != 0))) = true
  · rw [if_pos hc]
    exact riscvTestInterrupt_noLostWakeup _ cfg cliccfg
  · rw [if_neg hc]
    exact setCLICInterruptField_noLostWakeup hg i _ _

lemma riscvUpdateCLICInput_noLostWakeup (hg : h.NoLostWakeup) (i : ℕ) (v : Bool) :
    (h.riscvUpdateCLICInput cfg cliccfg i v).NoLostWakeup := by
  unfold riscvUpdateCLICInput
  dsimp only
  by_cases hw : (!h.isCLICInterruptEdge i || (v ^^ h.isCLICInterruptActiveLow i)) = true
  · rw [if_pos hw]
    exact writeCLICInterruptPending_noLostWakeup cfg cliccfg hg i _ false
  · rw [if_neg hw]
    exact hg

/-- `riscvUpdatePending` tests for interrupts whenever it changes `mip`. -/
lemma riscvUpdatePending_noLostWakeup (hg : h.NoLostWakeup) :
    (h.riscvUpdatePending cfg cliccfg).NoLostWakeup := by
  unfold riscvUpdatePending
  dsimp only
  split_ifs
  · exact riscvTestInterrupt_noLostWakeup _ cfg cliccfg
  · exact hg

lemma interruptPortCB_noLostWakeup (hg : h.NoLostWakeup) (i : ℕ) (v : Bool) :
    (h.interruptPortCB cfg cliccfg i v).NoLostWakeup := by
  -- recording the input changes nothing that `getPending` reads
  have h₁ : ({ h with ip := Bitmap.set h.ip i v } : IntHart).NoLostWakeup :=
    (h.noLostWakeup_congr rfl rfl rfl rfl rfl).mpr hg
  have h₂ : (if cfg.CLICInternal then
      ({ h with ip := Bitmap.set h.ip i v } : IntHart).riscvUpdateCLICInput cfg cliccfg i v
      else { h with ip := Bitmap.set h.ip i v }).NoLostWakeup := by
    split_ifs
    · exact riscvUpdateCLICInput_noLostWakeup cfg cliccfg h₁ i v
    · exact h₁
  unfold interruptPortCB
  dsimp only
  by_cases hb : cfg.basicICPresent = true
  · rw [if_pos hb]
    exact riscvUpdatePending_noLostWakeup cfg cliccfg h₂
  · rw [if_neg hb]
    exact h₂

/-- `ipW` changes only `swip`, and passes a change on to `riscvUpdatePending`. -/
lemma ipW_noLostWakeup (hg : h.NoLostWakeup) (mieMask newValue rMask : UInt64) (useCLIC : Bool) :
    (h.ipW cfg cliccfg mieMask newValue rMask useCLIC).NoLostWakeup := by
  unfold ipW
  dsimp only
  split_ifs
  all_goals first
    | exact riscvUpdatePending_noLostWakeup cfg cliccfg ((h.noLostWakeup_congr rfl rfl rfl rfl rfl).mpr hg)
    | exact (h.noLostWakeup_congr rfl rfl rfl rfl rfl).mpr hg

/-- `ieW` tests for interrupts on every change of `mie` outside CLIC mode;
otherwise it keeps the low half of `mie` and clears the high half, which
makes nothing pending. -/
lemma ieW_noLostWakeup (hg : h.NoLostWakeup) (mieMask : UInt64) (newValue rMask : UInt32)
    (useCLIC : Bool) : (h.ieW cfg cliccfg mieMask newValue rMask useCLIC).NoLostWakeup := by
  unfold ieW
  dsimp only
  by_cases ht : (!useCLIC &&
      h.mie.toUInt32 != (RiscvOvpsim.ieW h.mie mieMask false newValue rMask useCLIC).toUInt32) = true
  · rw [if_pos ht]
    exact riscvTestInterrupt_noLostWakeup _ cfg cliccfg
  · rw [if_neg ht]
    have hlow : (RiscvOvpsim.ieW h.mie mieMask false newValue rMask useCLIC).toUInt32 =
        h.mie.toUInt32 := by
      cases useCLIC
      · simp only [Bool.not_false, Bool.true_and, bne_eq_false_iff_eq, Bool.not_eq_true] at ht
        exact ht.symm
      · unfold RiscvOvpsim.ieW
        exact UInt32.toUInt32_toUInt64 _
    have hmie : RiscvOvpsim.ieW h.mie mieMask false newValue rMask useCLIC = h.mie.toUInt32.toUInt64 := by
      rw [← hlow]
      simp only [RiscvOvpsim.ieW, UInt32.toUInt32_toUInt64]
    intro hW
    have hp : h.getPending = false := hg hW
    simp only [getPending, getPendingBasic, Bool.or_eq_false_iff, bne_eq_false_iff_eq] at hp ⊢
    exact ⟨by rw [hmie]; exact UInt64.toUInt32_toUInt64_and_eq_zero hp.1, hp.2⟩

/-- **A port of an external CLIC keeps `NoLostWakeup`**: the callback tests
for interrupts when the CLIC presents one, and otherwise what is pending is
what `mie & mip` held before. -/
lemma latchCLICPort_noLostWakeup (hg : h.NoLostWakeup) {latch : IntHart → IntHart}
    (hl : (latch h).mie = h.mie ∧ (latch h).mip = h.mip ∧ (latch h).WFI = h.WFI) :
    (h.latchCLICPort cfg cliccfg latch).NoLostWakeup := by
  unfold latchCLICPort testCLICInterrupt
  split_ifs with hc
  · exact riscvTestInterrupt_noLostWakeup _ cfg cliccfg
  · intro hW
    rw [hl.2.2] at hW
    have hp := hg hW
    simp only [getPending, getPendingBasic, Bool.or_eq_false_iff] at hp ⊢
    rw [hl.1, hl.2.1]
    exact ⟨hp.1, Bool.eq_false_iff.mpr hc⟩

/-- **`riscvWFI` halts only a hart with nothing pending.** -/
lemma riscvWFI_noLostWakeup (hg : h.NoLostWakeup) : h.riscvWFI.NoLostWakeup := by
  unfold riscvWFI
  split_ifs with hw
  · intro _
    simp only [Bool.not_eq_true', Bool.or_eq_false_iff] at hw
    exact hw.2
  · exact hg

end Wake

end IntHart

/-! ### The cluster -/

/-- The ports of an external CLIC. -/
inductive ClicPort where
  | irqID
  | irqLevel
  | irqSecure
  | irqSHV
  | irq
  deriving DecidableEq, Repr

/-- The callback of each port. -/
def ClicPort.callback (cfg : ClicConfig) (cliccfg : UInt64) : ClicPort → IntHart → UInt64 → IntHart
  | .irqID => IntHart.irqIDPortCB cfg cliccfg
  | .irqLevel => IntHart.irqLevelPortCB cfg cliccfg
  | .irqSecure => IntHart.irqSecurePortCB cfg cliccfg
  | .irqSHV => IntHart.irqSHVPortCB cfg cliccfg
  | .irq => IntHart.irqPortCB cfg cliccfg

lemma ClicPort.callback_noLostWakeup (cfg : ClicConfig) (cliccfg : UInt64) {h : IntHart}
    (hg : h.NoLostWakeup) (p : ClicPort) (v : UInt64) : (p.callback cfg cliccfg h v).NoLostWakeup := by
  cases p <;> exact IntHart.latchCLICPort_noLostWakeup cfg cliccfg hg ⟨rfl, rfl, rfl⟩

/-- What can make an interrupt pending, or halt a hart, in a cluster. -/
inductive WakeOp where
  /-- hart `k` executes `WFI` (`riscvWFI`) -/
  | wfi (k : ℕ)
  /-- a change of input `i` of hart `k` (`interruptPortCB`) -/
  | input (k i : ℕ) (v : Bool)
  /-- a write of `mip`, `sip` or `uip` by hart `k` (`ipW`) -/
  | ipW (k : ℕ) (newValue rMask : UInt64) (useCLIC : Bool)
  /-- a write of `mie`, `sie` or `uie` by hart `k` (`ieW`) -/
  | ieW (k : ℕ) (newValue rMask : UInt32) (useCLIC : Bool)
  /-- a byte write to the CLIC's memory (`writeCLICInt`) -/
  | clicWrite (offset : ℕ) (v : UInt8)
  /-- a change of a port of hart `k`'s external CLIC -/
  | port (k : ℕ) (p : ClicPort) (v : UInt64)
  deriving DecidableEq, Repr

/-- One operation on a cluster whose harts have the writable `mie` bits
`mieMask`. -/
def wakeStep (cfg : ClicConfig) (mieMask : UInt64) (c : Clic) : WakeOp → Clic
  | .wfi k => { c with harts := Function.update c.harts k (c.harts k).riscvWFI }
  | .input k i v =>
      { c with harts := Function.update c.harts k ((c.harts k).interruptPortCB cfg c.cliccfg i v) }
  | .ipW k newValue rMask useCLIC =>
      { c with harts :=
          Function.update c.harts k ((c.harts k).ipW cfg c.cliccfg mieMask newValue rMask useCLIC) }
  | .ieW k newValue rMask useCLIC =>
      { c with harts :=
          Function.update c.harts k ((c.harts k).ieW cfg c.cliccfg mieMask newValue rMask useCLIC) }
  | .clicWrite offset v => c.writeCLICInt cfg offset v
  | .port k p v => { c with harts := Function.update c.harts k (p.callback cfg c.cliccfg (c.harts k) v) }

/-- No hart of the cluster is halted with an interrupt pending. -/
def ClicNoLostWakeup (c : Clic) : Prop := ∀ k, (c.harts k).NoLostWakeup

section Invariant

variable (cfg : ClicConfig) {c : Clic}

lemma ClicNoLostWakeup.update (hg : ClicNoLostWakeup c) (k : ℕ) {h : IntHart} (hh : h.NoLostWakeup) :
    ClicNoLostWakeup { c with harts := Function.update c.harts k h } := by
  intro k'
  dsimp only
  by_cases hk : k' = k
  · subst hk
    rw [Function.update_self]
    exact hh
  · rw [Function.update_of_ne hk]
    exact hg k'

lemma writeCLICInterrupt_noLostWakeup (hg : ClicNoLostWakeup c) (o : ℕ) (v : UInt8) :
    ClicNoLostWakeup (c.writeCLICInterrupt cfg o v) := by
  unfold Clic.writeCLICInterrupt
  split_ifs
  · refine hg.update _ ?_
    have hk := hg (getCLICHartIndex cfg o)
    -- each field has its writer
    cases getCLICIntFieldType o
    · exact IntHart.writeCLICInterruptPending_noLostWakeup cfg _ hk _ v true
    · exact IntHart.writeCLICInterruptEnable_noLostWakeup cfg _ hk _ v
    · exact IntHart.updateCLICInterruptField_noLostWakeup cfg _ hk _ _ _
    · exact IntHart.updateCLICInterruptField_noLostWakeup cfg _ hk _ _ _
  · exact hg

/-- A change of `cliccfg` tests every hart for interrupts. -/
lemma cliccfgW_noLostWakeup (hg : ClicNoLostWakeup c) (v : UInt8) :
    ClicNoLostWakeup (c.cliccfgW cfg v) := by
  unfold Clic.cliccfgW Clic.refreshCCLICInterruptAll
  dsimp only
  split_ifs <;>
    first
    | exact hg
    | exact fun k => IntHart.riscvTestInterrupt_noLostWakeup _ cfg _

lemma writeCLICInt_noLostWakeup (hg : ClicNoLostWakeup c) (o : ℕ) (v : UInt8) :
    ClicNoLostWakeup (c.writeCLICInt cfg o v) := by
  unfold Clic.writeCLICInt
  split_ifs
  · exact writeCLICInterrupt_noLostWakeup cfg hg o v
  · exact cliccfgW_noLostWakeup cfg hg v
  · exact hg

/-- **One step keeps `ClicNoLostWakeup`.** -/
theorem wakeStep_noLostWakeup (mieMask : UInt64) (hg : ClicNoLostWakeup c) (op : WakeOp) :
    ClicNoLostWakeup (wakeStep cfg mieMask c op) := by
  cases op with
  | wfi k => exact hg.update k (IntHart.riscvWFI_noLostWakeup (hg k))
  | input k i v => exact hg.update k (IntHart.interruptPortCB_noLostWakeup cfg _ (hg k) i v)
  | ipW k newValue rMask useCLIC =>
      exact hg.update k (IntHart.ipW_noLostWakeup cfg _ (hg k) mieMask newValue rMask useCLIC)
  | ieW k newValue rMask useCLIC =>
      exact hg.update k (IntHart.ieW_noLostWakeup cfg _ (hg k) mieMask newValue rMask useCLIC)
  | clicWrite o v => exact writeCLICInt_noLostWakeup cfg hg o v
  | port k p v => exact hg.update k (ClicPort.callback_noLostWakeup cfg _ (hg k) p v)

end Invariant

/-- **No lost wake-up from `WFI`.**  Along every run from a cluster whose
harts are not halted, as `riscvReset` leaves them, a hart halted in `WFI` has
no interrupt pending: every operation that can make `mie & mip` nonzero or a
CLIC interrupt selectable restarts a halted hart, and `riscvWFI` does not
halt a hart with an interrupt pending. -/
theorem no_lost_wakeup (cfg : ClicConfig) (mieMask : UInt64) (c : Clic)
    (hc : ∀ k, (c.harts k).WFI = false) (ops : List WakeOp) (k : ℕ)
    (hW : ((StepSystem.run (wakeStep cfg mieMask) c ops).harts k).WFI = true) :
    ((StepSystem.run (wakeStep cfg mieMask) c ops).harts k).getPending = false := by
  have h₀ : ClicNoLostWakeup c := fun k hW => absurd (hW.symm.trans (hc k)) (by decide)
  have hinv : ClicNoLostWakeup (StepSystem.run (wakeStep cfg mieMask) c ops) :=
    @StepSystem.run_invariant _ _ (wakeStep cfg mieMask) (fun _ => True) ClicNoLostWakeup
      (fun _ op _ hg => wakeStep_noLostWakeup cfg mieMask hg op) _ _ h₀ (fun _ _ => trivial)
  exact hinv k hW

/-- A hart with an internal CLIC enables the Machine timer interrupt and
executes `WFI`: nothing is pending, so it halts. -/
theorem no_lost_wakeup_timer_enabled :
    let cfg : ClicConfig := ⟨1, 49, 256, false, false, 0, false, 8, 0, false, 0⟩
    let hart : IntHart :=
      ⟨0, 0, 0, fun _ => 0, fun _ _ => 0, fun _ => 0, ⟨.user, -1, 0, false⟩, false, false, false⟩
    let c : Clic := ⟨0, fun _ => hart⟩
    let ops := [WakeOp.ieW 0 0x80 0xFFFFFFFF false, .wfi 0]
    (∀ k, (c.harts k).WFI = false) ∧
      ((StepSystem.run (wakeStep cfg 0xFFFF) c ops).harts 0).WFI = true ∧
      ((StepSystem.run (wakeStep cfg 0xFFFF) c ops).harts 0).getPending = false := by
  intro cfg hart c ops
  have hW : ((StepSystem.run (wakeStep cfg 0xFFFF) c ops).harts 0).WFI = true := by decide +kernel
  exact ⟨fun _ => rfl, hW, no_lost_wakeup cfg 0xFFFF c (fun _ => rfl) ops 0 hW⟩

end RiscvOvpsim
