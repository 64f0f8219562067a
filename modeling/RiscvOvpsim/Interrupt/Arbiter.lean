import RiscvOvpsim.Basic
import RiscvOvpsim.Lib.Bits
import RiscvOvpsim.Lib.BitScan
import RiscvOvpsim.Lib.ArgMax
import RiscvOvpsim.Lib.StepSystem
import RiscvOvpsim.Interrupt.Csr

/-!
Basic-mode interrupt arbitration (`riscvExceptions.c`,
`refreshPendingAndEnabledBasic`, `getModeX`, `getIE`, `getIntPri`).

`refreshPendingAndEnabledBasic` masks the pending and enabled interrupts
`mie & mip` by the global enables of their destination modes, then scans the
remaining bits from bit 0 up, keeping the interrupt with the greatest pair
(destination mode, priority), the later one on a tie.  The destination it
records is `getInterruptModeX`, from which `riscvTakeException` also takes the
mode it traps to.

* `BasicIntState`, `basicPendingEnabled`, `refreshPendingAndEnabledBasic`:
  the model;
* `delegationMode`, `delegatedMode`, `GloballyEnabled`, `IntPendingEnabled`:
  where the privileged specification sends a trap, and when an interrupt may
  be taken; `getModeX_of_lt`: below bit 32 `getModeX` agrees with it;
* `testBit_basicPendingEnabled`: the masking keeps exactly the interrupts that
  are pending, enabled and globally enabled;
* `refreshPendingAndEnabledBasic_eq_foldl`: the scan is an `ArgMax` scan over
  them;
* `BasicArbitration`: what the selection must be, an interrupt of greatest
  (destination, priority) among those, with its destination recorded;
  `refreshPendingAndEnabledBasic_spec`: it is, while `mie` holds a 32-bit
  value;
* `basicIntStep`, `refreshPendingAndEnabledBasic_reachable`: the hart's
  writes of what arbitration reads, `mie` only through `ieW`, which stores an
  `Uns32` (`ieW_toNat_lt`); so from reset `mie` stays below `2 ^ 32`, and
  arbitration is correct at every reachable state.  Above bit 31 `getModeX`
  would read the delegation bit of interrupt `ecode % 32`; no reachable state
  enables such an interrupt.
-/

namespace RiscvOvpsim

/-- The state `refreshPendingAndEnabledBasic` reads: the current mode, `mip`,
`mie`, `mideleg` and `sideleg` as stored, the global enables `mstatus.MIE`,
`SIE` and `UIE`, and whether each mode takes its interrupts from the CLIC. -/
structure BasicIntState where
  mode : RiscvMode
  mip : UInt64
  mie : UInt64
  mideleg : UInt64
  sideleg : UInt64
  MIE : Bool
  SIE : Bool
  UIE : Bool
  useCLICM : Bool
  useCLICS : Bool
  useCLICU : Bool
  deriving DecidableEq, Repr

/-! ### The model -/

/-- `getModeX`: the mode the delegation masks send exception or interrupt
`ecode` to, never below the current mode `modeY`.  The masks are `Uns32`, and
`1 << ecode` shifts by `ecode` modulo 32, as the shift instruction does. -/
def getModeX (modeY : RiscvMode) (mMask sMask : UInt32) (ecode : ℕ) : RiscvMode :=
  let modeX :=
    if mMask &&& ((1 : UInt32) <<< UInt32.ofNat ecode) = 0 then RiscvMode.machine
    else if sMask &&& ((1 : UInt32) <<< UInt32.ofNat ecode) = 0 then .supervisor
    else .user
  if modeY < modeX then modeX else modeY

/-- `getInterruptModeX`: `getModeX` with `mideleg` and `sideleg`. -/
def getInterruptModeX (s : BasicIntState) (ecode : ℕ) : RiscvMode :=
  getModeX s.mode s.mideleg.toUInt32 s.sideleg.toUInt32 ecode

/-- `getIE`: the interrupt enable of mode `modeIE` seen from the current mode:
always on below it, off above it, the enable bit in it, and off in CLIC
mode. -/
def getIE (mode : RiscvMode) (IE : Bool) (modeIE : RiscvMode) (useCLIC : Bool) : Bool :=
  if useCLIC then false else if mode < modeIE then true else if modeIE < mode then false else IE

/-- `getPendingBasic`. -/
def getPendingBasic (s : BasicIntState) : UInt64 := s.mie &&& s.mip

/-- The table `intPri` of `getIntPri`: the priorities of the standard
interrupts, 0 for the numbers below 16 that have none. -/
def intPri : ℕ → ℕ
  | 0 => 20
  | 1 => 50
  | 3 => 80
  | 4 => 10
  | 5 => 40
  | 7 => 70
  | 8 => 30
  | 9 => 60
  | 11 => 90
  | _ => 0

/-- `getIntPri`.  `extPri` is the first nonzero priority the extension
callbacks give a local interrupt, 0 if none does. -/
def getIntPri (extPri : ℕ → ℕ) (intNum : ℕ) : ℕ :=
  if intNum < 16 then intPri intNum
  else if extPri intNum = 0 then 100 + intNum - 16
  else extPri intNum

/-- A pending-and-enabled interrupt and its destination (`riscvPendEnab`); no
interrupt (`RV_NO_INT`) is `none`. -/
structure IntCand where
  id : ℕ
  priv : RiscvMode
  deriving DecidableEq, Repr

/-- One step of the selection loop: the candidate replaces the selection when
its destination is higher, or the same with a priority at least as high. -/
def updateSelected (extPri : ℕ → ℕ) (selected : Option IntCand) (cand : IntCand) :
    Option IntCand :=
  match selected with
  | none => some cand
  | some sel =>
      if sel.priv < cand.priv then some cand
      else if cand.priv < sel.priv then some sel
      else if getIntPri extPri sel.id ≤ getIntPri extPri cand.id then some cand
      else some sel

/-- The selection loop of `refreshPendingAndEnabledBasic`: the scan of the
set bits of `pendingEnabled` from bit 0 up, counting `id`, with
`updateSelected` at each.  The value has 64 bits, so 64 rounds are enough;
`fuel` counts them. -/
def selectPendingEnabled (extPri : ℕ → ℕ) (s : BasicIntState) (fuel pendingEnabled id : ℕ)
    (selected : Option IntCand) : Option IntCand :=
  BitScan.loop (fun o i => updateSelected extPri o ⟨i, getInterruptModeX s i⟩) fuel
    pendingEnabled id selected

/-- The masking of `refreshPendingAndEnabledBasic`: an interrupt delegated to
a mode whose effective enable is off is removed. -/
def basicPendingEnabled (s : BasicIntState) : UInt64 :=
  let pendingEnabled := getPendingBasic s
  if pendingEnabled ≠ 0 then
    let MIE := getIE s.mode s.MIE .machine s.useCLICM
    let SIE := getIE s.mode s.SIE .supervisor s.useCLICS
    let UIE := getIE s.mode s.UIE .user s.useCLICU
    let mideleg := s.mideleg
    let sideleg := s.sideleg &&& mideleg
    let mMask := ~~~mideleg
    let sMask := mideleg &&& ~~~sideleg
    let uMask := sideleg
    let pendingEnabled := if !MIE then pendingEnabled &&& ~~~mMask else pendingEnabled
    let pendingEnabled := if !SIE then pendingEnabled &&& ~~~sMask else pendingEnabled
    if !UIE then pendingEnabled &&& ~~~uMask else pendingEnabled
  else pendingEnabled

/-- `refreshPendingAndEnabledBasic`, from `riscvRefreshPendingAndEnabled`'s
empty selection. -/
def refreshPendingAndEnabledBasic (extPri : ℕ → ℕ) (s : BasicIntState) : Option IntCand :=
  let pendingEnabled := basicPendingEnabled s
  if pendingEnabled ≠ 0 then selectPendingEnabled extPri s 64 pendingEnabled.toNat 0 none
  else none

/-! ### The specification -/

/-- The mode a trap with code `i` is delegated to: Machine mode unless bit `i`
of the Machine-mode delegation register is set, then Supervisor mode unless
bit `i` of the Supervisor-mode one is set too. -/
def delegationMode (mMask sMask : UInt64) (i : ℕ) : RiscvMode :=
  if mMask.toNat.testBit i = false then .machine
  else if sMask.toNat.testBit i = false then .supervisor
  else .user

/-- The mode interrupt `i` is delegated to, by `mideleg` and `sideleg`. -/
def delegatedMode (s : BasicIntState) (i : ℕ) : RiscvMode :=
  delegationMode s.mideleg s.sideleg i

/-- The global interrupt enable `mstatus.xIE` of a mode. -/
def BasicIntState.xIE (s : BasicIntState) : RiscvMode → Bool
  | .machine => s.MIE
  | .supervisor => s.SIE
  | .user => s.UIE
  | .hypervisor => false

/-- Whether a mode takes its interrupts from the CLIC. -/
def BasicIntState.useCLIC (s : BasicIntState) : RiscvMode → Bool
  | .machine => s.useCLICM
  | .supervisor => s.useCLICS
  | .user => s.useCLICU
  | .hypervisor => false

/-- Interrupt `i` is globally enabled: its destination is in basic mode, and
is above the current mode, or is the current mode with its enable set. -/
def GloballyEnabled (s : BasicIntState) (i : ℕ) : Prop :=
  s.useCLIC (delegatedMode s i) = false ∧
    (s.mode < delegatedMode s i ∨
      s.mode = delegatedMode s i ∧ s.xIE (delegatedMode s i) = true)

instance (s : BasicIntState) (i : ℕ) : Decidable (GloballyEnabled s i) := by
  unfold GloballyEnabled
  infer_instance

/-- Interrupt `i` is pending in `mip`, enabled in `mie`, and globally
enabled. -/
def IntPendingEnabled (s : BasicIntState) (i : ℕ) : Prop :=
  (getPendingBasic s).toNat.testBit i = true ∧ GloballyEnabled s i

instance (s : BasicIntState) (i : ℕ) : Decidable (IntPendingEnabled s i) := by
  unfold IntPendingEnabled
  infer_instance

/-- The order of the selection: destination mode first, then priority. -/
def intKey (extPri : ℕ → ℕ) (c : IntCand) : Lex (RiscvMode × ℕ) :=
  toLex (c.priv, getIntPri extPri c.id)

/-! ### The masking -/

lemma getIE_eq_true_iff {mode modeIE : RiscvMode} {IE useCLIC : Bool} :
    getIE mode IE modeIE useCLIC = true ↔
      useCLIC = false ∧ (mode < modeIE ∨ mode = modeIE ∧ IE = true) := by
  unfold getIE
  cases useCLIC with
  | true => simp
  | false =>
      by_cases hlt : mode < modeIE
      · simp [hlt]
      · by_cases hgt : modeIE < mode
        · simp [hlt, hgt, ne_of_gt hgt]
        · have heq : mode = modeIE := le_antisymm (not_lt.mp hgt) (not_lt.mp hlt)
          simp [heq]

/-- The effective enable of the destination of interrupt `i`. -/
lemma globallyEnabled_iff (s : BasicIntState) (i : ℕ) :
    GloballyEnabled s i ↔
      getIE s.mode (s.xIE (delegatedMode s i)) (delegatedMode s i)
        (s.useCLIC (delegatedMode s i)) = true := by
  rw [getIE_eq_true_iff]
  rfl

/-- One masking step, bit by bit. -/
lemma testBit_mask (b : Bool) (pe mask : UInt64) {i : ℕ} (hi : i < 64) :
    (if !b then pe &&& ~~~mask else pe).toNat.testBit i =
      (pe.toNat.testBit i && (b || !mask.toNat.testBit i)) := by
  cases b
  · have hc : (!false) = true := rfl
    rw [if_pos hc, UInt64.toNat_and, Nat.testBit_and, UInt64.testBit_toNat_not, decide_eq_true hi]
    simp
  · rw [if_neg (by decide)]
    simp

/-- **The masking keeps exactly the pending, enabled and globally enabled
interrupts**: the three masks split the interrupts by their destination, and
each is cleared when the effective enable of its destination is off. -/
theorem testBit_basicPendingEnabled (s : BasicIntState) (i : ℕ) :
    (basicPendingEnabled s).toNat.testBit i = true ↔ IntPendingEnabled s i := by
  by_cases hi : i < 64
  · rw [IntPendingEnabled, globallyEnabled_iff, ← Bool.and_eq_true]
    unfold basicPendingEnabled
    by_cases hpe : getPendingBasic s = 0
    · simp [hpe]
    · dsimp only
      rw [if_pos hpe, testBit_mask _ _ _ hi, testBit_mask _ _ _ hi, testBit_mask _ _ _ hi]
      simp only [UInt64.toNat_and, Nat.testBit_and, UInt64.testBit_toNat_not, hi,
        decide_true, Bool.true_and]
      -- the destination is decided by the two delegation bits
      unfold delegatedMode delegationMode
      cases hm : s.mideleg.toNat.testBit i <;> cases hs : s.sideleg.toNat.testBit i <;>
        simp [BasicIntState.xIE, BasicIntState.useCLIC]
  · -- no bit at or above the width is set
    have hpe : (getPendingBasic s).toNat.testBit i = false :=
      Nat.testBit_lt_two_pow (lt_of_lt_of_le (getPendingBasic s).toNat_lt
        (Nat.pow_le_pow_right (by norm_num) (not_lt.mp hi)))
    have hbpe : (basicPendingEnabled s).toNat.testBit i = false :=
      Nat.testBit_lt_two_pow (lt_of_lt_of_le (basicPendingEnabled s).toNat_lt
        (Nat.pow_le_pow_right (by norm_num) (not_lt.mp hi)))
    simp [IntPendingEnabled, hpe, hbpe]

/-! ### The selection loop -/

/-- The loop's step is the step of an `ArgMax` scan by `intKey`. -/
lemma updateSelected_eq_step (extPri : ℕ → ℕ) (o : Option IntCand) (c : IntCand) :
    updateSelected extPri o c = ArgMax.step (intKey extPri) o c := by
  cases o with
  | none => rfl
  | some sel =>
      simp only [updateSelected, ArgMax.step, intKey, Prod.Lex.toLex_le_toLex]
      by_cases hlt : sel.priv < c.priv
      · simp [hlt]
      · by_cases hgt : c.priv < sel.priv
        · simp [hlt, hgt, ne_of_gt hgt]
        · have heq : sel.priv = c.priv := le_antisymm (not_lt.mp hgt) (not_lt.mp hlt)
          by_cases hpri : getIntPri extPri sel.id ≤ getIntPri extPri c.id
          · simp [heq, hpri]
          · simp [heq, hpri]

/-- **The selection is an `ArgMax` scan** of the interrupts the masking
keeps, in increasing order. -/
theorem refreshPendingAndEnabledBasic_eq_foldl (extPri : ℕ → ℕ) (s : BasicIntState) :
    refreshPendingAndEnabledBasic extPri s =
      ((basicPendingEnabled s).toNat.bitIndices.map
        (fun i => (⟨i, getInterruptModeX s i⟩ : IntCand))).foldl
        (ArgMax.step (intKey extPri)) none := by
  unfold refreshPendingAndEnabledBasic
  dsimp only
  split_ifs with hpe
  · rw [selectPendingEnabled, BitScan.loop_eq_foldl _ _ _ _ _ (basicPendingEnabled s).toNat_lt,
      List.foldl_map]
    simp only [add_zero, updateSelected_eq_step, List.foldl_map]
  · have hzero : basicPendingEnabled s = 0 := not_not.mp hpe
    simp [hzero]

/-! ### Destinations -/

/-- Below bit 32, `getModeX` reads the delegation bits of the interrupt
itself. -/
lemma getModeX_of_lt (modeY : RiscvMode) (mMask sMask : UInt64) {i : ℕ} (hi : i < 32) :
    getModeX modeY mMask.toUInt32 sMask.toUInt32 i =
      if modeY < delegationMode mMask sMask i then delegationMode mMask sMask i else modeY := by
  unfold getModeX delegationMode
  simp only [UInt32.and_one_shiftLeft_eq_zero_iff _ hi, UInt64.toNat_toUInt32,
    Nat.testBit_mod_two_pow, hi, decide_true, Bool.true_and]

lemma le_ite_lt (a b : RiscvMode) : a ≤ if a < b then b else a := by
  split_ifs with h
  · exact le_of_lt h
  · exact le_rfl

/-- A trap is never taken below the current mode. -/
lemma le_getModeX (modeY : RiscvMode) (mMask sMask : UInt32) (ecode : ℕ) :
    modeY ≤ getModeX modeY mMask sMask ecode :=
  le_ite_lt modeY _

/-- A trap from a mode other than Hypervisor mode does not go to Hypervisor
mode. -/
lemma getModeX_ne_hypervisor {modeY : RiscvMode} (h : modeY ≠ .hypervisor) (mMask sMask : UInt32)
    (ecode : ℕ) : getModeX modeY mMask sMask ecode ≠ .hypervisor := by
  unfold getModeX
  dsimp only
  split_ifs <;> simp [h]

lemma getInterruptModeX_of_lt (s : BasicIntState) {i : ℕ} (hi : i < 32) :
    getInterruptModeX s i = if s.mode < delegatedMode s i then delegatedMode s i else s.mode :=
  getModeX_of_lt s.mode s.mideleg s.sideleg hi

/-- A globally enabled interrupt is taken no lower than the current mode. -/
lemma mode_le_delegatedMode {s : BasicIntState} {i : ℕ} (h : GloballyEnabled s i) :
    s.mode ≤ delegatedMode s i := by
  rcases h.2 with hlt | ⟨heq, -⟩
  · exact le_of_lt hlt
  · exact le_of_eq heq

/-- While `mie` holds a 32-bit value, a pending and enabled interrupt is below
bit 32. -/
lemma lt_of_testBit_getPendingBasic {s : BasicIntState} (hmie : s.mie.toNat < 2 ^ 32) {i : ℕ}
    (h : (getPendingBasic s).toNat.testBit i = true) : i < 32 := by
  by_contra hge
  have hbit : s.mie.toNat.testBit i = false :=
    Nat.testBit_lt_two_pow (lt_of_lt_of_le hmie (Nat.pow_le_pow_right (by norm_num) (not_lt.mp hge)))
  rw [getPendingBasic, UInt64.toNat_and, Nat.testBit_and, hbit, Bool.false_and] at h
  exact Bool.false_ne_true h

lemma getInterruptModeX_eq_delegatedMode {s : BasicIntState} (hmie : s.mie.toNat < 2 ^ 32)
    {i : ℕ} (h : IntPendingEnabled s i) : getInterruptModeX s i = delegatedMode s i := by
  rw [getInterruptModeX_of_lt s (lt_of_testBit_getPendingBasic hmie h.1)]
  split_ifs with hlt
  · rfl
  · exact le_antisymm (mode_le_delegatedMode h.2) (not_lt.mp hlt)

/-! ### The selection -/

/-- What basic-mode arbitration must give: an interrupt is selected exactly
when one is pending, enabled and globally enabled; the selection is such an
interrupt, its recorded mode is the mode `getInterruptModeX` gives
`riscvTakeException` and the mode it is delegated to, and no such interrupt
has a greater (destination, priority) pair. -/
structure BasicArbitration (extPri : ℕ → ℕ) (s : BasicIntState) : Prop where
  isSome_iff : (refreshPendingAndEnabledBasic extPri s).isSome ↔ ∃ i, IntPendingEnabled s i
  pendingEnabled : ∀ c ∈ refreshPendingAndEnabledBasic extPri s, IntPendingEnabled s c.id
  priv_eq_modeX : ∀ c ∈ refreshPendingAndEnabledBasic extPri s, c.priv = getInterruptModeX s c.id
  priv_eq_delegated : ∀ c ∈ refreshPendingAndEnabledBasic extPri s, c.priv = delegatedMode s c.id
  maximal : ∀ c ∈ refreshPendingAndEnabledBasic extPri s, ∀ i, IntPendingEnabled s i →
    toLex (delegatedMode s i, getIntPri extPri i) ≤ toLex (c.priv, getIntPri extPri c.id)

/-- **Basic-mode arbitration is correct** while `mie` holds a 32-bit value. -/
theorem refreshPendingAndEnabledBasic_spec (extPri : ℕ → ℕ) (s : BasicIntState)
    (hmie : s.mie.toNat < 2 ^ 32) : BasicArbitration extPri s := by
  have hfold := refreshPendingAndEnabledBasic_eq_foldl extPri s
  set cands := (basicPendingEnabled s).toNat.bitIndices.map
    (fun i => (⟨i, getInterruptModeX s i⟩ : IntCand)) with hcands
  have hmem : ∀ c ∈ cands, IntPendingEnabled s c.id ∧ c.priv = getInterruptModeX s c.id := by
    intro c hc
    obtain ⟨i, hi, rfl⟩ := List.mem_map.mp hc
    exact ⟨(testBit_basicPendingEnabled s i).mp (Nat.mem_bitIndices.mp hi), rfl⟩
  -- what the scan selects is one of the candidates
  have hsel : ∀ c ∈ refreshPendingAndEnabledBasic extPri s,
      IntPendingEnabled s c.id ∧ c.priv = getInterruptModeX s c.id := by
    intro c hc
    rw [hfold] at hc
    rcases ArgMax.foldl_step_mem (Option.mem_def.mp hc) with hnone | hc'
    · cases hnone
    · exact hmem c hc'
  refine ⟨?_, fun c hc => (hsel c hc).1, fun c hc => (hsel c hc).2,
    fun c hc => (hsel c hc).2.trans (getInterruptModeX_eq_delegatedMode hmie (hsel c hc).1), ?_⟩
  · rw [hfold, ArgMax.foldl_step_isSome, hcands]
    simp only [Option.isSome_none, Bool.false_eq_true, false_or, ne_eq, List.map_eq_nil_iff]
    constructor
    · intro hne
      obtain ⟨i, hi⟩ := List.exists_mem_of_ne_nil _ hne
      exact ⟨i, (testBit_basicPendingEnabled s i).mp (Nat.mem_bitIndices.mp hi)⟩
    · rintro ⟨i, hi⟩ hnil
      have hmem := Nat.mem_bitIndices.mpr ((testBit_basicPendingEnabled s i).mpr hi)
      rw [hnil] at hmem
      exact List.not_mem_nil hmem
  · intro c hc i hi
    rw [hfold] at hc
    -- interrupt `i` is a candidate, and the selection's key is at least its key
    have hcand : (⟨i, getInterruptModeX s i⟩ : IntCand) ∈ cands :=
      List.mem_map.mpr ⟨i, Nat.mem_bitIndices.mpr ((testBit_basicPendingEnabled s i).mpr hi), rfl⟩
    have hle := (ArgMax.le_foldl_step (Option.mem_def.mp hc)).2 _ hcand
    rw [intKey, intKey, getInterruptModeX_eq_delegatedMode hmie hi] at hle
    exact hle

/-- A Machine timer interrupt, pending and enabled in User mode. -/
theorem refreshPendingAndEnabledBasic_spec_machine_timer :
    (0x80 : UInt64).toNat < 2 ^ 32 ∧
      BasicArbitration (fun _ => 0) ⟨.user, 0x80, 0x80, 0, 0, false, false, false, false, false, false⟩ :=
  ⟨by decide, refreshPendingAndEnabledBasic_spec _ _ (by decide)⟩

/-! ### The states the hart reaches -/

/-- The events that change what basic arbitration reads: a write of `mie`
through `ieW` (from the `mie`, `sie` or `uie` alias, or in save/restore),
the writes `midelegW` and `sidelegW`, and the changes of `mip` (interrupt
ports and `ip` writes), of the global enables, of the current mode and of
the CLIC modes, which arbitration reads as they are. -/
inductive BasicIntOp where
  | ieW (mieMask : UInt64) (inSaveRestore : Bool) (newValue rMask : UInt32) (useCLIC : Bool)
  | midelegW (midelegMask : UInt64) (newValue : UInt32)
  | sidelegW (sidelegMask : UInt64) (newValue : UInt32)
  | mip (value : UInt64)
  | status (MIE SIE UIE : Bool)
  | mode (mode : RiscvMode)
  | clic (useCLICM useCLICS useCLICU : Bool)

/-- One event. -/
def basicIntStep (s : BasicIntState) : BasicIntOp → BasicIntState
  | .ieW mieMask inSaveRestore newValue rMask useCLIC =>
    { s with mie := ieW s.mie mieMask inSaveRestore newValue rMask useCLIC }
  | .midelegW midelegMask newValue => { s with mideleg := midelegW s.mideleg midelegMask newValue }
  | .sidelegW sidelegMask newValue => { s with sideleg := sidelegW s.sideleg sidelegMask newValue }
  | .mip value => { s with mip := value }
  | .status MIE SIE UIE => { s with MIE := MIE, SIE := SIE, UIE := UIE }
  | .mode mode => { s with mode := mode }
  | .clic useCLICM useCLICS useCLICU =>
    { s with useCLICM := useCLICM, useCLICS := useCLICS, useCLICU := useCLICU }

/-- The states after reset: `mie` is allocated cleared, and no reset writes
it. -/
def BasicIntReset (s : BasicIntState) : Prop := s.mie = 0

/-- Every event leaves `mie` below `2 ^ 32`: `ieW` stores an `Uns32`, and no
other event writes `mie`. -/
lemma basicIntStep_mie_lt {s : BasicIntState} (hs : s.mie.toNat < 2 ^ 32) (op : BasicIntOp) :
    (basicIntStep s op).mie.toNat < 2 ^ 32 := by
  cases op with
  | ieW mieMask inSaveRestore newValue rMask useCLIC => exact ieW_toNat_lt ..
  | _ => exact hs

lemma reachable_mie_lt {s : BasicIntState}
    (h : StepSystem.Reachable basicIntStep (fun _ => True) BasicIntReset s) :
    s.mie.toNat < 2 ^ 32 := by
  refine StepSystem.Reachable.induction (I := fun t => t.mie.toNat < 2 ^ 32) ?_
    (fun t op _ ht => basicIntStep_mie_lt ht op) h
  intro t ht
  rw [BasicIntReset] at ht
  simp [ht]

/-- **Basic-mode arbitration is correct at every reachable state**: from
reset, after any writes of `mie`, `mideleg` and `sideleg` and any changes of
`mip`, the global enables, the mode and the CLIC modes. -/
theorem refreshPendingAndEnabledBasic_reachable (extPri : ℕ → ℕ) {s : BasicIntState}
    (h : StepSystem.Reachable basicIntStep (fun _ => True) BasicIntReset s) :
    BasicArbitration extPri s :=
  refreshPendingAndEnabledBasic_spec extPri s (reachable_mie_lt h)

/-- From reset in User mode, a write of `mie` through its alias enabling the
Machine timer interrupt, which then becomes pending. -/
theorem refreshPendingAndEnabledBasic_reachable_timer :
    StepSystem.Reachable basicIntStep (fun _ => True) BasicIntReset
        (StepSystem.run basicIntStep ⟨.user, 0, 0, 0, 0, false, false, false, false, false, false⟩
          [.ieW 0xAAA false 0x80 0xFFFFFFFF false, .mip 0x80]) ∧
      BasicArbitration (fun _ => 0)
        (StepSystem.run basicIntStep ⟨.user, 0, 0, 0, 0, false, false, false, false, false, false⟩
          [.ieW 0xAAA false 0x80 0xFFFFFFFF false, .mip 0x80]) :=
  have h : StepSystem.Reachable basicIntStep (fun _ => True) BasicIntReset
      (StepSystem.run basicIntStep ⟨.user, 0, 0, 0, 0, false, false, false, false, false, false⟩
        [.ieW 0xAAA false 0x80 0xFFFFFFFF false, .mip 0x80]) :=
    StepSystem.Reachable.of_run (StepSystem.Reachable.of_init (by rfl)) (fun _ _ => trivial)
  ⟨h, refreshPendingAndEnabledBasic_reachable _ h⟩

end RiscvOvpsim
