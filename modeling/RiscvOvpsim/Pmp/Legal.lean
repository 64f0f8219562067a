import RiscvOvpsim.Pmp.Update

/-!
What the register writes of `riscvVM.c` guarantee about the PMP registers
themselves, over every run of the PMP subsystem.

* The byte loop of `riscvVMWritePMPCFG` acts entry by entry
  (`writePMPCFGLoop_pmpcfg`): byte `i` of the register becomes
  `pmpcfgByteResult` of its old value, whatever the order of the loop.
* `PmpLegal`: no configuration byte beyond the implemented entries is ever
  set, no entry holds the reserved bits `_u1`, no entry holds `NA4` when
  `G ≥ 1`, and every address register is masked to the implemented physical
  address bits and to the grain.  It holds after `riscvVMResetPMP` and every
  operation keeps it (`pmpLegal_step`).
* `riscvVMWritePMPCFG_frame`, `riscvVMWritePMPAddr_frame`: a configuration
  write changes only the bytes of the entries its register controls that are
  implemented, an address write only its own register.
* `pmpStep_locked` and `pmpStep_lockedTOR`: a locked entry keeps its
  configuration and address, and the address below a locked `TOR` entry is
  kept, under every operation except a reset; `run_locked`, `run_lockedTOR`:
  the same over every run between two resets.
* `pmp_register_guarantees`: all of it at every reachable state.
-/

namespace RiscvOvpsim

variable (cfg : PmpConfig)

/-! ### Bytes of the written value -/

lemma testBit_srcByte (src : UInt64) (i k : ℕ) :
    (srcByte src i).testBit k = (decide (k < 8) && src.toNat.testBit (8 * i + k)) := by
  rw [srcByte, show (256 : ℕ) = 2 ^ 8 by norm_num, Nat.testBit_mod_two_pow,
    Nat.testBit_shiftRight]

/-- The reserved field `_u1` is bits 5 and 6 of the byte. -/
lemma PmpcfgElem.ofByte_u1_eq_zero {b : ℕ} (h5 : b.testBit 5 = false)
    (h6 : b.testBit 6 = false) : (PmpcfgElem.ofByte b).u1 = 0 := by
  rw [Nat.testBit_eq_decide_div_mod_eq, decide_eq_false_iff_not] at h5 h6
  apply Fin.ext
  show b / 32 % 4 = 0
  norm_num at h5 h6
  omega

/-- Bits 5 and 6 of every byte of `WM64_pmpcfg` are clear. -/
lemma WM64_pmpcfg_testBit (i : ℕ) :
    WM64_pmpcfg.toNat.testBit (8 * i + 5) = false ∧
      WM64_pmpcfg.toNat.testBit (8 * i + 6) = false := by
  by_cases hi : i < 8
  · interval_cases i <;> decide
  · have hlt : WM64_pmpcfg.toNat < 2 ^ 64 := UInt64.toNat_lt _
    have h5 : 2 ^ 64 ≤ 2 ^ (8 * i + 5) := Nat.pow_le_pow_right (by norm_num) (by omega)
    have h6 : 2 ^ 64 ≤ 2 ^ (8 * i + 6) := Nat.pow_le_pow_right (by norm_num) (by omega)
    exact ⟨Nat.testBit_lt_two_pow (by omega), Nat.testBit_lt_two_pow (by omega)⟩

/-- A source byte masked by `WM64_pmpcfg` has no reserved bits. -/
lemma ofByte_srcByte_u1 (v m : UInt64) (i : ℕ) :
    (PmpcfgElem.ofByte (srcByte (v &&& WM64_pmpcfg &&& m) i)).u1 = 0 := by
  obtain ⟨h5, h6⟩ := WM64_pmpcfg_testBit i
  apply PmpcfgElem.ofByte_u1_eq_zero <;> simp [testBit_srcByte, h5, h6]

lemma numBytesMask_toNat {numBytes : ℕ} (h : numBytes < 8) :
    (numBytesMask numBytes).toNat = 2 ^ (8 * numBytes) - 1 := by
  rw [numBytesMask, if_neg (by omega), Nat.mul_comm]
  exact lowMask_toNat (by omega)

/-- The bytes of a partially implemented last register are masked to zero. -/
lemma srcByte_numBytesMask (v : UInt64) {numBytes i : ℕ} (hi : numBytes ≤ i) (hi8 : i < 8) :
    srcByte (v &&& numBytesMask numBytes) i = 0 := by
  apply Nat.eq_of_testBit_eq
  intro k
  rw [testBit_srcByte, UInt64.toNat_and, numBytesMask_toNat (by omega), Nat.testBit_and,
    Nat.testBit_two_pow_sub_one, Nat.zero_testBit]
  have : ¬ 8 * i + k < 8 * numBytes := by omega
  simp [this]

/-! ### The configuration write, entry by entry -/

/-- What one byte of `riscvVMWritePMPCFG` leaves in an entry whose old
configuration is `e`: the new configuration if it differs and the entry is
not locked, else `e`. -/
def pmpcfgByteResult (artifact : Bool) (e : PmpcfgElem) (src : UInt64) (i : ℕ) : PmpcfgElem :=
  let new := newPMPCFGElem cfg e src i
  if e ≠ new ∧ (!artifact && e.L) = false then new else e

lemma writePMPCFGByte_pmpcfg (artifact : Bool) (index : ℕ) (src : UInt64) (s : PmpState)
    (i : ℕ) :
    (writePMPCFGByte cfg artifact index src s i).pmpcfg =
      Function.update s.pmpcfg (index * 4 + i)
        (pmpcfgByteResult cfg artifact (s.pmpcfg (index * 4 + i)) src i) := by
  unfold writePMPCFGByte pmpcfgByteResult
  dsimp only
  by_cases h : getPMPCFGElem s (index * 4 + i) ≠
      newPMPCFGElem cfg (getPMPCFGElem s (index * 4 + i)) src i ∧
      pmpLocked artifact s (index * 4 + i) = false
  · have h' : s.pmpcfg (index * 4 + i) ≠ newPMPCFGElem cfg (s.pmpcfg (index * 4 + i)) src i ∧
        (!artifact && (s.pmpcfg (index * 4 + i)).L) = false := h
    rw [if_pos h, if_pos h']
    simp [getPMPCFGElem]
  · have h' : ¬(s.pmpcfg (index * 4 + i) ≠ newPMPCFGElem cfg (s.pmpcfg (index * 4 + i)) src i ∧
        (!artifact && (s.pmpcfg (index * 4 + i)).L) = false) := h
    rw [if_neg h, if_neg h', Function.update_eq_self]

lemma writePMPCFGByte_pmpaddr (artifact : Bool) (index : ℕ) (src : UInt64) (s : PmpState)
    (i : ℕ) : (writePMPCFGByte cfg artifact index src s i).pmpaddr = s.pmpaddr := by
  unfold writePMPCFGByte
  dsimp only
  split_ifs <;> simp

/-- **The byte loop acts entry by entry**: after visiting bytes `n-1`, ...,
`0`, each entry of the register holds `pmpcfgByteResult` of its old value. -/
lemma writePMPCFGLoop_pmpcfg (artifact : Bool) (index : ℕ) (src : UInt64) :
    ∀ (n : ℕ) (s : PmpState) (j : ℕ), (writePMPCFGLoop cfg artifact index src n s).pmpcfg j =
      if index * 4 ≤ j ∧ j < index * 4 + n then
        pmpcfgByteResult cfg artifact (s.pmpcfg j) src (j - index * 4)
      else s.pmpcfg j := by
  intro n
  induction n with
  | zero =>
      intro s j
      rw [writePMPCFGLoop, if_neg (by omega)]
  | succ n ih =>
      intro s j
      rw [writePMPCFGLoop, ih, writePMPCFGByte_pmpcfg]
      by_cases hj : j = index * 4 + n
      · -- the byte visited first is outside the range of the rest of the loop
        subst hj
        rw [if_neg (by omega), if_pos (by omega), Function.update_self, Nat.add_sub_cancel_left]
      · have hrange : (index * 4 ≤ j ∧ j < index * 4 + n) ↔
            (index * 4 ≤ j ∧ j < index * 4 + (n + 1)) := by omega
        simp only [Function.update_of_ne hj, hrange]

lemma writePMPCFGLoop_pmpaddr (artifact : Bool) (index : ℕ) (src : UInt64) :
    ∀ (n : ℕ) (s : PmpState), (writePMPCFGLoop cfg artifact index src n s).pmpaddr = s.pmpaddr := by
  intro n
  induction n with
  | zero => intro s; rfl
  | succ n ih =>
      intro s
      rw [writePMPCFGLoop, ih, writePMPCFGByte_pmpaddr]

/-- The source value of a write to configuration register `index`. -/
def pmpcfgSource (rv64 : Bool) (index : ℕ) (newValue : UInt64) : UInt64 :=
  newValue &&& WM64_pmpcfg &&&
    numBytesMask (cfg.numRegs - getPMPCFGOffset rv64 index * entriesPerCFG rv64)

lemma riscvVMWritePMPCFG_pmpcfg (artifact rv64 : Bool) (s : PmpState) (index : ℕ)
    (newValue : UInt64) (j : ℕ) :
    (riscvVMWritePMPCFG cfg artifact rv64 s index newValue).1.pmpcfg j =
      if validPMPCFG cfg rv64 index ∧ index * 4 ≤ j ∧ j < index * 4 + entriesPerCFG rv64 then
        pmpcfgByteResult cfg artifact (s.pmpcfg j) (pmpcfgSource cfg rv64 index newValue)
          (j - index * 4)
      else s.pmpcfg j := by
  unfold riscvVMWritePMPCFG
  by_cases hv : validPMPCFG cfg rv64 index
  · simp only [hv, if_true, true_and]
    exact writePMPCFGLoop_pmpcfg cfg artifact index _ _ s j
  · simp [hv]

lemma riscvVMWritePMPCFG_pmpaddr (artifact rv64 : Bool) (s : PmpState) (index : ℕ)
    (newValue : UInt64) :
    (riscvVMWritePMPCFG cfg artifact rv64 s index newValue).1.pmpaddr = s.pmpaddr := by
  unfold riscvVMWritePMPCFG
  split_ifs
  · exact writePMPCFGLoop_pmpaddr cfg artifact index _ _ s
  · rfl

/-! ### The address write, the reset and the mapping -/

lemma maskPMPAddr_toNat_lt (h : cfg.extBits ≤ 64) (v : UInt64) :
    (maskPMPAddr cfg v).toNat < 2 ^ (cfg.extBits - 2) := by
  have hmask : (getAddressMask cfg.extBits >>> 2).toNat = (2 ^ cfg.extBits - 1) / 4 := by
    rw [UInt64.toNat_shiftRight, getAddressMask_toNat h]
    simp [Nat.shiftRight_eq_div_pow]
  have hbound : (2 ^ cfg.extBits - 1) / 4 < 2 ^ (cfg.extBits - 2) := by
    rcases Nat.lt_or_ge cfg.extBits 2 with h2 | h2
    · have : 2 ^ cfg.extBits ≤ 2 := by
        calc 2 ^ cfg.extBits ≤ 2 ^ 1 := Nat.pow_le_pow_right (by norm_num) (by omega)
          _ = 2 := by norm_num
      have : 0 < 2 ^ (cfg.extBits - 2) := Nat.two_pow_pos _
      omega
    · have hpow : 2 ^ cfg.extBits = 4 * 2 ^ (cfg.extBits - 2) := by
        rw [show (4 : ℕ) = 2 ^ 2 by norm_num, ← pow_add, Nat.add_sub_cancel' h2]
      have : 0 < 2 ^ (cfg.extBits - 2) := Nat.two_pow_pos _
      rw [hpow]
      omega
  have hle : (v &&& (getAddressMask cfg.extBits >>> 2)).toNat ≤ (2 ^ cfg.extBits - 1) / 4 := by
    rw [UInt64.toNat_and, ← hmask]
    exact Nat.and_le_right
  unfold maskPMPAddr
  split_ifs
  · rw [UInt64.toNat_and]
    exact lt_of_le_of_lt (Nat.and_le_left.trans hle) hbound
  · exact lt_of_le_of_lt hle hbound

lemma maskPMPAddr_grain (hG : 0 < cfg.grain) (hG64 : cfg.grain ≤ 64) (v : UInt64) :
    (maskPMPAddr cfg v).toNat % 2 ^ (cfg.grain - 1) = 0 := by
  have hshift : (cfg.grain - 1).toUInt64.toNat % 64 = cfg.grain - 1 := by
    rw [Nat.toUInt64_eq, UInt64.toNat_ofNat', Nat.mod_eq_of_lt (by omega),
      Nat.mod_eq_of_lt (by omega)]
  unfold maskPMPAddr
  rw [if_pos (by omega)]
  apply Nat.eq_of_testBit_eq
  intro k
  rw [Nat.testBit_mod_two_pow, UInt64.toNat_and, Nat.testBit_and, UInt64.toNat_shiftLeft, hshift,
    Nat.testBit_mod_two_pow, Nat.testBit_shiftLeft, Nat.zero_testBit]
  by_cases hk : k < cfg.grain - 1
  · simp [hk, Nat.not_le.mpr hk]
  · simp [hk]

lemma riscvVMWritePMPAddr_pmpcfg (artifact : Bool) (s : PmpState) (index : ℕ) (v : UInt64) :
    (riscvVMWritePMPAddr cfg artifact s index v).1.pmpcfg = s.pmpcfg := by
  unfold riscvVMWritePMPAddr
  dsimp only
  split_ifs <;> simp

/-- An address write stores the masked value unless the entry is locked or the
next entry is a locked `TOR` entry. -/
lemma riscvVMWritePMPAddr_pmpaddr (artifact : Bool) (s : PmpState) (index : ℕ) (v : UInt64) :
    (riscvVMWritePMPAddr cfg artifact s index v).1.pmpaddr =
      if validPMPAddr cfg index ∧ pmpLocked artifact s index = false ∧
          pmpLockedTOR cfg artifact s (index + 1) = false then
        Function.update s.pmpaddr index (maskPMPAddr cfg v)
      else s.pmpaddr := by
  unfold riscvVMWritePMPAddr
  dsimp only
  by_cases hv : validPMPAddr cfg index
  · by_cases heq : s.pmpaddr index = maskPMPAddr cfg v
    · -- writing the value already held changes nothing
      rw [if_neg (by simp [heq])]
      split_ifs <;> simp [← heq]
    · rw [if_pos ⟨hv, heq⟩]
      by_cases hl : pmpLocked artifact s index = true
      · simp [hl]
      · by_cases ht : pmpLockedTOR cfg artifact s (index + 1) = true
        · simp [hl, ht]
        · simp [hv, hl, ht]
  · simp [hv]

lemma resetPMPEntry_pmpcfg (s : PmpState) (i : ℕ) :
    (resetPMPEntry cfg s i).pmpcfg = Function.update s.pmpcfg i PmpcfgElem.zero := by
  unfold resetPMPEntry
  dsimp only
  split_ifs with h
  · simp
  · simp only [ne_eq, not_or, not_not] at h
    rw [← h.2, Function.update_eq_self]

lemma resetPMPEntry_pmpaddr (s : PmpState) (i : ℕ) :
    (resetPMPEntry cfg s i).pmpaddr = Function.update s.pmpaddr i 0 := by
  unfold resetPMPEntry
  dsimp only
  split_ifs with h
  · simp
  · simp only [ne_eq, not_or, not_not] at h
    rw [← h.1, Function.update_eq_self]

/-- The reset loop over entries `0`, ..., `n-1` clears exactly those entries. -/
lemma foldl_resetPMPEntry (n : ℕ) : ∀ (s : PmpState) (j : ℕ),
    ((List.range n).foldl (resetPMPEntry cfg) s).pmpcfg j =
        (if j < n then PmpcfgElem.zero else s.pmpcfg j) ∧
      ((List.range n).foldl (resetPMPEntry cfg) s).pmpaddr j = (if j < n then 0 else s.pmpaddr j) := by
  induction n with
  | zero => intro s j; simp
  | succ n ih =>
      intro s j
      rw [List.range_succ, List.foldl_append, List.foldl_cons, List.foldl_nil,
        resetPMPEntry_pmpcfg, resetPMPEntry_pmpaddr]
      obtain ⟨hc, ha⟩ := ih s j
      by_cases hj : j = n
      · subst hj
        simp
      · simp only [Function.update_of_ne hj, hc, ha]
        constructor <;> split_ifs <;> first | rfl | omega

lemma riscvVMResetPMP_pmpcfg (s : PmpState) (j : ℕ) :
    (riscvVMResetPMP cfg s).pmpcfg j = if j < cfg.numRegs then PmpcfgElem.zero else s.pmpcfg j :=
  (foldl_resetPMPEntry cfg cfg.numRegs s j).1

lemma riscvVMResetPMP_pmpaddr (s : PmpState) (j : ℕ) :
    (riscvVMResetPMP cfg s).pmpaddr j = if j < cfg.numRegs then 0 else s.pmpaddr j :=
  (foldl_resetPMPEntry cfg cfg.numRegs s j).2

@[simp] lemma mapPMP_pmpcfg (s : PmpState) (mode : RiscvMode) (requiredPriv : MemPriv)
    (lowPA highPA : UInt64) : (mapPMP cfg s mode requiredPriv lowPA highPA).1.pmpcfg = s.pmpcfg := by
  unfold mapPMP
  dsimp only
  split_ifs <;> simp

@[simp] lemma mapPMP_pmpaddr (s : PmpState) (mode : RiscvMode) (requiredPriv : MemPriv)
    (lowPA highPA : UInt64) : (mapPMP cfg s mode requiredPriv lowPA highPA).1.pmpaddr = s.pmpaddr := by
  unfold mapPMP
  dsimp only
  split_ifs <;> simp

/-! ### Legal register contents -/

/-- The ranges of the parameters: `PMP_grain` is at most 29, and a physical
address has at most 64 bits. -/
structure PmpConfig.Valid : Prop where
  grain_le : cfg.grain ≤ 29
  extBits_le : cfg.extBits ≤ 64

/-- The operations a run may use: accesses that are not artifact (debugger)
accesses, and configuration registers the CSR table has (no odd-numbered
`pmpcfg` on RV64). -/
def PmpOp.Admitted : PmpOp → Prop
  | .writeCfg artifact rv64 index _ => artifact = false ∧ (rv64 = true → index % 2 = 0)
  | .writeAddr artifact _ _ => artifact = false
  | .reset => True
  | .map _ _ _ _ => True

/-- **Legal PMP registers**: configuration bytes beyond the implemented entries
are clear; no entry holds the reserved bits or, when `G ≥ 1`, the mode `NA4`;
every address register has no bits at or above `extBits-2` and, when `G ≥ 1`,
none below `G-1`. -/
structure PmpLegal (s : PmpState) : Prop where
  beyond : ∀ j, cfg.numRegs ≤ j → s.pmpcfg j = PmpcfgElem.zero
  u1_eq_zero : ∀ j < cfg.numRegs, (s.pmpcfg j).u1 = 0
  mode_ne_na4 : ∀ j < cfg.numRegs, 0 < cfg.grain → (s.pmpcfg j).mode ≠ .na4
  addr_lt : ∀ j < cfg.numRegs, (s.pmpaddr j).toNat < 2 ^ (cfg.extBits - 2)
  addr_grain : ∀ j < cfg.numRegs, 0 < cfg.grain → (s.pmpaddr j).toNat % 2 ^ (cfg.grain - 1) = 0

/-- Runs start from `riscvVMResetPMP` of a state whose configuration bytes
beyond the implemented entries are clear, as `riscvVMNewPMP` allocates them. -/
def PmpResetFrom (s : PmpState) : Prop :=
  ∃ s₀ : PmpState, (∀ j, cfg.numRegs ≤ j → s₀.pmpcfg j = PmpcfgElem.zero) ∧
    s = riscvVMResetPMP cfg s₀

/-- The reachable PMP states. -/
def PmpReachable (s : PmpState) : Prop :=
  StepSystem.Reachable (pmpStep cfg) PmpOp.Admitted (PmpResetFrom cfg) s

lemma PmpLegal.of_regs {s t : PmpState} (hs : PmpLegal cfg s) (hc : t.pmpcfg = s.pmpcfg)
    (ha : t.pmpaddr = s.pmpaddr) : PmpLegal cfg t := by
  obtain ⟨h₁, h₂, h₃, h₄, h₅⟩ := hs
  exact ⟨by rwa [hc], by rwa [hc], by rwa [hc], by rwa [ha], by rwa [ha]⟩

lemma newPMPCFGElem_u1 (e : PmpcfgElem) (src : UInt64) (i : ℕ) :
    (newPMPCFGElem cfg e src i).u1 = (PmpcfgElem.ofByte (srcByte src i)).u1 := by
  unfold newPMPCFGElem
  dsimp only
  split_ifs <;> rfl

lemma newPMPCFGElem_mode_ne_na4 (hG : 0 < cfg.grain) {e : PmpcfgElem} (he : e.mode ≠ .na4)
    (src : UInt64) (i : ℕ) : (newPMPCFGElem cfg e src i).mode ≠ .na4 := by
  unfold newPMPCFGElem
  dsimp only
  split_ifs with h
  · exact he
  · exact fun hm => h ⟨by omega, hm⟩

lemma pmpcfgByteResult_cases (artifact : Bool) (e : PmpcfgElem) (src : UInt64) (i : ℕ) :
    pmpcfgByteResult cfg artifact e src i = newPMPCFGElem cfg e src i ∨
      pmpcfgByteResult cfg artifact e src i = e := by
  unfold pmpcfgByteResult
  dsimp only
  split_ifs <;> simp

lemma pmpcfgByteResult_of_locked {e : PmpcfgElem} (hL : e.L = true) (src : UInt64) (i : ℕ) :
    pmpcfgByteResult cfg false e src i = e := by
  unfold pmpcfgByteResult
  rw [if_neg (by simp [hL])]

lemma pmpcfgByteResult_zero (artifact : Bool) {src : UInt64} {i : ℕ} (h : srcByte src i = 0) :
    pmpcfgByteResult cfg artifact PmpcfgElem.zero src i = PmpcfgElem.zero := by
  have hnew : newPMPCFGElem cfg PmpcfgElem.zero src i = PmpcfgElem.zero := by
    unfold newPMPCFGElem
    rw [h, PmpcfgElem.ofByte_zero, if_neg (by simp [PmpcfgElem.zero])]
  unfold pmpcfgByteResult
  rw [hnew]
  simp

lemma getPMPCFGOffset_mul {rv64 : Bool} {index : ℕ} (h : rv64 = true → index % 2 = 0) :
    getPMPCFGOffset rv64 index * entriesPerCFG rv64 = index * 4 := by
  cases rv64
  · simp [getPMPCFGOffset, entriesPerCFG]
  · simp only [getPMPCFGOffset, entriesPerCFG, if_true, forall_const] at h ⊢
    omega

lemma entriesPerCFG_le (rv64 : Bool) : entriesPerCFG rv64 ≤ 8 := by
  cases rv64 <;> simp [entriesPerCFG]

/-- A configuration write leaves the unimplemented entries of its register
clear: their source bytes are masked to zero. -/
lemma pmpcfgByteResult_beyond {s : PmpState} (hs : PmpLegal cfg s) (artifact : Bool)
    {rv64 : Bool} {index j : ℕ} (hidx : rv64 = true → index % 2 = 0) (v : UInt64)
    (hj : cfg.numRegs ≤ j) (hlo : index * 4 ≤ j) (hhi : j < index * 4 + entriesPerCFG rv64) :
    pmpcfgByteResult cfg artifact (s.pmpcfg j) (pmpcfgSource cfg rv64 index v) (j - index * 4) =
      s.pmpcfg j := by
  rw [hs.beyond j hj]
  apply pmpcfgByteResult_zero
  have hoff := getPMPCFGOffset_mul hidx
  have h8 := entriesPerCFG_le rv64
  unfold pmpcfgSource
  exact srcByte_numBytesMask _ (by omega) (by omega)

/-- A configuration write keeps the registers legal. -/
lemma pmpLegal_writeCfg {s : PmpState} (hs : PmpLegal cfg s) (artifact : Bool) {rv64 : Bool}
    {index : ℕ} (hidx : rv64 = true → index % 2 = 0) (v : UInt64) :
    PmpLegal cfg (riscvVMWritePMPCFG cfg artifact rv64 s index v).1 := by
  refine ⟨fun j hj => ?_, fun j hj => ?_, fun j hj hG => ?_, fun j hj => ?_, fun j hj hG => ?_⟩
  · rw [riscvVMWritePMPCFG_pmpcfg]
    split_ifs with h
    · rw [pmpcfgByteResult_beyond cfg hs artifact hidx v hj h.2.1 h.2.2]
      exact hs.beyond j hj
    · exact hs.beyond j hj
  · rw [riscvVMWritePMPCFG_pmpcfg]
    split_ifs
    · rcases pmpcfgByteResult_cases cfg artifact (s.pmpcfg j) (pmpcfgSource cfg rv64 index v)
          (j - index * 4) with h | h <;> rw [h]
      · rw [newPMPCFGElem_u1]
        exact ofByte_srcByte_u1 _ _ _
      · exact hs.u1_eq_zero j hj
    · exact hs.u1_eq_zero j hj
  · rw [riscvVMWritePMPCFG_pmpcfg]
    split_ifs
    · rcases pmpcfgByteResult_cases cfg artifact (s.pmpcfg j) (pmpcfgSource cfg rv64 index v)
          (j - index * 4) with h | h <;> rw [h]
      · exact newPMPCFGElem_mode_ne_na4 cfg hG (hs.mode_ne_na4 j hj hG) _ _
      · exact hs.mode_ne_na4 j hj hG
    · exact hs.mode_ne_na4 j hj hG
  · rw [riscvVMWritePMPCFG_pmpaddr]
    exact hs.addr_lt j hj
  · rw [riscvVMWritePMPCFG_pmpaddr]
    exact hs.addr_grain j hj hG

/-- An address write keeps the registers legal. -/
lemma pmpLegal_writeAddr (hcfg : cfg.Valid) {s : PmpState} (hs : PmpLegal cfg s)
    (artifact : Bool) (index : ℕ) (v : UInt64) :
    PmpLegal cfg (riscvVMWritePMPAddr cfg artifact s index v).1 := by
  have hc := riscvVMWritePMPAddr_pmpcfg cfg artifact s index v
  refine ⟨fun j hj => ?_, fun j hj => ?_, fun j hj hG => ?_, fun j hj => ?_, fun j hj hG => ?_⟩
  · rw [hc]
    exact hs.beyond j hj
  · rw [hc]
    exact hs.u1_eq_zero j hj
  · rw [hc]
    exact hs.mode_ne_na4 j hj hG
  · rw [riscvVMWritePMPAddr_pmpaddr]
    split_ifs
    · by_cases hji : j = index
      · subst hji
        rw [Function.update_self]
        exact maskPMPAddr_toNat_lt cfg hcfg.extBits_le v
      · rw [Function.update_of_ne hji]
        exact hs.addr_lt j hj
    · exact hs.addr_lt j hj
  · rw [riscvVMWritePMPAddr_pmpaddr]
    split_ifs
    · by_cases hji : j = index
      · subst hji
        rw [Function.update_self]
        exact maskPMPAddr_grain cfg hG (by have := hcfg.grain_le; omega) v
      · rw [Function.update_of_ne hji]
        exact hs.addr_grain j hj hG
    · exact hs.addr_grain j hj hG

/-- The reset leaves legal registers behind, whatever it starts from, as long as
the bytes beyond the implemented entries are clear. -/
lemma pmpLegal_reset {s : PmpState} (hs : ∀ j, cfg.numRegs ≤ j → s.pmpcfg j = PmpcfgElem.zero) :
    PmpLegal cfg (riscvVMResetPMP cfg s) := by
  refine ⟨fun j hj => ?_, fun j hj => ?_, fun j hj _ => ?_, fun j hj => ?_, fun j hj _ => ?_⟩
  · rw [riscvVMResetPMP_pmpcfg, if_neg (by omega)]
    exact hs j hj
  · rw [riscvVMResetPMP_pmpcfg, if_pos hj]
    rfl
  · rw [riscvVMResetPMP_pmpcfg, if_pos hj]
    simp [PmpcfgElem.zero]
  · rw [riscvVMResetPMP_pmpaddr, if_pos hj]
    simp
  · rw [riscvVMResetPMP_pmpaddr, if_pos hj]
    simp

/-- **Every operation keeps the registers legal.** -/
lemma pmpLegal_step (hcfg : cfg.Valid) {s : PmpState} (hs : PmpLegal cfg s) {op : PmpOp}
    (hop : op.Admitted) : PmpLegal cfg (pmpStep cfg s op) := by
  cases op with
  | writeCfg artifact rv64 index v => exact pmpLegal_writeCfg cfg hs artifact hop.2 v
  | writeAddr artifact index v => exact pmpLegal_writeAddr cfg hcfg hs artifact index v
  | reset => exact pmpLegal_reset cfg hs.beyond
  | map mode requiredPriv lowPA highPA =>
      exact hs.of_regs cfg (mapPMP_pmpcfg ..) (mapPMP_pmpaddr ..)

lemma pmpReachable_legal (hcfg : cfg.Valid) {s : PmpState} (hs : PmpReachable cfg s) :
    PmpLegal cfg s := by
  refine StepSystem.Reachable.induction (fun s h => ?_) (fun s op hop h => ?_) hs
  · obtain ⟨s₀, hs₀, rfl⟩ := h
    exact pmpLegal_reset cfg hs₀
  · exact pmpLegal_step cfg hcfg h hop

/-! ### Frame and locks -/

/-- A configuration write with `index` `k` changes no entry outside
`4k`, ..., `4k+3` (`4k+7` on RV64) and no unimplemented entry. -/
lemma riscvVMWritePMPCFG_frame {s : PmpState} (hs : PmpLegal cfg s) (artifact : Bool)
    {rv64 : Bool} {index : ℕ} (hidx : rv64 = true → index % 2 = 0) (v : UInt64) {j : ℕ}
    (hj : j < index * 4 ∨ index * 4 + entriesPerCFG rv64 ≤ j ∨ cfg.numRegs ≤ j) :
    (riscvVMWritePMPCFG cfg artifact rv64 s index v).1.pmpcfg j = s.pmpcfg j := by
  rw [riscvVMWritePMPCFG_pmpcfg]
  split_ifs with h
  · -- inside the register's entries only an unimplemented one is left
    have hbeyond : cfg.numRegs ≤ j := by omega
    exact pmpcfgByteResult_beyond cfg hs artifact hidx v hbeyond h.2.1 h.2.2
  · rfl

/-- An address write changes no other address register. -/
lemma riscvVMWritePMPAddr_frame (artifact : Bool) (s : PmpState) (index : ℕ) (v : UInt64)
    {j : ℕ} (hj : j ≠ index) :
    (riscvVMWritePMPAddr cfg artifact s index v).1.pmpaddr j = s.pmpaddr j := by
  rw [riscvVMWritePMPAddr_pmpaddr]
  split_ifs
  · exact Function.update_of_ne hj _ _
  · rfl

/-- Every operation but a reset keeps a locked entry: its configuration and
its address register. -/
lemma pmpStep_locked {s : PmpState} {op : PmpOp} (hop : op.Admitted) (hne : op ≠ .reset)
    {j : ℕ} (hL : (s.pmpcfg j).L = true) :
    (pmpStep cfg s op).pmpcfg j = s.pmpcfg j ∧ (pmpStep cfg s op).pmpaddr j = s.pmpaddr j := by
  cases op with
  | writeCfg artifact rv64 index v =>
      obtain ⟨rfl, -⟩ := hop
      simp only [pmpStep, riscvVMWritePMPCFG_pmpaddr, riscvVMWritePMPCFG_pmpcfg, and_true]
      split_ifs
      · exact pmpcfgByteResult_of_locked cfg hL _ _
      · rfl
  | writeAddr artifact index v =>
      cases hop
      simp only [pmpStep, riscvVMWritePMPAddr_pmpcfg, true_and]
      by_cases hji : j = index
      · -- the entry written is the locked one: the write is ignored
        subst hji
        rw [riscvVMWritePMPAddr_pmpaddr, if_neg (by simp [pmpLocked, getPMPCFGElem, hL])]
      · exact riscvVMWritePMPAddr_frame cfg false s index v hji
  | reset => exact absurd rfl hne
  | map mode requiredPriv lowPA highPA => simp [pmpStep]

/-- Every operation but a reset keeps the address register below a locked
`TOR` entry, which is the entry's lower bound. -/
lemma pmpStep_lockedTOR {s : PmpState} {op : PmpOp} (hop : op.Admitted) (hne : op ≠ .reset)
    {j : ℕ} (hj : j < cfg.numRegs) (hL : (s.pmpcfg j).L = true) (htor : (s.pmpcfg j).mode = .tor) :
    (pmpStep cfg s op).pmpaddr (j - 1) = s.pmpaddr (j - 1) := by
  rcases Nat.eq_zero_or_pos j with rfl | hj0
  · exact (pmpStep_locked cfg hop hne hL).2
  cases op with
  | writeCfg artifact rv64 index v => simp only [pmpStep, riscvVMWritePMPCFG_pmpaddr]
  | writeAddr artifact index v =>
      cases hop
      simp only [pmpStep]
      by_cases hji : index = j - 1
      · -- the write to the lower bound is ignored because entry `index + 1` is a locked TOR
        subst hji
        have hTOR : pmpLockedTOR cfg false s (j - 1 + 1) = true := by
          rw [Nat.sub_add_cancel hj0]
          simp [pmpLockedTOR, pmpLocked, getPMPCFGElem, hj, hL, htor]
        rw [riscvVMWritePMPAddr_pmpaddr, if_neg (by simp [hTOR])]
      · exact riscvVMWritePMPAddr_frame cfg false s index v (Ne.symm hji)
  | reset => exact absurd rfl hne
  | map mode requiredPriv lowPA highPA => simp [pmpStep]

/-- The operations of a run between two resets. -/
def PmpOp.BeforeReset (op : PmpOp) : Prop := op.Admitted ∧ op ≠ .reset

/-- Between two resets a locked entry keeps its configuration and address. -/
theorem run_locked {ops : List PmpOp} (hops : ∀ op ∈ ops, op.BeforeReset) {s : PmpState}
    {j : ℕ} (hL : (s.pmpcfg j).L = true) :
    (StepSystem.run (pmpStep cfg) s ops).pmpcfg j = s.pmpcfg j ∧
      (StepSystem.run (pmpStep cfg) s ops).pmpaddr j = s.pmpaddr j := by
  -- the lock is the conserved predicate, the entry's two registers the quantity
  have hstep : ∀ (t : PmpState) (op : PmpOp), op.BeforeReset → (t.pmpcfg j).L = true →
      ((pmpStep cfg t op).pmpcfg j).L = true ∧
        ((pmpStep cfg t op).pmpcfg j, (pmpStep cfg t op).pmpaddr j) = (t.pmpcfg j, t.pmpaddr j) := by
    intro t op hop ht
    obtain ⟨hc, ha⟩ := pmpStep_locked cfg hop.1 hop.2 ht
    exact ⟨by rwa [hc], by rw [hc, ha]⟩
  have h := (@StepSystem.run_conserved _ _ (pmpStep cfg) PmpOp.BeforeReset _
    (fun t => (t.pmpcfg j).L = true) (fun t => (t.pmpcfg j, t.pmpaddr j)) hstep s ops hL hops).2
  exact Prod.ext_iff.mp h

/-- Between two resets a locked `TOR` entry keeps the address below it. -/
theorem run_lockedTOR {ops : List PmpOp} (hops : ∀ op ∈ ops, op.BeforeReset) {s : PmpState}
    {j : ℕ} (hj : j < cfg.numRegs) (hL : (s.pmpcfg j).L = true)
    (htor : (s.pmpcfg j).mode = .tor) :
    (StepSystem.run (pmpStep cfg) s ops).pmpaddr (j - 1) = s.pmpaddr (j - 1) := by
  -- the locked configuration is conserved with the lower bound, so the entry stays a locked TOR
  have hstep : ∀ (t : PmpState) (op : PmpOp), op.BeforeReset →
      (t.pmpcfg j = s.pmpcfg j) →
      (pmpStep cfg t op).pmpcfg j = s.pmpcfg j ∧
        (pmpStep cfg t op).pmpaddr (j - 1) = t.pmpaddr (j - 1) := by
    intro t op hop ht
    have hLt : (t.pmpcfg j).L = true := by rw [ht]; exact hL
    have htort : (t.pmpcfg j).mode = .tor := by rw [ht]; exact htor
    exact ⟨(pmpStep_locked cfg hop.1 hop.2 hLt).1.trans ht,
      pmpStep_lockedTOR cfg hop.1 hop.2 hj hLt htort⟩
  exact (@StepSystem.run_conserved _ _ (pmpStep cfg) PmpOp.BeforeReset _
    (fun t => t.pmpcfg j = s.pmpcfg j) (fun t => t.pmpaddr (j - 1)) hstep s ops rfl hops).2

/-! ### The guarantees of the register writes -/

/-- What the register writes guarantee at a PMP state: its registers are
legal; between two resets a locked entry keeps its configuration and address
and a locked `TOR` entry the address below it; a configuration write changes
only the implemented entries of its register and no address; an address write
changes only its own register. -/
structure PmpRegisterGuarantees (s : PmpState) : Prop where
  legal : PmpLegal cfg s
  locked : ∀ ops : List PmpOp, (∀ op ∈ ops, op.BeforeReset) → ∀ j, (s.pmpcfg j).L = true →
    (StepSystem.run (pmpStep cfg) s ops).pmpcfg j = s.pmpcfg j ∧
      (StepSystem.run (pmpStep cfg) s ops).pmpaddr j = s.pmpaddr j
  lockedTOR : ∀ ops : List PmpOp, (∀ op ∈ ops, op.BeforeReset) → ∀ j,
    (s.pmpcfg j).L = true → (s.pmpcfg j).mode = .tor →
      (StepSystem.run (pmpStep cfg) s ops).pmpaddr (j - 1) = s.pmpaddr (j - 1)
  cfgFrame : ∀ (rv64 : Bool) (index : ℕ) (v : UInt64) (j : ℕ), (rv64 = true → index % 2 = 0) →
    (j < index * 4 ∨ index * 4 + entriesPerCFG rv64 ≤ j ∨ cfg.numRegs ≤ j) →
      (riscvVMWritePMPCFG cfg false rv64 s index v).1.pmpcfg j = s.pmpcfg j ∧
        (riscvVMWritePMPCFG cfg false rv64 s index v).1.pmpaddr = s.pmpaddr
  addrFrame : ∀ (index : ℕ) (v : UInt64) (j : ℕ), j ≠ index →
    (riscvVMWritePMPAddr cfg false s index v).1.pmpaddr j = s.pmpaddr j ∧
      (riscvVMWritePMPAddr cfg false s index v).1.pmpcfg = s.pmpcfg

theorem pmp_register_guarantees (hcfg : cfg.Valid) {s : PmpState} (hs : PmpReachable cfg s) :
    PmpRegisterGuarantees cfg s := by
  have hlegal := pmpReachable_legal cfg hcfg hs
  refine ⟨hlegal, fun ops hops j hL => run_locked cfg hops hL, fun ops hops j hL htor => ?_,
    fun rv64 index v j hidx hj => ⟨riscvVMWritePMPCFG_frame cfg hlegal false hidx v hj,
      riscvVMWritePMPCFG_pmpaddr cfg false rv64 s index v⟩,
    fun index v j hj => ⟨riscvVMWritePMPAddr_frame cfg false s index v hj,
      riscvVMWritePMPAddr_pmpcfg cfg false s index v⟩⟩
  -- a locked entry is implemented: the bytes beyond are clear
  have hj : j < cfg.numRegs := by
    by_contra hj
    rw [hlegal.beyond j (by omega)] at hL
    exact Bool.false_ne_true hL
  exact run_lockedTOR cfg hops hj hL htor

/-- After a reset, an RV64 write of `pmpcfg0` of `0x8F` locks entry 0 as a
`TOR` region with full access; the guarantees then hold of that entry. -/
theorem pmp_register_guarantees_after_reset :
    (PmpRegisterGuarantees ⟨16, 2, 34, false, 0, 32, true⟩
      (pmpStep ⟨16, 2, 34, false, 0, 32, true⟩
        (riscvVMResetPMP ⟨16, 2, 34, false, 0, 32, true⟩ (pmpNew ⟨16, 2, 34, false, 0, 32, true⟩))
        (.writeCfg false true 0 0x8F))) ∧
      ((pmpStep ⟨16, 2, 34, false, 0, 32, true⟩
        (riscvVMResetPMP ⟨16, 2, 34, false, 0, 32, true⟩ (pmpNew ⟨16, 2, 34, false, 0, 32, true⟩))
        (.writeCfg false true 0 0x8F)).pmpcfg 0).L = true ∧
      ((pmpStep ⟨16, 2, 34, false, 0, 32, true⟩
        (riscvVMResetPMP ⟨16, 2, 34, false, 0, 32, true⟩ (pmpNew ⟨16, 2, 34, false, 0, 32, true⟩))
        (.writeCfg false true 0 0x8F)).pmpcfg 0).mode = .tor := by
  have h₀ : PmpReachable ⟨16, 2, 34, false, 0, 32, true⟩
      (riscvVMResetPMP ⟨16, 2, 34, false, 0, 32, true⟩ (pmpNew ⟨16, 2, 34, false, 0, 32, true⟩)) :=
    StepSystem.Reachable.of_init ⟨_, fun _ _ => rfl, rfl⟩
  refine ⟨pmp_register_guarantees _ ⟨by decide, by decide⟩
    (StepSystem.Reachable.of_step h₀ (a := .writeCfg false true 0 0x8F) ⟨rfl, fun _ => rfl⟩),
    by decide, by decide⟩

end RiscvOvpsim
