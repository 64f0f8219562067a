import RiscvOvpsim.Clic.Cache
import RiscvOvpsim.Interrupt.Arbiter

/-!
The interrupt an internal CLIC selects, and when the hart takes it
(`riscvCLIC.c`: `riscvRefreshPendingAndEnabledInternalCLIC`, `cliccfgW`;
`riscvExceptions.c`: `PRESENT_INT_CLIC`, `refreshPendingAndEnabledCLIC`,
`riscvRefreshPendingAndEnabled`).

The scan of `clic.ipe` keeps the interrupt of greatest rank `mode << 8 |
clicintctl`, the later one on a tie.  The scan visits the interrupts in
increasing order, so this is the greatest triple of mode, `clicintctl` and
number, compared lexicographically.  The hart then takes that interrupt in
place of the basic selection when its mode is at least the basic selection's
and the current mode, and the mode's enable, level and threshold let it.

* `ipeIndices`: the interrupts the scan visits, in increasing order;
  `scanCLICPendingEnabled_eq`: the scan is an `ArgMax` scan over them by rank
  and number;
* `ClicRanksBelow`, `IsClicSelection`: what the selection must be;
  `riscvRefreshPendingAndEnabledInternalCLIC_spec`: it is;
* `ClicCfgLegal`: the clamps of `cliccfgW`; `run_clicCfgLegal`: every run of
  a cluster keeps them, so the level mask is the one the source means;
* `PendEnab`, `ClicLevels`, `refreshPendingAndEnabledCLIC`, `riscvPendEnab`:
  the interrupt to take; `isCLIC_riscvPendEnab_iff`: when it is the CLIC's.
-/

namespace RiscvOvpsim

/-- The selected interrupt's number is never `RV_NO_INT`. -/
lemma natCast_ne_RV_NO_INT (i : ℕ) : (i : Int) ≠ RV_NO_INT := by
  unfold RV_NO_INT
  omega

/-- The level of `riscvRefreshPendingAndEnabledInternalCLIC`, bit by bit:
keeping `clicintctl` under a mask and setting the bits outside it sets those
bits of `clicintctl`. -/
lemma and_not_or_not_not (c m : UInt8) : (c &&& ~~~m) ||| ~~~~~~m = c ||| m := by
  apply UInt8.toBitVec_inj.mp
  apply BitVec.eq_of_getLsbD_eq
  intro i hi
  simp only [UInt8.toBitVec_or, UInt8.toBitVec_and, UInt8.toBitVec_not, BitVec.getLsbD_or,
    BitVec.getLsbD_and, BitVec.getLsbD_not, hi, decide_true, Bool.true_and]
  cases c.toBitVec.getLsbD i <;> cases m.toBitVec.getLsbD i <;> rfl

/-- The level for `nlbits = n`: the `8 - n` low bits of `clicintctl` read as
one. -/
lemma toNat_clicLevel (c : UInt8) (n : ℕ) :
    ((c &&& ~~~(UInt8.ofNat (2 ^ (8 - n) - 1))) ||| ~~~~~~(UInt8.ofNat (2 ^ (8 - n) - 1))).toNat =
      c.toNat ||| (2 ^ (8 - n) - 1) := by
  have hle : 2 ^ (8 - n) ≤ 2 ^ 8 := Nat.pow_le_pow_right (by norm_num) (Nat.sub_le 8 n)
  have hm : (UInt8.ofNat (2 ^ (8 - n) - 1)).toNat = 2 ^ (8 - n) - 1 := by
    rw [UInt8.toNat_ofNat', Nat.mod_eq_of_lt (by omega)]
  rw [and_not_or_not_not, UInt8.toNat_or, hm]

namespace IntHart

section Selection

variable (h : IntHart) (cfg : ClicConfig) (cliccfg : UInt64)

/-! ### The scan -/

/-- The interrupts the scan of `clic.ipe` visits: the set bits of each word,
word by word, from bit 0 up. -/
def ipeIndices : List ℕ :=
  (List.range cfg.ipDWords).flatMap fun w => (h.ipe w).toNat.bitIndices.map (· + w * 64)

/-- The scan visits exactly the pending-and-enabled interrupts of the words
of `clic.ipe`. -/
lemma mem_ipeIndices (i : ℕ) :
    i ∈ h.ipeIndices cfg ↔ i < cfg.ipDWords * 64 ∧ h.getCLICPendingEnable i = true := by
  simp only [ipeIndices, List.mem_flatMap, List.mem_range, List.mem_map, Nat.mem_bitIndices,
    getCLICPendingEnable, Bitmap.get_eq_testBit]
  constructor
  · rintro ⟨w, hw, b, hb, rfl⟩
    have hb64 := UInt64.lt_of_testBit_toNat _ hb
    have hdiv : (b + w * 64) / 64 = w := by omega
    have hmod : (b + w * 64) % 64 = b := by omega
    refine ⟨by omega, ?_⟩
    rwa [hdiv, hmod]
  · rintro ⟨hi, hb⟩
    exact ⟨i / 64, by omega, i % 64, hb, by omega⟩

/-- The scan visits the interrupts in increasing order: each word from bit 0
up, and the words in turn. -/
lemma pairwise_ipeIndices : (h.ipeIndices cfg).Pairwise (· < ·) := by
  rw [ipeIndices, List.pairwise_flatMap]
  refine ⟨fun w _ => ?_, ?_⟩
  · rw [List.pairwise_map]
    exact Nat.bitIndices_sorted.pairwise.imp fun hab => by omega
  · refine List.pairwise_lt_range.imp fun {w w'} hww' => ?_
    intro x hx y hy
    simp only [List.mem_map, Nat.mem_bitIndices] at hx hy
    obtain ⟨b, hb, rfl⟩ := hx
    obtain ⟨b', -, rfl⟩ := hy
    have hb64 := UInt64.lt_of_testBit_toNat _ hb
    omega

/-- The scan word by word is one scan over `ipeIndices`: the loop over the
set bits of a word is a fold over them (`BitScan.loop_eq_foldl`), and a word
with none adds nothing. -/
lemma scanCLICPendingEnabled_eq_foldl :
    h.scanCLICPendingEnabled cfg cliccfg =
      (h.ipeIndices cfg).foldl (h.updateCLICSelected cfg cliccfg) (0, RV_NO_INT) := by
  rw [scanCLICPendingEnabled, ipeIndices, List.foldl_flatMap]
  congr 1
  funext acc w
  dsimp only
  split_ifs with hpe
  · exact BitScan.loop_eq_foldl _ 64 _ _ _ (h.ipe w).toNat_lt
  · rw [not_not.mp hpe]
    rfl

/-- The scan's running pair for a selection: the rank of the selected
interrupt and its number, or rank 0 and `RV_NO_INT`. -/
def selPair : Option ℕ → ℕ × Int
  | none => (0, RV_NO_INT)
  | some i => (h.clicRank cfg cliccfg i, i)

/-- The scan's step is the step of an `ArgMax` scan by rank: an empty
selection has rank 0, which every interrupt reaches. -/
lemma updateCLICSelected_selPair (o : Option ℕ) (i : ℕ) :
    h.updateCLICSelected cfg cliccfg (h.selPair cfg cliccfg o) i =
      h.selPair cfg cliccfg (ArgMax.step (h.clicRank cfg cliccfg) o i) := by
  cases o with
  | none => simp [updateCLICSelected, selPair, ArgMax.step]
  | some s =>
      dsimp only [updateCLICSelected, selPair, ArgMax.step]
      split_ifs <;> rfl

/-- **The scan is an `ArgMax` scan** of the pending-and-enabled interrupts by
rank and then number. -/
theorem scanCLICPendingEnabled_eq :
    h.scanCLICPendingEnabled cfg cliccfg = h.selPair cfg cliccfg
      ((h.ipeIndices cfg).foldl (ArgMax.step fun i => toLex (h.clicRank cfg cliccfg i, i)) none) := by
  rw [scanCLICPendingEnabled_eq_foldl,
    ← ArgMax.foldl_step_lex (h.pairwise_ipeIndices cfg) fun s hs => absurd hs (Option.not_mem_none s)]
  rw [show ((0, RV_NO_INT) : ℕ × Int) = h.selPair cfg cliccfg none from rfl]
  exact List.foldl_hom (h.selPair cfg cliccfg) (h.updateCLICSelected_selPair cfg cliccfg)

/-! ### The ranking -/

/-- The rank packs the mode above `clicintctl`. -/
lemma clicRank_eq (i : ℕ) :
    h.clicRank cfg cliccfg i =
      (h.getCLICInterruptMode cfg cliccfg i).toNat * 256 + (h.intState i .clicintctl).toNat := by
  rw [clicRank, ← Nat.shiftLeft_add_eq_or_of_lt (h.intState i .clicintctl).toNat_lt, Nat.shiftLeft_eq]

/-- Interrupt `j` does not outrank interrupt `i`: its mode is lower, or the
mode is the same and its `clicintctl` lower, or both are the same and its
number is not greater. -/
def ClicRanksBelow (j i : ℕ) : Prop :=
  h.getCLICInterruptMode cfg cliccfg j < h.getCLICInterruptMode cfg cliccfg i ∨
    h.getCLICInterruptMode cfg cliccfg j = h.getCLICInterruptMode cfg cliccfg i ∧
      (h.intState j .clicintctl < h.intState i .clicintctl ∨
        h.intState j .clicintctl = h.intState i .clicintctl ∧ j ≤ i)

instance (j i : ℕ) : Decidable (h.ClicRanksBelow cfg cliccfg j i) :=
  inferInstanceAs (Decidable (_ ∨ _ ∧ (_ ∨ _ ∧ _)))

/-- Rank then number, compared lexicographically, is the ranking: `clicintctl`
fills the eight bits below the mode. -/
lemma toLex_clicRank_le_iff (j i : ℕ) :
    toLex (h.clicRank cfg cliccfg j, j) ≤ toLex (h.clicRank cfg cliccfg i, i) ↔
      h.ClicRanksBelow cfg cliccfg j i := by
  rw [Prod.Lex.toLex_le_toLex, clicRank_eq, clicRank_eq, ClicRanksBelow, RiscvMode.lt_iff_toNat_lt,
    ← RiscvMode.toNat_injective.eq_iff, UInt8.lt_iff_toNat_lt, ← UInt8.toNat_inj]
  have hj := (h.intState j .clicintctl).toNat_lt
  have hi := (h.intState i .clicintctl).toNat_lt
  dsimp only
  omega

/-! ### The selection -/

/-- **What the CLIC must select**: no interrupt when none of `clic.ipe` is
pending and enabled; otherwise one that is, which every other one ranks
below, with its mode, its `clicintctl` with the `8 - nlbits` low bits set,
and its `clicintattr.shv`. -/
def IsClicSelection (sel : ClicSel) : Prop :=
  (sel.id = RV_NO_INT ∧ ∀ i < cfg.ipDWords * 64, h.getCLICPendingEnable i = false) ∨
    ∃ i < cfg.ipDWords * 64, sel.id = i ∧ h.getCLICPendingEnable i = true ∧
      (∀ j < cfg.ipDWords * 64, h.getCLICPendingEnable j = true → h.ClicRanksBelow cfg cliccfg j i) ∧
      sel.priv = h.getCLICInterruptMode cfg cliccfg i ∧
      sel.level.toNat = (h.intState i .clicintctl).toNat ||| (2 ^ (8 - Cliccfg.nlbits.get cliccfg) - 1) ∧
      sel.shv = decide (Clicintattr.shv.get (h.intState i .clicintattr).toUInt64 ≠ 0)

/-- **The CLIC selects the ranked maximum.** -/
theorem riscvRefreshPendingAndEnabledInternalCLIC_spec :
    h.IsClicSelection cfg cliccfg (h.riscvRefreshPendingAndEnabledInternalCLIC cfg cliccfg) := by
  unfold riscvRefreshPendingAndEnabledInternalCLIC
  rw [scanCLICPendingEnabled_eq]
  cases ho : (h.ipeIndices cfg).foldl (ArgMax.step fun i => toLex (h.clicRank cfg cliccfg i, i)) none with
  | none =>
      -- nothing selected: the scan saw no interrupt
      have hnil : h.ipeIndices cfg = [] := by
        have hsome := @ArgMax.foldl_step_isSome _ _ _
          (fun i => toLex (h.clicRank cfg cliccfg i, i)) none (h.ipeIndices cfg)
        simpa [ho] using hsome
      refine Or.inl ⟨rfl, fun i hi => ?_⟩
      by_contra hpe
      have hmem := (h.mem_ipeIndices cfg i).mpr ⟨hi, by simpa using hpe⟩
      rw [hnil] at hmem
      exact List.not_mem_nil hmem
  | some i =>
      have hmem : i ∈ h.ipeIndices cfg := (ArgMax.foldl_step_mem ho).resolve_left (by simp)
      have hmax := (ArgMax.le_foldl_step ho).2
      obtain ⟨hi, hpe⟩ := (h.mem_ipeIndices cfg i).mp hmem
      rw [selPair, if_pos (natCast_ne_RV_NO_INT i)]
      refine Or.inr ⟨i, hi, rfl, hpe, fun j hj hpej => ?_, rfl, toNat_clicLevel _ _, rfl⟩
      exact (h.toLex_clicRank_le_iff cfg cliccfg j i).mp
        (hmax j ((h.mem_ipeIndices cfg j).mpr ⟨hj, hpej⟩))

/-- The CLIC selects nothing exactly when no interrupt of `clic.ipe` is
pending and enabled. -/
lemma riscvRefreshPendingAndEnabledInternalCLIC_id_eq_iff :
    (h.riscvRefreshPendingAndEnabledInternalCLIC cfg cliccfg).id = RV_NO_INT ↔
      ∀ i < cfg.ipDWords * 64, h.getCLICPendingEnable i = false := by
  rcases h.riscvRefreshPendingAndEnabledInternalCLIC_spec cfg cliccfg with ⟨hid, hnone⟩ | ⟨i, hi, hid, hpe, -⟩
  · exact ⟨fun _ => hnone, fun _ => hid⟩
  · rw [hid]
    exact ⟨fun hno => absurd hno (natCast_ne_RV_NO_INT i), fun hall => absurd (hall i hi) (by simp [hpe])⟩

end Selection

end IntHart

/-! ### `cliccfg` -/

/-- The clamps of `cliccfgW`: `nmbits` at most `CLICCFGMBITS` and `nlbits`
at most 8, so that the shift `1 << (8 - nlbits)` of the level mask is
defined. -/
def ClicCfgLegal (cfg : ClicConfig) (cliccfg : UInt64) : Prop :=
  Cliccfg.nmbits.get cliccfg ≤ cfg.CLICCFGMBITS ∧ Cliccfg.nlbits.get cliccfg ≤ 8

section CfgLegal

variable (cfg : ClicConfig)

/-- `cliccfgW` leaves a legal value, whether it writes it or finds it
there. -/
lemma cliccfgW_clicCfgLegal (c : Clic) (v : UInt8) : ClicCfgLegal cfg (c.cliccfgW cfg v).cliccfg := by
  have hnl : Cliccfg.nlbits.Disjoint Cliccfg.nmbits := by decide
  have hvm : Cliccfg.nvbits.Disjoint Cliccfg.nmbits := by decide
  have hvl : Cliccfg.nvbits.Disjoint Cliccfg.nlbits := by decide
  unfold Clic.cliccfgW
  extract_lets x₀ x₁ x₂ x₃ x₄
  -- the value computed: setting `nvbits` and clamping `nlbits` leave the clamped `nmbits`
  have hx : ClicCfgLegal cfg x₄ :=
    ⟨(BitField.get_set_of_disjoint hvm x₃ _).trans_le
        ((BitField.get_ite_set_of_disjoint hnl _ x₂ 8).trans_le (BitField.get_clamp_le x₁ _)),
      (BitField.get_set_of_disjoint hvl x₃ _).trans_le (BitField.get_clamp_le x₂ 8)⟩
  split_ifs with hne
  · exact hx
  · rwa [not_not.mp hne]

/-- A write of an interrupt's fields leaves `cliccfg`. -/
lemma writeCLICInterrupt_cliccfg (c : Clic) (offset : ℕ) (v : UInt8) :
    (c.writeCLICInterrupt cfg offset v).cliccfg = c.cliccfg := by
  unfold Clic.writeCLICInterrupt
  split_ifs <;> rfl

/-- One operation keeps `cliccfg` legal: only a write of `cliccfg` changes
it. -/
lemma clicStep_clicCfgLegal {c : Clic} (hc : ClicCfgLegal cfg c.cliccfg) (op : ClicOp) :
    ClicCfgLegal cfg (clicStep cfg c op).cliccfg := by
  cases op with
  | input k i v => exact hc
  | ack k i => exact hc
  | write offset v =>
      show ClicCfgLegal cfg (c.writeCLICInt cfg offset v).cliccfg
      unfold Clic.writeCLICInt
      split_ifs
      · rwa [writeCLICInterrupt_cliccfg]
      · exact cliccfgW_clicCfgLegal cfg c v
      · exact hc

/-- **Every run of a new cluster keeps `cliccfg` legal.** -/
theorem run_clicCfgLegal (harts : ℕ → IntHart) (ops : List ClicOp) :
    ClicCfgLegal cfg (StepSystem.run (clicStep cfg) (clicNew cfg harts) ops).cliccfg := by
  have h₀ : ClicCfgLegal cfg (clicNew cfg harts).cliccfg := by
    have hvm : Cliccfg.nvbits.Disjoint Cliccfg.nmbits := by decide
    have hvl : Cliccfg.nvbits.Disjoint Cliccfg.nlbits := by decide
    refine ⟨?_, ?_⟩
    · rw [clicNew, BitField.get_set_of_disjoint hvm]
      simp [BitField.get]
    · rw [clicNew, BitField.get_set_of_disjoint hvl]
      simp [BitField.get]
  exact @StepSystem.run_invariant _ _ (clicStep cfg) (fun _ => True) (fun c => ClicCfgLegal cfg c.cliccfg)
    (fun _ op _ hc => clicStep_clicCfgLegal cfg hc op) _ _ h₀ (fun _ _ => trivial)

end CfgLegal

/-! ### Presenting the selection to the hart -/

/-- `riscvPendEnab`: the interrupt the hart takes next, its mode and level,
and whether the CLIC presents it. -/
structure PendEnab where
  id : Int
  priv : RiscvMode
  level : UInt8
  isCLIC : Bool
  deriving DecidableEq, Repr

/-- The interrupt levels `mintstatus.mil`, `sil`, `uil` and the thresholds
`mintthresh.th`, `sintthresh.th`, `uintthresh.th`. -/
structure ClicLevels where
  mil : UInt8
  sil : UInt8
  uil : UInt8
  mth : UInt8
  sth : UInt8
  uth : UInt8
  deriving DecidableEq, Repr

namespace ClicLevels

/-- The level of a mode in `mintstatus`. -/
def xil (lv : ClicLevels) : RiscvMode → UInt8
  | .machine => lv.mil
  | .supervisor => lv.sil
  | .user => lv.uil
  | .hypervisor => 0

/-- The threshold `xintthresh.th` of a mode. -/
def th (lv : ClicLevels) : RiscvMode → UInt8
  | .machine => lv.mth
  | .supervisor => lv.sth
  | .user => lv.uth
  | .hypervisor => 0

end ClicLevels

/-- `PRESENT_INT_CLIC` for an interrupt of mode `X` at `level` in the current
mode `mode`: mode `X` takes its interrupts from the CLIC and has them enabled,
and the current mode is lower or the level is above both the mode's level and
its threshold. -/
def presentIntCLIC (useCLIC xIE : Bool) (X : RiscvMode) (xil th level : UInt8) (mode : RiscvMode) :
    Bool :=
  useCLIC && xIE && (decide (mode < X) || decide (xil < level) && decide (th < level))

/-- The test `enable` of `refreshPendingAndEnabledCLIC` on the CLIC's
interrupt `sel` against a basic selection of mode `basicPriv`: not when that
mode is higher, not when the current mode is, and otherwise
`PRESENT_INT_CLIC` of the interrupt's mode.  A Hypervisor-mode interrupt
stops the simulator (`VMI_ABORT`); here it is not presented. -/
def clicEnable (s : BasicIntState) (lv : ClicLevels) (basicPriv : RiscvMode) (sel : ClicSel) : Bool :=
  if sel.priv < basicPriv then false
  else if sel.priv < s.mode then false
  else
    match sel.priv with
    | .machine => presentIntCLIC s.useCLICM s.MIE .machine lv.mil lv.mth sel.level s.mode
    | .supervisor => presentIntCLIC s.useCLICS s.SIE .supervisor lv.sil lv.sth sel.level s.mode
    | .user => presentIntCLIC s.useCLICU s.UIE .user lv.uil lv.uth sel.level s.mode
    | .hypervisor => false

/-- `refreshPendingAndEnabledCLIC`, after the refresh of the selection: the
CLIC's interrupt replaces `pendEnab` when it is pending and presented. -/
def refreshPendingAndEnabledCLIC (s : BasicIntState) (lv : ClicLevels) (h : IntHart)
    (pendEnab : PendEnab) : PendEnab :=
  if h.getPendingCLIC then
    if clicEnable s lv pendEnab.priv h.sel then ⟨h.sel.id, h.sel.priv, h.sel.level, true⟩
    else pendEnab
  else pendEnab

/-- The `pendEnab` the basic selection leaves: nothing, or the interrupt and
its destination. -/
def basicPendEnab : Option IntCand → PendEnab
  | none => ⟨RV_NO_INT, .user, 0, false⟩
  | some c => ⟨c.id, c.priv, 0, false⟩

/-- `riscvRefreshPendingAndEnabled`, for the `pendEnab` it computes: cleared,
then the basic selection when there is a basic controller, then the CLIC's
when there is a CLIC, on the selection an internal CLIC refreshed
(`IntHart.riscvRefreshPendingAndEnabled`). -/
def IntHart.riscvPendEnab (h : IntHart) (cfg : ClicConfig) (cliccfg : UInt64) (extPri : ℕ → ℕ)
    (s : BasicIntState) (lv : ClicLevels) : PendEnab :=
  let pendEnab :=
    basicPendEnab (if cfg.basicICPresent then refreshPendingAndEnabledBasic extPri s else none)
  if cfg.CLICPresent then
    refreshPendingAndEnabledCLIC s lv (h.riscvRefreshPendingAndEnabled cfg cliccfg) pendEnab
  else pendEnab

/-- When the hart takes the CLIC's interrupt `sel` over a basic selection of
mode `basicPriv`: the interrupt's mode is at least that and the current mode,
takes its interrupts from the CLIC with its enable set, and is above the
current mode or has a level above the mode's level and threshold. -/
def ClicPresents (s : BasicIntState) (lv : ClicLevels) (basicPriv : RiscvMode) (sel : ClicSel) :
    Prop :=
  basicPriv ≤ sel.priv ∧ s.mode ≤ sel.priv ∧ s.useCLIC sel.priv = true ∧ s.xIE sel.priv = true ∧
    (s.mode < sel.priv ∨ lv.xil sel.priv < sel.level ∧ lv.th sel.priv < sel.level)

section Present

variable (s : BasicIntState) (lv : ClicLevels)

lemma presentIntCLIC_eq_true_iff {useCLIC xIE : Bool} {X : RiscvMode} {xil th level : UInt8}
    {mode : RiscvMode} :
    presentIntCLIC useCLIC xIE X xil th level mode = true ↔
      useCLIC = true ∧ xIE = true ∧ (mode < X ∨ xil < level ∧ th < level) := by
  simp [presentIntCLIC, and_assoc]

/-- Past the two mode tests, the match on the interrupt's mode is
`PRESENT_INT_CLIC` of that mode, with its enable, level and threshold. -/
lemma clicEnable_of_le {b : RiscvMode} {sel : ClicSel} (hb : b ≤ sel.priv) (hm : s.mode ≤ sel.priv) :
    clicEnable s lv b sel = presentIntCLIC (s.useCLIC sel.priv) (s.xIE sel.priv) sel.priv
      (lv.xil sel.priv) (lv.th sel.priv) sel.level s.mode := by
  unfold clicEnable
  rw [if_neg (not_lt.mpr hb), if_neg (not_lt.mpr hm)]
  obtain ⟨priv, id, level, shv⟩ := sel
  cases priv <;> rfl

lemma clicEnable_eq_true_iff (b : RiscvMode) (sel : ClicSel) :
    clicEnable s lv b sel = true ↔ ClicPresents s lv b sel := by
  by_cases hb : b ≤ sel.priv
  · by_cases hm : s.mode ≤ sel.priv
    · rw [clicEnable_of_le s lv hb hm, presentIntCLIC_eq_true_iff, ClicPresents]
      simp [hb, hm]
    · unfold clicEnable
      rw [if_neg (not_lt.mpr hb), if_pos (not_le.mp hm)]
      simp [ClicPresents, hm]
  · unfold clicEnable
    rw [if_pos (not_le.mp hb)]
    simp [ClicPresents, hb]

lemma basicPendEnab_isCLIC (o : Option IntCand) : (basicPendEnab o).isCLIC = false := by
  cases o <;> rfl

/-- Over a `pendEnab` not from the CLIC, the CLIC's interrupt is taken when
it is pending and presented. -/
lemma isCLIC_refreshPendingAndEnabledCLIC (h : IntHart) {pe : PendEnab} (hpe : pe.isCLIC = false) :
    (refreshPendingAndEnabledCLIC s lv h pe).isCLIC = true ↔
      h.getPendingCLIC = true ∧ ClicPresents s lv pe.priv h.sel := by
  rw [← clicEnable_eq_true_iff]
  unfold refreshPendingAndEnabledCLIC
  by_cases hp : h.getPendingCLIC = true
  · by_cases he : clicEnable s lv pe.priv h.sel = true
    · simp [hp, he]
    · simp [hp, he, hpe]
  · simp [hp, hpe]

/-- **When the hart takes the CLIC's interrupt**: with a CLIC, when the
refreshed selection is pending in CLIC mode and presented over the basic
selection. -/
theorem isCLIC_riscvPendEnab_iff (h : IntHart) (cfg : ClicConfig) (cliccfg : UInt64)
    (extPri : ℕ → ℕ) :
    (h.riscvPendEnab cfg cliccfg extPri s lv).isCLIC = true ↔
      cfg.CLICPresent = true ∧ (h.riscvRefreshPendingAndEnabled cfg cliccfg).getPendingCLIC = true ∧
        ClicPresents s lv
          (basicPendEnab (if cfg.basicICPresent then refreshPendingAndEnabledBasic extPri s else none)).priv
          (h.riscvRefreshPendingAndEnabled cfg cliccfg).sel := by
  unfold IntHart.riscvPendEnab
  by_cases hc : cfg.CLICPresent = true
  · rw [if_pos hc, isCLIC_refreshPendingAndEnabledCLIC s lv _ (basicPendEnab_isCLIC _)]
    simp [hc]
  · rw [if_neg hc, basicPendEnab_isCLIC]
    simp [hc]

end Present

/-- An internal CLIC's refresh puts its selection in `clic.sel`. -/
lemma riscvRefreshPendingAndEnabled_of_CLICInternal (h : IntHart) {cfg : ClicConfig}
    (hI : cfg.CLICInternal = true) (cliccfg : UInt64) :
    h.riscvRefreshPendingAndEnabled cfg cliccfg =
      { h with sel := h.riscvRefreshPendingAndEnabledInternalCLIC cfg cliccfg } := by
  rw [IntHart.riscvRefreshPendingAndEnabled, if_pos hI]

lemma CLICPresent_of_CLICInternal {cfg : ClicConfig} (hI : cfg.CLICInternal = true) :
    cfg.CLICPresent = true := by
  unfold ClicConfig.CLICInternal at hI
  simp only [Bool.and_eq_true] at hI
  exact hI.1

/-- **An internal CLIC selects the ranked maximum, and the hart takes it only
when the modes, the enable, the level and the threshold let it.**  In every
cluster a run reaches, `cliccfg` has `nlbits` at most 8; for every hart, the
CLIC selects nothing exactly when no interrupt of `clic.ipe` is pending and
enabled, otherwise the pending-and-enabled interrupt of greatest mode, then
`clicintctl`, then number, with its mode, its `clicintctl` with the
`8 - nlbits` low bits set, and its `shv`; and the hart takes it exactly when
it is pending in CLIC mode and presented over the basic selection. -/
theorem clic_selection_ranked_maximum (cfg : ClicConfig) (hI : cfg.CLICInternal = true)
    (harts : ℕ → IntHart) (ops : List ClicOp) (h : IntHart) (extPri : ℕ → ℕ) (s : BasicIntState)
    (lv : ClicLevels) :
    let cliccfg := (StepSystem.run (clicStep cfg) (clicNew cfg harts) ops).cliccfg
    let sel := h.riscvRefreshPendingAndEnabledInternalCLIC cfg cliccfg
    let basic := if cfg.basicICPresent then refreshPendingAndEnabledBasic extPri s else none
    Cliccfg.nlbits.get cliccfg ≤ 8 ∧
      (sel.id = RV_NO_INT ↔ ∀ i < cfg.ipDWords * 64, h.getCLICPendingEnable i = false) ∧
      h.IsClicSelection cfg cliccfg sel ∧
      ((h.riscvPendEnab cfg cliccfg extPri s lv).isCLIC = true ↔
        h.enableCLIC = true ∧ sel.id ≠ RV_NO_INT ∧ ClicPresents s lv (basicPendEnab basic).priv sel) := by
  intro cliccfg sel basic
  refine ⟨(run_clicCfgLegal cfg harts ops).2, h.riscvRefreshPendingAndEnabledInternalCLIC_id_eq_iff cfg cliccfg,
    h.riscvRefreshPendingAndEnabledInternalCLIC_spec cfg cliccfg, ?_⟩
  -- the refreshed hart holds the selection, and is pending in CLIC mode when it selected one
  rw [isCLIC_riscvPendEnab_iff, riscvRefreshPendingAndEnabled_of_CLICInternal h hI]
  simp [CLICPresent_of_CLICInternal hI, IntHart.getPendingCLIC, sel, basic, and_assoc]

/-- The single hart of a cluster with an internal CLIC and 49 local
interrupts, with interrupts 7 and 11 pending and enabled, in User mode. -/
theorem clic_selection_ranked_maximum_two_pending :
    let cfg : ClicConfig := ⟨1, 49, 256, false, false, 0, false, 8, 0, false, 0⟩
    let hart : IntHart :=
      ⟨0, 0, 0, fun _ => 0, fun _ _ => 0, fun w => if w = 0 then 0x880 else 0, ⟨.user, -1, 0, false⟩,
        true, false, false⟩
    let s : BasicIntState := ⟨.user, 0, 0, 0, 0, false, false, false, true, true, true⟩
    let lv : ClicLevels := ⟨0, 0, 0, 0, 0, 0⟩
    let cliccfg := (StepSystem.run (clicStep cfg) (clicNew cfg fun _ => hart) []).cliccfg
    let sel := hart.riscvRefreshPendingAndEnabledInternalCLIC cfg cliccfg
    let basic := if cfg.basicICPresent then refreshPendingAndEnabledBasic (fun _ => 0) s else none
    cfg.CLICInternal = true ∧
      Cliccfg.nlbits.get cliccfg ≤ 8 ∧
      (sel.id = RV_NO_INT ↔ ∀ i < cfg.ipDWords * 64, hart.getCLICPendingEnable i = false) ∧
      hart.IsClicSelection cfg cliccfg sel ∧
      ((hart.riscvPendEnab cfg cliccfg (fun _ => 0) s lv).isCLIC = true ↔
        hart.enableCLIC = true ∧ sel.id ≠ RV_NO_INT ∧ ClicPresents s lv (basicPendEnab basic).priv sel) :=
  ⟨rfl, clic_selection_ranked_maximum _ rfl _ [] _ (fun _ => 0) _ _⟩

end RiscvOvpsim
