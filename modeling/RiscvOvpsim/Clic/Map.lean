import RiscvOvpsim.Clic.Write
import RiscvOvpsim.Lib.StepSystem

/-!
The memory map of a cluster's CLIC (`riscvCLIC.c`: `getCLICPage`,
`getCLICPageType`, `getCLICHartIndex`, `accessCLICInterrupt`,
`readCLICInterrupt`, `writeCLICInterrupt`, `cliccfgW`, `readCLICInt`,
`writeCLICInt`, `riscvMapCLICDomain`).

Page 0 holds `cliccfg` and `clicinfo`.  Then come, for Machine, Supervisor and
User mode in turn, four pages of interrupt words for each hart; the word of
interrupt `i` holds its four fields, byte by byte.  An interrupt is visible
through a page when it is implemented and its mode is at most the page's.

* `clicDecode`, `clicEncode`: an offset of the interrupt pages as a mode, a
  hart, an interrupt and a field, and back; `clicDecode_bijOn`: the decoding
  is a bijection onto the modes with pages, the harts, the 4096 interrupts of
  a page set and the four fields;
* `readCLICInt_eq`, `writeCLICInt_of_not_accessible`, `writeCLICInt_clicWrite`,
  `getCLICInterruptMode_writeCLICInt_le`: what a byte access reads and writes,
  and that a write keeps the interrupt visible through its page;
* `ClicStored`, `writeCLICInt_stored`: what a visible write leaves in the
  field it addresses;
* `ClicMapRouting`, `clic_memory_map`: all of it, for every configuration.
-/

namespace RiscvOvpsim

/-- `CLICPageType`. -/
inductive CLICPageType where
  | C
  | M
  | S
  | U
  deriving DecidableEq, Repr

/-! ### Decoding an offset -/

/-- `getCLICPage`. -/
def getCLICPage (offset : ℕ) : ℕ := offset / 4096

/-- `getCLICPageWord`. -/
def getCLICPageWord (offset : ℕ) : ℕ := offset % 4096 / 4

/-- `getCLICIntIndex`. -/
def getCLICIntIndex (offset : ℕ) : ℕ := (offset - 4096) / 4 % 4096

/-- `getCLICWordByte`. -/
def getCLICWordByte (offset : ℕ) : ℕ := offset % 4

/-- `getCLICIntFieldType`. -/
def getCLICIntFieldType (offset : ℕ) : CLICIntFieldType := .ofByte (getCLICWordByte offset)

/-- `get4kIntPage`: the set of four pages that holds a page. -/
def get4kIntPage (page : ℕ) : ℕ := (page - 1) / 4

section Decode

variable (cfg : ClicConfig)

/-- `getCLICPageType`: the control page, then the pages of each mode.  Past the
pages `riscvMapCLICDomain` maps the source asserts; no access reaches there,
and such an offset reads here as a User page. -/
def getCLICPageType (offset : ℕ) : CLICPageType :=
  let page := getCLICPage offset
  if page = 0 then .C
  else
    match get4kIntPage page / cfg.getNumHarts with
    | 0 => .M
    | 1 => .S
    | _ => .U

/-- `getCLICPageMode`; the table has no entry for the control page, whose slot
holds zero, User mode. -/
def getCLICPageMode (offset : ℕ) : RiscvMode :=
  match getCLICPageType cfg offset with
  | .M => .machine
  | .S => .supervisor
  | .U => .user
  | .C => .user

/-- `getCLICHartIndex`, for an interrupt page (the source asserts that it is
one). -/
def getCLICHartIndex (offset : ℕ) : ℕ := get4kIntPage (getCLICPage offset) % cfg.getNumHarts

/-- `riscvMapCLICDomain`: the bytes mapped, the control page and twelve pages
per hart. -/
def clicMappedBytes : ℕ := (1 + cfg.getNumHarts * 3 * 4) * 4096

end Decode

/-! ### Accesses -/

/-- `clicinfo`, as `riscvNewCLIC` fills it. -/
def ClicConfig.clicinfo (cfg : ClicConfig) : UInt64 :=
  Clicinfo.CLICINTCTLBITS.set (Clicinfo.version.set (Clicinfo.num_interrupt.set 0 cfg.riscvGetIntNum)
    cfg.CLICVERSION) cfg.CLICINTCTLBITS

namespace Clic

variable (cfg : ClicConfig) (c : Clic)

/-- `getCLICHart`. -/
def getCLICHart (offset : ℕ) : IntHart := c.harts (getCLICHartIndex cfg offset)

/-- `accessCLICInterrupt`: an absent standard interrupt and an interrupt
beyond `num_interrupt` are invisible; any other is visible when its mode is at
most the page's. -/
def accessCLICInterrupt (offset : ℕ) : Bool :=
  let hart := c.getCLICHart cfg offset
  let intIndex := getCLICIntIndex offset
  if intIndex < 16 && !cfg.riscvHasInterrupt intIndex then false
  else if intIndex < cfg.getIntNum then
    decide (hart.getCLICInterruptMode cfg c.cliccfg intIndex ≤ getCLICPageMode cfg offset)
  else false

/-- `readCLICInterrupt`: the pending value for `clicintip`, the word of the
interrupt for the other fields. -/
def readCLICInterrupt (offset : ℕ) : UInt32 :=
  if c.accessCLICInterrupt cfg offset then
    let hart := c.getCLICHart cfg offset
    let intIndex := getCLICIntIndex offset
    match getCLICIntFieldType offset with
    | .clicintip => if hart.getCLICInterruptPending intIndex then 1 else 0
    | _ => hart.getCLICInterruptValue intIndex
  else 0

/-- `writeCLICInterrupt`. -/
def writeCLICInterrupt (offset : ℕ) (newValue : UInt8) : Clic :=
  if c.accessCLICInterrupt cfg offset then
    let k := getCLICHartIndex cfg offset
    let hart := c.harts k
    let intIndex := getCLICIntIndex offset
    let hart :=
      match getCLICIntFieldType offset with
      | .clicintip => hart.writeCLICInterruptPending cfg c.cliccfg intIndex newValue true
      | .clicintie => hart.writeCLICInterruptEnable cfg c.cliccfg intIndex newValue
      | .clicintattr =>
          hart.writeCLICInterruptAttr cfg c.cliccfg intIndex newValue (getCLICPageMode cfg offset)
      | .clicintctl => hart.writeCLICInterruptCtl cfg c.cliccfg intIndex newValue
    { c with harts := Function.update c.harts k hart }
  else c

/-- `refreshCCLICInterruptAll`: every hart tests for interrupts. -/
def refreshCCLICInterruptAll : Clic :=
  { c with harts := fun k => (c.harts k).riscvTestInterrupt cfg c.cliccfg }

/-- `cliccfgW`: the reserved bits are cleared, `nmbits` and `nlbits` clamped,
`nvbits` is the configured one; a change refreshes every hart. -/
def cliccfgW (newValue : UInt8) : Clic :=
  let cliccfg := newValue.toUInt64
  let cliccfg := Cliccfg.u1.set cliccfg 0
  let cliccfg :=
    if cfg.CLICCFGMBITS < Cliccfg.nmbits.get cliccfg then Cliccfg.nmbits.set cliccfg cfg.CLICCFGMBITS
    else cliccfg
  let cliccfg := if 8 < Cliccfg.nlbits.get cliccfg then Cliccfg.nlbits.set cliccfg 8 else cliccfg
  let cliccfg := Cliccfg.nvbits.set cliccfg (if cfg.CLICSELHVEC then 1 else 0)
  if c.cliccfg ≠ cliccfg then ({ c with cliccfg := cliccfg } : Clic).refreshCCLICInterruptAll cfg
  else c

/-- `readCLICInt`: a byte of an interrupt word, of `cliccfg` or of
`clicinfo`. -/
def readCLICInt (offset : ℕ) : UInt8 :=
  let word := getCLICPageWord offset
  let byte := getCLICWordByte offset
  let result : UInt32 :=
    if getCLICPage offset ≠ 0 then c.readCLICInterrupt cfg offset
    else if word = 0 then c.cliccfg.toUInt32
    else if word = 1 then cfg.clicinfo.toUInt32
    else 0
  (result >>> UInt32.ofNat (byte * 8)).toUInt8

/-- `writeCLICInt`: a byte of an interrupt word, or `cliccfg`. -/
def writeCLICInt (offset : ℕ) (newValue : UInt8) : Clic :=
  if getCLICPage offset ≠ 0 then c.writeCLICInterrupt cfg offset newValue
  else if offset = 0 then c.cliccfgW cfg newValue
  else c

end Clic

/-! ### The decoding is a bijection -/

/-- The place of the pages of a mode among the interrupt pages. -/
def pageIndex : RiscvMode → ℕ
  | .machine => 0
  | .supervisor => 1
  | _ => 2

/-- The mode of the pages at a place. -/
def modeOfPageIndex : ℕ → RiscvMode
  | 0 => .machine
  | 1 => .supervisor
  | _ => .user

lemma modeOfPageIndex_pageIndex {P : RiscvMode} (hP : P ≠ .hypervisor) :
    modeOfPageIndex (pageIndex P) = P := by
  cases P
  · rfl
  · rfl
  · exact absurd rfl hP
  · rfl

lemma pageIndex_modeOfPageIndex {n : ℕ} (hn : n < 3) : pageIndex (modeOfPageIndex n) = n := by
  interval_cases n <;> rfl

lemma modeOfPageIndex_ne_hypervisor (n : ℕ) : modeOfPageIndex n ≠ .hypervisor := by
  unfold modeOfPageIndex
  split <;> decide

lemma pageIndex_le_two (P : RiscvMode) : pageIndex P ≤ 2 := by
  cases P <;> decide

lemma CLICIntFieldType.toByte_ofByte (b : ℕ) : (CLICIntFieldType.ofByte b).toByte = b % 4 := by
  have hb : b % 4 = 0 ∨ b % 4 = 1 ∨ b % 4 = 2 ∨ b % 4 = 3 := by omega
  rcases hb with hb | hb | hb | hb <;>
    simp [CLICIntFieldType.ofByte, CLICIntFieldType.toByte, hb]

section Routing

variable (cfg : ClicConfig)

/-- An offset of the interrupt pages as the mode of its page, the hart, the
interrupt and the field. -/
def clicDecode (offset : ℕ) : RiscvMode × ℕ × ℕ × CLICIntFieldType :=
  (getCLICPageMode cfg offset, getCLICHartIndex cfg offset, getCLICIntIndex offset,
    getCLICIntFieldType offset)

/-- The offset of field `f` of interrupt `i` of hart `k` on the pages of mode
`P`. -/
def clicEncode (x : RiscvMode × ℕ × ℕ × CLICIntFieldType) : ℕ :=
  4096 + ((pageIndex x.1 * cfg.getNumHarts + x.2.1) * 4096 + x.2.2.1) * 4 + x.2.2.2.toByte

/-- What the interrupt pages address: a mode with pages, a hart, one of 4096
interrupts and a field. -/
def clicTargets : Set (RiscvMode × ℕ × ℕ × CLICIntFieldType) :=
  {x | x.1 ≠ .hypervisor ∧ x.2.1 < cfg.getNumHarts ∧ x.2.2.1 < 4096}

/-- The set of four pages of an offset, counted from the first interrupt
page. -/
lemma get4kIntPage_getCLICPage {o : ℕ} (ho : 4096 ≤ o) :
    get4kIntPage (getCLICPage o) = (o - 4096) / 4 / 4096 := by
  unfold get4kIntPage getCLICPage
  omega

lemma getCLICPageMode_eq {o : ℕ} (ho : 4096 ≤ o) :
    getCLICPageMode cfg o = modeOfPageIndex ((o - 4096) / 4 / 4096 / cfg.getNumHarts) := by
  unfold getCLICPageMode getCLICPageType
  rw [if_neg (by unfold getCLICPage; omega), get4kIntPage_getCLICPage ho]
  generalize (o - 4096) / 4 / 4096 / cfg.getNumHarts = m
  rcases m with _ | _ | m <;> rfl

lemma getCLICHartIndex_eq {o : ℕ} (ho : 4096 ≤ o) :
    getCLICHartIndex cfg o = (o - 4096) / 4 / 4096 % cfg.getNumHarts := by
  rw [getCLICHartIndex, get4kIntPage_getCLICPage ho]

lemma getCLICPageMode_ne_hypervisor {o : ℕ} (ho : 4096 ≤ o) :
    getCLICPageMode cfg o ≠ .hypervisor := by
  rw [getCLICPageMode_eq cfg ho]
  exact modeOfPageIndex_ne_hypervisor _

lemma clicDecode_clicEncode {x : RiscvMode × ℕ × ℕ × CLICIntFieldType} (hx : x ∈ clicTargets cfg) :
    clicDecode cfg (clicEncode cfg x) = x := by
  obtain ⟨P, k, i, f⟩ := x
  obtain ⟨hP, hk, hi⟩ : P ≠ .hypervisor ∧ k < cfg.getNumHarts ∧ i < 4096 := hx
  have hn := cfg.getNumHarts_pos
  have hf := f.toByte_lt_four
  have ho : 4096 ≤ clicEncode cfg (P, k, i, f) := by unfold clicEncode; omega
  -- the set of four pages is the place of the mode's pages, then the hart
  have hq : (clicEncode cfg (P, k, i, f) - 4096) / 4 / 4096 = k + cfg.getNumHarts * pageIndex P := by
    unfold clicEncode
    dsimp only
    rw [show k + cfg.getNumHarts * pageIndex P = pageIndex P * cfg.getNumHarts + k by ring]
    generalize pageIndex P * cfg.getNumHarts + k = q
    omega
  simp only [clicDecode]
  refine Prod.ext ?_ (Prod.ext ?_ (Prod.ext ?_ ?_))
  · rw [getCLICPageMode_eq cfg ho, hq, Nat.add_mul_div_left _ _ hn, Nat.div_eq_of_lt hk, zero_add,
      modeOfPageIndex_pageIndex hP]
  · rw [getCLICHartIndex_eq cfg ho, hq, Nat.add_mul_mod_self_left, Nat.mod_eq_of_lt hk]
  · unfold getCLICIntIndex clicEncode
    dsimp only
    generalize pageIndex P * cfg.getNumHarts + k = q
    omega
  · have hb : getCLICWordByte (clicEncode cfg (P, k, i, f)) = f.toByte := by
      unfold getCLICWordByte clicEncode
      dsimp only
      omega
    show CLICIntFieldType.ofByte _ = f
    rw [hb, CLICIntFieldType.ofByte_toByte]

lemma clicEncode_clicDecode {o : ℕ} (ho : o ∈ Set.Ico 4096 (clicMappedBytes cfg)) :
    clicEncode cfg (clicDecode cfg o) = o := by
  obtain ⟨hlo, hhi⟩ := ho
  have hn := cfg.getNumHarts_pos
  unfold clicMappedBytes at hhi
  -- the set of four pages, and the place of its mode
  have hq3 : (o - 4096) / 4 / 4096 / cfg.getNumHarts < 3 := by
    rw [Nat.div_lt_iff_lt_mul hn]
    omega
  simp only [clicEncode, clicDecode]
  rw [getCLICPageMode_eq cfg hlo, getCLICHartIndex_eq cfg hlo, pageIndex_modeOfPageIndex hq3,
    Nat.div_add_mod', getCLICIntFieldType, CLICIntFieldType.toByte_ofByte]
  unfold getCLICIntIndex getCLICWordByte
  omega

lemma clicDecode_mem {o : ℕ} (ho : o ∈ Set.Ico 4096 (clicMappedBytes cfg)) :
    clicDecode cfg o ∈ clicTargets cfg := by
  refine ⟨getCLICPageMode_ne_hypervisor cfg ho.1, ?_, ?_⟩
  · rw [clicDecode, getCLICHartIndex_eq cfg ho.1]
    exact Nat.mod_lt _ cfg.getNumHarts_pos
  · exact Nat.mod_lt _ (by norm_num)

lemma clicEncode_mem {x : RiscvMode × ℕ × ℕ × CLICIntFieldType} (hx : x ∈ clicTargets cfg) :
    clicEncode cfg x ∈ Set.Ico 4096 (clicMappedBytes cfg) := by
  obtain ⟨P, k, i, f⟩ := x
  obtain ⟨-, hk, hi⟩ : P ≠ .hypervisor ∧ k < cfg.getNumHarts ∧ i < 4096 := hx
  have hf := f.toByte_lt_four
  have hq : pageIndex P * cfg.getNumHarts + k < 3 * cfg.getNumHarts := by
    have := Nat.mul_le_mul_right cfg.getNumHarts (pageIndex_le_two P)
    omega
  unfold clicEncode clicMappedBytes
  dsimp only
  generalize pageIndex P * cfg.getNumHarts + k = q at hq
  constructor <;> omega

/-- **The routing is exact**: the decoding of the interrupt pages is a
bijection onto the modes with pages, the harts, the interrupts and the
fields. -/
theorem clicDecode_bijOn :
    Set.BijOn (clicDecode cfg) (Set.Ico 4096 (clicMappedBytes cfg)) (clicTargets cfg) :=
  Set.InvOn.bijOn ⟨fun _ ho => clicEncode_clicDecode cfg ho, fun _ hx => clicDecode_clicEncode cfg hx⟩
    (fun _ ho => clicDecode_mem cfg ho) (fun _ hx => clicEncode_mem cfg hx)

end Routing

/-! ### Privilege -/

-- the mode field lies in the low byte of `clicintattr`
lemma Clicintattr.mode_get_toUInt8 (x : UInt64) :
    Clicintattr.mode.get x.toUInt8.toUInt64 = Clicintattr.mode.get x := by
  show x.toUInt8.toUInt64.toNat / 2 ^ 6 % 2 ^ 2 = x.toNat / 2 ^ 6 % 2 ^ 2
  rw [UInt8.toNat_toUInt64, UInt64.toNat_toUInt8]
  omega

namespace IntHart

variable (cfg : ClicConfig) (cliccfg : UInt64)

/-- The mode of an interrupt reads only its `clicintattr`. -/
lemma getCLICInterruptMode_congr {h h' : IntHart} {i : ℕ}
    (hs : h'.intState i .clicintattr = h.intState i .clicintattr) :
    h'.getCLICInterruptMode cfg cliccfg i = h.getCLICInterruptMode cfg cliccfg i := by
  unfold getCLICInterruptMode
  rw [hs]

/-- A mode field at most a page's mode, written where the old field gave a mode
at most the page's, gives a mode at most the page's. -/
lemma clicInterruptMode_le {P : RiscvMode} (hP : P ≠ .hypervisor) {m old : ℕ} (hm : m ≤ P.toNat)
    (hold : old < 4) (hprev : clicInterruptMode cfg cliccfg old ≤ P) :
    clicInterruptMode cfg cliccfg m ≤ P := by
  unfold clicInterruptMode at hprev ⊢
  dsimp only at hprev ⊢
  by_cases h0 : Cliccfg.nmbits.get cliccfg = 0
  · -- without mode bits every interrupt is a Machine-mode one, seen only on Machine pages
    rw [if_pos h0] at hprev ⊢
    exact hprev
  rw [if_neg h0] at hprev ⊢
  cases P with
  | machine => exact RiscvMode.le_machine _
  | hypervisor => exact absurd rfl hP
  | supervisor =>
      have hm1 : m ≤ 1 := hm
      by_cases h1 : cfg.CLICCFGMBITS = 1
      · rw [if_pos h1]
        interval_cases m <;> decide
      · rw [if_neg h1]
        split_ifs <;> interval_cases m <;> decide
  | user =>
      have hm0 : m = 0 := Nat.le_zero.mp hm
      subst hm0
      by_cases h1 : cfg.CLICCFGMBITS = 1
      · rw [if_pos h1]
        decide
      · rw [if_neg h1] at hprev ⊢
        -- with one mode bit no interrupt is a User-mode one, so the old field was not visible
        by_cases hn1 : Cliccfg.nmbits.get cliccfg = 1
        · rw [if_pos hn1] at hprev
          exfalso
          interval_cases old <;> revert hprev <;> decide
        · rw [if_neg hn1]
          decide

/-- The mode `writeCLICInterruptAttr` stores is at most the page's. -/
lemma writeCLICInterruptAttr_eq (h : IntHart) (i : ℕ) (v : UInt8) (P : RiscvMode) :
    ∃ (x : UInt64) (m : RiscvMode), m.toNat ≤ P.toNat ∧
      h.writeCLICInterruptAttr cfg cliccfg i v P =
        h.updateCLICInterruptField cfg cliccfg i .clicintattr (Clicintattr.mode.set x m.toNat).toUInt8 := by
  unfold writeCLICInterruptAttr
  refine ⟨_, _, ?_, rfl⟩
  split_ifs with hc
  · exact le_refl _
  · exact not_lt.mp (fun hlt => hc (Or.inl hlt))

/-- **A write of `clicintattr` keeps the interrupt visible** through the page
it was written through. -/
lemma getCLICInterruptMode_writeCLICInterruptAttr_le (h : IntHart) {P : RiscvMode}
    (hP : P ≠ .hypervisor) (i : ℕ) (v : UInt8) (hvis : h.getCLICInterruptMode cfg cliccfg i ≤ P) :
    (h.writeCLICInterruptAttr cfg cliccfg i v P).getCLICInterruptMode cfg cliccfg i ≤ P := by
  obtain ⟨x, m, hm, heq⟩ := h.writeCLICInterruptAttr_eq cfg cliccfg i v P
  have hst : (h.writeCLICInterruptAttr cfg cliccfg i v P).intState i .clicintattr =
      (Clicintattr.mode.set x m.toNat).toUInt8 := by
    rw [heq, updateCLICInterruptField_intState, setCLICInterruptField_intState, if_pos ⟨rfl, rfl⟩]
  have hmode : Clicintattr.mode.get (Clicintattr.mode.set x m.toNat).toUInt8.toUInt64 = m.toNat := by
    rw [Clicintattr.mode_get_toUInt8, BitField.get_set]
    exact Nat.mod_eq_of_lt m.toNat_lt_four
  unfold getCLICInterruptMode at hvis ⊢
  rw [hst, hmode]
  exact clicInterruptMode_le cfg cliccfg hP hm (BitField.get_lt _) hvis

/-- The byte an access of field `f` of interrupt `i` sees: the pending value
for `clicintip`, the stored field for the others. -/
def visibleField (h : IntHart) (i : ℕ) : CLICIntFieldType → UInt8
  | .clicintip => if h.getCLICInterruptPending i then 1 else 0
  | f => h.intState i f

/-- Byte `k` of the interrupt word is field `k`. -/
lemma getCLICInterruptValue_byte (h : IntHart) (i : ℕ) (f : CLICIntFieldType) :
    (h.getCLICInterruptValue i >>> UInt32.ofNat (f.toByte * 8)).toUInt8 = h.intState i f := by
  have ha := (h.intState i .clicintip).toNat_lt
  have hb := (h.intState i .clicintie).toNat_lt
  have hc := (h.intState i .clicintattr).toNat_lt
  have hd := (h.intState i .clicintctl).toNat_lt
  have hf := f.toByte_lt_four
  apply UInt8.toNat_inj.mp
  rw [UInt32.toNat_toUInt8, UInt32.toNat_shiftRight, getCLICInterruptValue,
    UInt32.toNat_ofNat_of_lt' (by unfold UInt32.size; omega),
    UInt32.toNat_ofNat_of_lt' (by unfold UInt32.size; omega), Nat.shiftRight_eq_div_pow]
  cases f <;> simp only [CLICIntFieldType.toByte, Nat.reduceMul, Nat.reduceMod, Nat.reducePow] <;> omega

end IntHart

/-! ### What a write stores -/

/-- A mode that a write of `clicintattr` through a page of mode `pageMode`
stores as written: at most the page's mode, one the configuration has
(`CLICCFGMBITS`, the N extension for User mode), and not Hypervisor. -/
def LegalCLICIntMode (cfg : ClicConfig) (pageMode intMode : RiscvMode) : Prop :=
  intMode ≤ pageMode ∧ cfg.CLICCFGMBITS ≠ 0 ∧ intMode ≠ .hypervisor ∧
    ¬ (cfg.CLICCFGMBITS < 2 ∧ intMode = .supervisor) ∧ ¬ (intMode = .user ∧ cfg.archN = false)

instance (cfg : ClicConfig) (pageMode intMode : RiscvMode) :
    Decidable (LegalCLICIntMode cfg pageMode intMode) :=
  inferInstanceAs (Decidable (_ ∧ _ ∧ _ ∧ _ ∧ _))

/-- What a write of `v` through a page of mode `P` leaves in field `f` of a
visible interrupt: bit 0 of `v` in `clicintip` (a store latches it whatever
the trigger) and in `clicintie`; in `clicintattr` the trigger bits of `v`,
`shv` of `v` when selective vectoring is implemented and clear otherwise,
the reserved bits clear, and the mode of `v` when it is legal, else the
page's; in `clicintctl`, `v` with the bits that read as one set. -/
def ClicStored (cfg : ClicConfig) (cliccfg : UInt64) (v : UInt8) (P : RiscvMode) :
    CLICIntFieldType → UInt8 → Prop
  | .clicintip, x => x = if v &&& 1 != 0 then 1 else 0
  | .clicintie, x => x = if v &&& 1 != 0 then 1 else 0
  | .clicintattr, x =>
    Clicintattr.shv.get x.toUInt64 =
        (if Cliccfg.nvbits.get cliccfg = 0 then 0 else Clicintattr.shv.get v.toUInt64) ∧
      Clicintattr.trig.get x.toUInt64 = Clicintattr.trig.get v.toUInt64 ∧
      Clicintattr.u1.get x.toUInt64 = 0 ∧
      Clicintattr.mode.get x.toUInt64 =
        if LegalCLICIntMode cfg P (RiscvMode.ofBits (Clicintattr.mode.get v.toUInt64)) then
          (RiscvMode.ofBits (Clicintattr.mode.get v.toUInt64)).toNat
        else P.toNat
  | .clicintctl, x => x = v ||| UInt8.ofNat cfg.getCLICIntCtl1Bits

/-- The test `writeCLICInterruptAttr` makes is that the mode is not legal. -/
lemma legalCLICIntMode_iff (cfg : ClicConfig) (pageMode intMode : RiscvMode) :
    LegalCLICIntMode cfg pageMode intMode ↔
      ¬ (pageMode < intMode ∨ cfg.CLICCFGMBITS = 0 ∨ intMode = .hypervisor ∨
        (cfg.CLICCFGMBITS < 2 ∧ intMode = .supervisor) ∨ (intMode = .user ∧ cfg.archN = false)) := by
  simp only [LegalCLICIntMode, not_or, not_lt]

namespace IntHart

variable (cfg : ClicConfig) (cliccfg : UInt64) (h : IntHart) (i : ℕ) (v : UInt8) (P : RiscvMode)

lemma writeCLICInterruptPending_stored :
    ClicStored cfg cliccfg v P .clicintip
      ((h.writeCLICInterruptPending cfg cliccfg i v true).intState i .clicintip) := by
  rw [intState_writeCLICInterruptPending]
  simp [ClicStored, setCLICInterruptPending]

lemma writeCLICInterruptEnable_stored :
    ClicStored cfg cliccfg v P .clicintie
      ((h.writeCLICInterruptEnable cfg cliccfg i v).intState i .clicintie) := by
  rw [intState_writeCLICInterruptEnable]
  simp [ClicStored, setCLICInterruptEnable]

lemma writeCLICInterruptCtl_stored :
    ClicStored cfg cliccfg v P .clicintctl
      ((h.writeCLICInterruptCtl cfg cliccfg i v).intState i .clicintctl) := by
  rw [writeCLICInterruptCtl, updateCLICInterruptField_intState]
  simp [ClicStored]

/-- A write of `clicintattr` stores the legalized attribute, field by field. -/
lemma writeCLICInterruptAttr_stored :
    ClicStored cfg cliccfg v P .clicintattr
      ((h.writeCLICInterruptAttr cfg cliccfg i v P).intState i .clicintattr) := by
  unfold writeCLICInterruptAttr
  dsimp only
  rw [updateCLICInterruptField_intState, setCLICInterruptField_intState, if_pos ⟨rfl, rfl⟩]
  refine ⟨?_, ?_, ?_, ?_⟩
  · -- `shv` is cleared without selective vectoring, else kept
    rw [BitField.get_toUInt8 (by decide), BitField.get_set_of_disjoint (by decide)]
    split_ifs
    · rw [BitField.get_set]
      rfl
    · rw [BitField.get_set_of_disjoint (by decide)]
  · rw [BitField.get_toUInt8 (by decide), BitField.get_set_of_disjoint (by decide),
      BitField.get_ite_set_of_disjoint (by decide), BitField.get_set_of_disjoint (by decide)]
  · rw [BitField.get_toUInt8 (by decide), BitField.get_set_of_disjoint (by decide),
      BitField.get_ite_set_of_disjoint (by decide), BitField.get_set]
    rfl
  · -- the mode written, when legal, else the page's
    rw [BitField.get_toUInt8 (by decide), BitField.get_set,
      Nat.mod_eq_of_lt (show _ < 2 ^ Clicintattr.mode.width from RiscvMode.toNat_lt_four _)]
    by_cases hl : LegalCLICIntMode cfg P (RiscvMode.ofBits (Clicintattr.mode.get v.toUInt64))
    · rw [if_pos hl, if_neg ((legalCLICIntMode_iff cfg _ _).mp hl)]
    · rw [if_neg hl, if_pos (not_not.mp (mt (legalCLICIntMode_iff cfg _ _).mpr hl))]

end IntHart

/-! ### Byte accesses -/

/-- What a write of field `f` of interrupt `i` of hart `k` may change: that
hart as `FieldWrite` allows, no other hart, and not `cliccfg`. -/
structure ClicWrite (c c' : Clic) (k i : ℕ) (f : CLICIntFieldType) : Prop where
  cliccfg_eq : c'.cliccfg = c.cliccfg
  harts_eq : ∀ k', k' ≠ k → c'.harts k' = c.harts k'
  hart : IntHart.FieldWrite (c.harts k) (c'.harts k) i f

namespace Clic

variable (cfg : ClicConfig) (c : Clic)

/-- Interrupt `i` of hart `k` is implemented and its mode is at most `P`. -/
def Visible (k i : ℕ) (P : RiscvMode) : Prop :=
  (16 ≤ i ∨ cfg.riscvHasInterrupt i = true) ∧ i < cfg.getIntNum ∧
    (c.harts k).getCLICInterruptMode cfg c.cliccfg i ≤ P

instance (k i : ℕ) (P : RiscvMode) : Decidable (c.Visible cfg k i P) :=
  inferInstanceAs (Decidable (_ ∧ _ ∧ _))

/-- `accessCLICInterrupt` tests visibility through the page of the offset. -/
lemma accessCLICInterrupt_iff (o : ℕ) :
    c.accessCLICInterrupt cfg o = true ↔
      c.Visible cfg (getCLICHartIndex cfg o) (getCLICIntIndex o) (getCLICPageMode cfg o) := by
  unfold accessCLICInterrupt Visible getCLICHart
  dsimp only
  by_cases h1 : getCLICIntIndex o < 16 ∧ cfg.riscvHasInterrupt (getCLICIntIndex o) = false
  · -- an absent standard interrupt
    rw [if_pos (by simp [h1.1, h1.2])]
    simp only [Bool.false_eq_true, false_iff]
    rintro ⟨h16 | hhas, -, -⟩
    · omega
    · rw [h1.2] at hhas
      exact Bool.false_ne_true hhas
  · have h16 : 16 ≤ getCLICIntIndex o ∨ cfg.riscvHasInterrupt (getCLICIntIndex o) = true := by
      rcases Nat.lt_or_ge (getCLICIntIndex o) 16 with hlt | hge
      · exact Or.inr (Bool.not_eq_false _ |>.mp (fun hh => h1 ⟨hlt, hh⟩))
      · exact Or.inl hge
    rw [if_neg (by simpa using h1)]
    by_cases h2 : getCLICIntIndex o < cfg.getIntNum
    · rw [if_pos h2]
      simp [h16, h2]
    · rw [if_neg h2]
      simp [h2]

lemma getCLICPage_ne_zero {o : ℕ} (ho : 4096 ≤ o) : getCLICPage o ≠ 0 := by
  unfold getCLICPage
  omega

/-- A byte read of an interrupt page: the visible field, or zero. -/
lemma readCLICInt_eq {o : ℕ} (ho : 4096 ≤ o) :
    c.readCLICInt cfg o =
      if c.accessCLICInterrupt cfg o then
        (c.getCLICHart cfg o).visibleField (getCLICIntIndex o) (getCLICIntFieldType o)
      else 0 := by
  have hbyte : getCLICWordByte o = (getCLICIntFieldType o).toByte := by
    rw [getCLICIntFieldType, CLICIntFieldType.toByte_ofByte, getCLICWordByte, Nat.mod_mod]
  unfold readCLICInt readCLICInterrupt
  dsimp only
  rw [if_pos (getCLICPage_ne_zero ho), hbyte]
  by_cases hacc : c.accessCLICInterrupt cfg o = true
  · rw [if_pos hacc, if_pos hacc]
    generalize getCLICIntFieldType o = f
    cases f
    · -- `clicintip` reads the pending value
      dsimp only [IntHart.visibleField]
      split <;> rfl
    · exact IntHart.getCLICInterruptValue_byte _ _ _
    · exact IntHart.getCLICInterruptValue_byte _ _ _
    · exact IntHart.getCLICInterruptValue_byte _ _ _
  · rw [if_neg hacc, if_neg hacc]
    simp

/-- A write of an interrupt that is not visible through the page changes
nothing. -/
lemma writeCLICInt_of_not_accessible {o : ℕ} (ho : 4096 ≤ o) (hacc : c.accessCLICInterrupt cfg o = false)
    (v : UInt8) : c.writeCLICInt cfg o v = c := by
  unfold writeCLICInt writeCLICInterrupt
  rw [if_pos (getCLICPage_ne_zero ho), if_neg (by rw [hacc]; decide)]

/-- A write of a visible interrupt changes only the field it addresses. -/
lemma writeCLICInt_clicWrite {o : ℕ} (ho : 4096 ≤ o) (hacc : c.accessCLICInterrupt cfg o = true)
    (v : UInt8) :
    ClicWrite c (c.writeCLICInt cfg o v) (getCLICHartIndex cfg o) (getCLICIntIndex o)
      (getCLICIntFieldType o) := by
  unfold writeCLICInt writeCLICInterrupt
  rw [if_pos (getCLICPage_ne_zero ho), if_pos hacc]
  refine ⟨rfl, fun k' hk => Function.update_of_ne hk _ _, ?_⟩
  dsimp only
  rw [Function.update_self]
  generalize getCLICIntFieldType o = f
  cases f
  · exact IntHart.writeCLICInterruptPending_fieldWrite _ _ _ _ _ true
  · exact IntHart.writeCLICInterruptEnable_fieldWrite _ _ _ _ _
  · exact IntHart.writeCLICInterruptAttr_fieldWrite _ _ _ _ _ _
  · exact IntHart.writeCLICInterruptCtl_fieldWrite _ _ _ _ _

/-- A write of a visible interrupt leaves it visible through the page. -/
lemma getCLICInterruptMode_writeCLICInt_le {o : ℕ} (ho : 4096 ≤ o)
    (hacc : c.accessCLICInterrupt cfg o = true) (v : UInt8) :
    ((c.writeCLICInt cfg o v).harts (getCLICHartIndex cfg o)).getCLICInterruptMode cfg c.cliccfg
      (getCLICIntIndex o) ≤ getCLICPageMode cfg o := by
  have hvis := ((c.accessCLICInterrupt_iff cfg o).mp hacc).2.2
  unfold writeCLICInt writeCLICInterrupt
  rw [if_pos (getCLICPage_ne_zero ho), if_pos hacc]
  dsimp only
  rw [Function.update_self]
  generalize hf : getCLICIntFieldType o = f
  cases f
  case clicintattr =>
    exact IntHart.getCLICInterruptMode_writeCLICInterruptAttr_le cfg c.cliccfg _
      (getCLICPageMode_ne_hypervisor cfg ho) _ _ hvis
  -- the other fields leave `clicintattr`, and with it the mode
  all_goals
    refine le_of_eq_of_le (IntHart.getCLICInterruptMode_congr cfg c.cliccfg ?_) hvis
    have hw := (c.writeCLICInt_clicWrite cfg ho hacc v).hart
    rw [hf] at hw
    unfold writeCLICInt writeCLICInterrupt at hw
    rw [if_pos (getCLICPage_ne_zero ho), if_pos hacc] at hw
    dsimp only at hw
    rw [Function.update_self, hf] at hw
    exact hw.intState_eq _ _ (fun h => nomatch h.2)

/-- **What a visible write stores**: the field it addresses holds the value
`ClicStored` gives. -/
lemma writeCLICInt_stored {o : ℕ} (ho : 4096 ≤ o) (hacc : c.accessCLICInterrupt cfg o = true)
    (v : UInt8) :
    ClicStored cfg c.cliccfg v (getCLICPageMode cfg o) (getCLICIntFieldType o)
      (((c.writeCLICInt cfg o v).harts (getCLICHartIndex cfg o)).intState (getCLICIntIndex o)
        (getCLICIntFieldType o)) := by
  unfold writeCLICInt writeCLICInterrupt
  rw [if_pos (getCLICPage_ne_zero ho), if_pos hacc]
  dsimp only
  rw [Function.update_self]
  generalize getCLICIntFieldType o = f
  cases f
  · exact IntHart.writeCLICInterruptPending_stored _ _ _ _ _ _
  · exact IntHart.writeCLICInterruptEnable_stored _ _ _ _ _ _
  · exact IntHart.writeCLICInterruptAttr_stored _ _ _ _ _ _
  · exact IntHart.writeCLICInterruptCtl_stored _ _ _ _ _ _

end Clic

/-! ### The memory map -/

/-- What the memory map of a CLIC guarantees: the decoding of the interrupt
pages is a bijection; a byte read shows field `f` of interrupt `i` of hart `k`
when that interrupt is visible through the page's mode `P`, and zero
otherwise; a byte write changes nothing when it is not visible, and otherwise
only what `ClicWrite` allows, leaving the interrupt visible through the page
and its field holding what `ClicStored` says; and along any run of writes
through pages of modes at most `P`, an interrupt not visible through `P` keeps
its fields and stays invisible. -/
structure ClicMapRouting (cfg : ClicConfig) : Prop where
  decode_bijOn :
    Set.BijOn (clicDecode cfg) (Set.Ico 4096 (clicMappedBytes cfg)) (clicTargets cfg)
  read_eq : ∀ (c : Clic) (o : ℕ) (P : RiscvMode) (k i : ℕ) (f : CLICIntFieldType),
    o ∈ Set.Ico 4096 (clicMappedBytes cfg) → clicDecode cfg o = (P, k, i, f) →
      c.readCLICInt cfg o = if c.Visible cfg k i P then (c.harts k).visibleField i f else 0
  write_invisible : ∀ (c : Clic) (o : ℕ) (P : RiscvMode) (k i : ℕ) (f : CLICIntFieldType)
    (v : UInt8), o ∈ Set.Ico 4096 (clicMappedBytes cfg) → clicDecode cfg o = (P, k, i, f) →
      ¬ c.Visible cfg k i P → c.writeCLICInt cfg o v = c
  write_visible : ∀ (c : Clic) (o : ℕ) (P : RiscvMode) (k i : ℕ) (f : CLICIntFieldType)
    (v : UInt8), o ∈ Set.Ico 4096 (clicMappedBytes cfg) → clicDecode cfg o = (P, k, i, f) →
      c.Visible cfg k i P →
        ClicWrite c (c.writeCLICInt cfg o v) k i f ∧ (c.writeCLICInt cfg o v).Visible cfg k i P
  write_stores : ∀ (c : Clic) (o : ℕ) (P : RiscvMode) (k i : ℕ) (f : CLICIntFieldType)
    (v : UInt8), o ∈ Set.Ico 4096 (clicMappedBytes cfg) → clicDecode cfg o = (P, k, i, f) →
      c.Visible cfg k i P → ClicStored cfg c.cliccfg v P f (((c.writeCLICInt cfg o v).harts k).intState i f)
  run_invisible : ∀ (c : Clic) (ops : List (ℕ × UInt8)) (P : RiscvMode) (k i : ℕ),
    (∀ a ∈ ops, a.1 ∈ Set.Ico 4096 (clicMappedBytes cfg) ∧ getCLICPageMode cfg a.1 ≤ P) →
      ¬ c.Visible cfg k i P →
        let c' := StepSystem.run (fun c a => c.writeCLICInt cfg a.1 a.2) c ops
        ¬ c'.Visible cfg k i P ∧ (c'.harts k).intState i = (c.harts k).intState i

namespace Clic

variable (cfg : ClicConfig) (c : Clic)

lemma clicDecode_eq_iff {o : ℕ} {P : RiscvMode} {k i : ℕ} {f : CLICIntFieldType} :
    clicDecode cfg o = (P, k, i, f) ↔
      getCLICPageMode cfg o = P ∧ getCLICHartIndex cfg o = k ∧ getCLICIntIndex o = i ∧
        getCLICIntFieldType o = f := by
  simp only [clicDecode, Prod.mk.injEq]

/-- One write through a page of mode at most `P` keeps an interrupt that is
not visible through `P`: it stays invisible and keeps its fields. -/
lemma writeCLICInt_invisible {o : ℕ} (ho : o ∈ Set.Ico 4096 (clicMappedBytes cfg))
    {P : RiscvMode} (hP : getCLICPageMode cfg o ≤ P) {k i : ℕ} (hinv : ¬ c.Visible cfg k i P)
    (v : UInt8) :
    ¬ (c.writeCLICInt cfg o v).Visible cfg k i P ∧
      ((c.writeCLICInt cfg o v).harts k).intState i = (c.harts k).intState i := by
  by_cases hacc : c.accessCLICInterrupt cfg o = true
  · have hw := c.writeCLICInt_clicWrite cfg ho.1 hacc v
    have hvis := (c.accessCLICInterrupt_iff cfg o).mp hacc
    -- the write addresses another interrupt, or another hart
    have hst : ((c.writeCLICInt cfg o v).harts k).intState i = (c.harts k).intState i := by
      by_cases hk : k = getCLICHartIndex cfg o
      · subst hk
        have hi : i ≠ getCLICIntIndex o := by
          rintro rfl
          exact hinv ⟨hvis.1, hvis.2.1, le_trans hvis.2.2 hP⟩
        funext g
        exact hw.hart.intState_eq i g (fun h => hi h.1)
      · rw [hw.harts_eq k hk]
    refine ⟨fun hv => hinv ?_, hst⟩
    obtain ⟨h1, h2, h3⟩ := hv
    refine ⟨h1, h2, ?_⟩
    rw [hw.cliccfg_eq] at h3
    rwa [IntHart.getCLICInterruptMode_congr cfg c.cliccfg (congrFun hst .clicintattr)] at h3
  · rw [c.writeCLICInt_of_not_accessible cfg ho.1 (Bool.eq_false_iff.mpr hacc)]
    exact ⟨hinv, rfl⟩

end Clic

/-- **The memory map of a CLIC** routes every byte of the interrupt pages to
one field of one interrupt of one hart, and lets a page read and write only
the interrupts visible through its mode. -/
theorem clic_memory_map (cfg : ClicConfig) : ClicMapRouting cfg := by
  refine ⟨clicDecode_bijOn cfg, ?_, ?_, ?_, ?_, ?_⟩
  · intro c o P k i f ho hd
    obtain ⟨rfl, rfl, rfl, rfl⟩ := (Clic.clicDecode_eq_iff cfg).mp hd
    rw [c.readCLICInt_eq cfg ho.1]
    by_cases hv : c.Visible cfg (getCLICHartIndex cfg o) (getCLICIntIndex o) (getCLICPageMode cfg o)
    · rw [if_pos ((c.accessCLICInterrupt_iff cfg o).mpr hv), if_pos hv]
      rfl
    · rw [if_neg (fun h => hv ((c.accessCLICInterrupt_iff cfg o).mp h)), if_neg hv]
  · intro c o P k i f v ho hd hv
    obtain ⟨rfl, rfl, rfl, rfl⟩ := (Clic.clicDecode_eq_iff cfg).mp hd
    exact c.writeCLICInt_of_not_accessible cfg ho.1
      (Bool.eq_false_iff.mpr (fun h => hv ((c.accessCLICInterrupt_iff cfg o).mp h))) v
  · intro c o P k i f v ho hd hv
    obtain ⟨rfl, rfl, rfl, rfl⟩ := (Clic.clicDecode_eq_iff cfg).mp hd
    have hacc := (c.accessCLICInterrupt_iff cfg o).mpr hv
    have hw := c.writeCLICInt_clicWrite cfg ho.1 hacc v
    refine ⟨hw, hv.1, hv.2.1, ?_⟩
    rw [hw.cliccfg_eq]
    exact c.getCLICInterruptMode_writeCLICInt_le cfg ho.1 hacc v
  · intro c o P k i f v ho hd hv
    obtain ⟨rfl, rfl, rfl, rfl⟩ := (Clic.clicDecode_eq_iff cfg).mp hd
    exact c.writeCLICInt_stored cfg ho.1 ((c.accessCLICInterrupt_iff cfg o).mpr hv) v
  · intro c ops P k i hops hinv
    -- invisibility and the fields of the interrupt are conserved step by step
    exact @StepSystem.run_conserved _ _ (fun c a => c.writeCLICInt cfg a.1 a.2)
      (fun a => a.1 ∈ Set.Ico 4096 (clicMappedBytes cfg) ∧ getCLICPageMode cfg a.1 ≤ P) _
      (fun c => ¬ c.Visible cfg k i P) (fun c => (c.harts k).intState i)
      (fun c a ha hc => c.writeCLICInt_invisible cfg ha.1 ha.2 hc a.2) c ops hinv hops

end RiscvOvpsim
