import RiscvOvpsim.Clic.Map

/-!
The cache `clic.ipe` of the pending-and-enabled interrupts of a hart
(`riscvCLIC.c`: `writeCLICInterruptPending`, `writeCLICInterruptEnable`,
`refreshCLICIPE`, `riscvAcknowledgeCLICInt`, `riscvUpdateCLICInput`,
`riscvNewCLIC`; `riscvExceptions.c`: `interruptPortCB`).

The scan that selects a CLIC interrupt reads only the cache, so the cache has
to follow the pending value, which for a level-triggered interrupt is its
latched bit or its input.

* `IpeExact`: the cached bit of every interrupt below `num_interrupt` is its
  pending-and-enabled value; `refreshCLICIPE_exact`: the recomputation after a
  restore makes it so, and a cache is exact exactly when it agrees with it;
* `IpeGood`: the cache of an interrupt is exact and, when it is
  level-triggered, it is active-high with its latched bit clear; every
  writer except the stores to `clicintip` and `clicintattr` keeps it;
* `clicStep`: a cluster under input changes, byte writes to the CLIC and
  acknowledgements, from `clicNew`, the state `riscvNewCLIC` makes;
* `clic_ipe_exact_of_no_ip_attr_writes`: along every run without a store to
  `clicintip` or `clicintattr` the cache stays exact;
* `writeCLICInterruptPending_store_stale`, `clic_ipe_stale_after_pending_store`:
  a store to `clicintip` does not keep it.  It caches the enable and the
  stored bit, while the pending value of a level-triggered interrupt also
  holds its input; `riscvUpdateCLICInput_release_stale`: for the same reason
  the release of the input of a latched level-triggered interrupt does not
  keep it either.
-/

namespace RiscvOvpsim

namespace IntHart

variable (h : IntHart)

/-! ### Exactness -/

/-- The cached bit of interrupt `i` is its pending-and-enabled value. -/
def IpeExactAt (i : ℕ) : Prop :=
  h.getCLICPendingEnable i = (h.getCLICInterruptPending i && h.getCLICInterruptEnable i)

/-- The cache is exact below `n`. -/
def IpeExact (n : ℕ) : Prop := ∀ i < n, h.IpeExactAt i

instance (i : ℕ) : Decidable (h.IpeExactAt i) := inferInstanceAs (Decidable (_ = _))

instance (n : ℕ) : Decidable (h.IpeExact n) :=
  inferInstanceAs (Decidable (∀ i < n, h.IpeExactAt i))

/-- A level-triggered interrupt is active-high and has its latched bit
clear, so that its pending value is its input. -/
def LevelClear (i : ℕ) : Prop :=
  h.isCLICInterruptEdge i = false →
    h.isCLICInterruptActiveLow i = false ∧ h.intState i .clicintip = 0

/-- What the writers other than the stores to `clicintip` and `clicintattr`
keep of an interrupt: an exact cache and a clear level latch. -/
def IpeGood (i : ℕ) : Prop := h.IpeExactAt i ∧ h.LevelClear i

lemma getCLICInterruptPending_of_edge {i : ℕ} (he : h.isCLICInterruptEdge i = true) :
    h.getCLICInterruptPending i = (h.intState i .clicintip != 0) := by
  simp [getCLICInterruptPending, he]

lemma getCLICInterruptPending_of_level {i : ℕ} (he : h.isCLICInterruptEdge i = false) :
    h.getCLICInterruptPending i = (h.intState i .clicintip != 0 || Bitmap.get h.ip i) := by
  simp [getCLICInterruptPending, he]

section Congr

variable {h' : IntHart} {i : ℕ}

lemma isCLICInterruptEdge_congr (ha : h'.intState i .clicintattr = h.intState i .clicintattr) :
    h'.isCLICInterruptEdge i = h.isCLICInterruptEdge i := by
  unfold isCLICInterruptEdge
  rw [ha]

lemma isCLICInterruptActiveLow_congr (ha : h'.intState i .clicintattr = h.intState i .clicintattr) :
    h'.isCLICInterruptActiveLow i = h.isCLICInterruptActiveLow i := by
  unfold isCLICInterruptActiveLow
  rw [ha]

/-- The pending value reads the latched bit, the trigger, and the input only
for a level-triggered interrupt. -/
lemma getCLICInterruptPending_congr_fields
    (hp : h'.intState i .clicintip = h.intState i .clicintip)
    (ha : h'.intState i .clicintattr = h.intState i .clicintattr)
    (hip : h.isCLICInterruptEdge i = false → Bitmap.get h'.ip i = Bitmap.get h.ip i) :
    h'.getCLICInterruptPending i = h.getCLICInterruptPending i := by
  have hedge := h.isCLICInterruptEdge_congr ha
  cases hE : h.isCLICInterruptEdge i
  · rw [h'.getCLICInterruptPending_of_level (hedge.trans hE), h.getCLICInterruptPending_of_level hE,
      hp, hip hE]
  · rw [h'.getCLICInterruptPending_of_edge (hedge.trans hE), h.getCLICInterruptPending_of_edge hE, hp]

lemma levelClear_congr (hp : h'.intState i .clicintip = h.intState i .clicintip)
    (ha : h'.intState i .clicintattr = h.intState i .clicintattr) :
    h'.LevelClear i ↔ h.LevelClear i := by
  unfold LevelClear
  rw [h.isCLICInterruptEdge_congr ha, h.isCLICInterruptActiveLow_congr ha, hp]

/-- **The cache of an interrupt reads only that interrupt**: its pending,
enable and attribute fields, its input when it is level-triggered, and its
cached bit. -/
lemma ipeGood_congr (hp : h'.intState i .clicintip = h.intState i .clicintip)
    (he : h'.intState i .clicintie = h.intState i .clicintie)
    (ha : h'.intState i .clicintattr = h.intState i .clicintattr)
    (hip : h.isCLICInterruptEdge i = false → Bitmap.get h'.ip i = Bitmap.get h.ip i)
    (hipe : Bitmap.get h'.ipe i = Bitmap.get h.ipe i) :
    h'.IpeGood i ↔ h.IpeGood i := by
  have hen : h'.getCLICInterruptEnable i = h.getCLICInterruptEnable i := by
    unfold getCLICInterruptEnable
    rw [he]
  unfold IpeGood IpeExactAt getCLICPendingEnable
  rw [hipe, h.getCLICInterruptPending_congr_fields hp ha hip, hen, h.levelClear_congr hp ha]

end Congr

/-- A write within the footprint of one interrupt keeps every other. -/
lemma FieldWrite.ipeGood_iff {h h' : IntHart} {i : ℕ} {f : CLICIntFieldType}
    (hw : FieldWrite h h' i f) {j : ℕ} (hj : j ≠ i) : h'.IpeGood j ↔ h.IpeGood j :=
  h.ipeGood_congr (hw.intState_eq j _ (fun h => hj h.1)) (hw.intState_eq j _ (fun h => hj h.1))
    (hw.intState_eq j _ (fun h => hj h.1)) (fun _ => by rw [hw.ip_eq]) (hw.ipe_eq j hj)

variable (cfg : ClicConfig) (cliccfg : UInt64)

lemma riscvTestInterrupt_ipeGood (i : ℕ) :
    (h.riscvTestInterrupt cfg cliccfg).IpeGood i ↔ h.IpeGood i := by
  apply ipeGood_congr <;> simp

lemma riscvUpdatePending_ipeGood (i : ℕ) :
    (h.riscvUpdatePending cfg cliccfg).IpeGood i ↔ h.IpeGood i := by
  apply ipeGood_congr <;> simp

/-! ### The recomputation -/

/-- **The recomputed cache** holds the pending-and-enabled interrupts below
`num_interrupt`. -/
lemma getCLICPendingEnable_refreshCLICIPE (i : ℕ) :
    (h.refreshCLICIPE cfg).getCLICPendingEnable i =
      (decide (i < cfg.getIntNum) && (h.getCLICInterruptPending i && h.getCLICInterruptEnable i)) := by
  unfold refreshCLICIPE getCLICPendingEnable
  dsimp only
  rw [Bitmap.get_foldl_set, Bitmap.get_zero, Bool.or_false]
  simp only [List.mem_range]

/-- `refreshCLICIPE` makes the cache exact. -/
lemma refreshCLICIPE_exact : (h.refreshCLICIPE cfg).IpeExact cfg.getIntNum := by
  intro i hi
  unfold IpeExactAt
  rw [getCLICPendingEnable_refreshCLICIPE, decide_eq_true hi, Bool.true_and]
  rfl

/-- A cache is exact exactly when it agrees with the one `refreshCLICIPE`
recomputes after a restore. -/
lemma ipeExact_iff_refreshCLICIPE :
    h.IpeExact cfg.getIntNum ↔
      ∀ i < cfg.getIntNum, h.getCLICPendingEnable i = (h.refreshCLICIPE cfg).getCLICPendingEnable i := by
  refine forall₂_congr fun i hi => ?_
  rw [getCLICPendingEnable_refreshCLICIPE, decide_eq_true hi, Bool.true_and]
  rfl

/-! ### The writers that keep the cache -/

/-- The fields of the interrupt a pending write addresses: the latched bit,
when it is a store or the interrupt is edge-triggered. -/
lemma intState_writeCLICInterruptPending_self (i : ℕ) (v : UInt8) (isStore : Bool)
    (f : CLICIntFieldType) :
    (h.writeCLICInterruptPending cfg cliccfg i v isStore).intState i f =
      if (isStore || h.isCLICInterruptEdge i) && f = .clicintip then
        (if v &&& 1 != 0 then 1 else 0)
      else h.intState i f := by
  rw [intState_writeCLICInterruptPending]
  unfold setCLICInterruptPending
  by_cases hl : (isStore || h.isCLICInterruptEdge i) = true
  · rw [if_pos hl, setCLICInterruptField_intState]
    simp [hl]
  · simp [hl]

/-- **A write of an edge-triggered interrupt's pending bit keeps its cache
exact**: the bit is latched, and the pending value of an edge-triggered
interrupt is its latched bit. -/
lemma writeCLICInterruptPending_ipeGood_of_edge {i : ℕ} (he : h.isCLICInterruptEdge i = true)
    (v : UInt8) (isStore : Bool) :
    (h.writeCLICInterruptPending cfg cliccfg i v isStore).IpeGood i := by
  set h' := h.writeCLICInterruptPending cfg cliccfg i v isStore
  have hst := h.intState_writeCLICInterruptPending_self cfg cliccfg i v isStore
  have he' : h'.isCLICInterruptEdge i = true := by
    unfold isCLICInterruptEdge at he ⊢
    rw [hst, if_neg (by simp)]
    exact he
  have hen : h'.getCLICInterruptEnable i = h.getCLICInterruptEnable i := by
    unfold getCLICInterruptEnable
    rw [hst, if_neg (by simp)]
  refine ⟨?_, fun hl => absurd (he'.symm.trans hl) (by decide)⟩
  unfold IpeExactAt
  rw [h.getCLICPendingEnable_writeCLICInterruptPending, if_pos rfl, h'.getCLICInterruptPending_of_edge he',
    hen, hst, if_pos (by simp [he])]
  cases (v &&& 1 != 0) <;> simp [Bool.and_comm]

/-- **An input write of a clear level-triggered interrupt keeps its cache
exact**, when the written value is its input: nothing is latched, and the
pending value is the input. -/
lemma writeCLICInterruptPending_ipeGood_of_level {i : ℕ} (he : h.isCLICInterruptEdge i = false)
    (hc : h.LevelClear i) {v : UInt8} (hip : Bitmap.get h.ip i = (v &&& 1 != 0)) :
    (h.writeCLICInterruptPending cfg cliccfg i v false).IpeGood i := by
  have hst : (h.writeCLICInterruptPending cfg cliccfg i v false).intState i = h.intState i := by
    funext f
    rw [h.intState_writeCLICInterruptPending_self, if_neg (by simp [he])]
  have hip' : (h.writeCLICInterruptPending cfg cliccfg i v false).ip = h.ip :=
    h.ip_writeCLICInterruptPending cfg cliccfg i v false
  refine ⟨?_, ?_⟩
  · unfold IpeExactAt getCLICInterruptPending getCLICInterruptEnable isCLICInterruptEdge
    rw [h.getCLICPendingEnable_writeCLICInterruptPending, if_pos rfl, hst, hip']
    unfold isCLICInterruptEdge at he
    unfold getCLICInterruptEnable
    rw [he, (hc he).2, ← hip]
    simp [Bool.and_comm]
  · unfold LevelClear isCLICInterruptEdge isCLICInterruptActiveLow
    rw [hst]
    exact hc

/-- **An enable write keeps the cache exact**: it caches the pending value,
which it does not change, and the written enable. -/
lemma writeCLICInterruptEnable_ipeGood {i : ℕ} (hc : h.LevelClear i) (v : UInt8) :
    (h.writeCLICInterruptEnable cfg cliccfg i v).IpeGood i := by
  set h' := h.writeCLICInterruptEnable cfg cliccfg i v
  have hst : ∀ f, h'.intState i f =
      if f = .clicintie then (if v &&& 1 != 0 then 1 else 0) else h.intState i f := by
    intro f
    rw [intState_writeCLICInterruptEnable, setCLICInterruptEnable, setCLICInterruptField_intState]
    simp
  have hp : h'.intState i .clicintip = h.intState i .clicintip := by rw [hst, if_neg (by decide)]
  have ha : h'.intState i .clicintattr = h.intState i .clicintattr := by rw [hst, if_neg (by decide)]
  have hpend : h'.getCLICInterruptPending i = h.getCLICInterruptPending i :=
    h.getCLICInterruptPending_congr_fields hp ha
      (fun _ => by rw [h.ip_writeCLICInterruptEnable cfg cliccfg i v])
  have hen : h'.getCLICInterruptEnable i = (v &&& 1 != 0) := by
    unfold getCLICInterruptEnable
    rw [hst, if_pos rfl]
    cases (v &&& 1 != 0) <;> decide
  refine ⟨?_, (h.levelClear_congr hp ha).mpr hc⟩
  unfold IpeExactAt
  rw [h.getCLICPendingEnable_writeCLICInterruptEnable, if_pos rfl, hpend, hen]

/-- A write of the control bits keeps every cache: the cache reads no
control bits. -/
lemma writeCLICInterruptCtl_ipeGood (i j : ℕ) (v : UInt8) :
    (h.writeCLICInterruptCtl cfg cliccfg i v).IpeGood j ↔ h.IpeGood j := by
  have hst : ∀ f, f ≠ .clicintctl → (h.writeCLICInterruptCtl cfg cliccfg i v).intState j f = h.intState j f := by
    intro f hf
    rw [writeCLICInterruptCtl, updateCLICInterruptField_intState, setCLICInterruptField_intState,
      if_neg (fun h => hf h.2)]
  apply h.ipeGood_congr (hst _ (by decide)) (hst _ (by decide)) (hst _ (by decide))
  · intro _
    rw [writeCLICInterruptCtl, updateCLICInterruptField_ip]
  · rw [writeCLICInterruptCtl, updateCLICInterruptField_ipe]

/-- An enable write keeps the cache of every interrupt. -/
lemma writeCLICInterruptEnable_ipeGood_of {j : ℕ} (hg : h.IpeGood j) (i : ℕ) (v : UInt8) :
    (h.writeCLICInterruptEnable cfg cliccfg i v).IpeGood j := by
  by_cases hj : j = i
  · subst hj
    exact h.writeCLICInterruptEnable_ipeGood cfg cliccfg hg.2 v
  · rw [(h.writeCLICInterruptEnable_fieldWrite cfg cliccfg i v).ipeGood_iff hj]
    exact hg

/-- **An input change keeps the cache of its interrupt**, once the input is
recorded: an edge-triggered interrupt latches an assertion and ignores a
release, and a clear level-triggered one caches its input. -/
lemma riscvUpdateCLICInput_ipeGood {i : ℕ} {v : Bool} (hip : Bitmap.get h.ip i = v)
    (hedge : h.isCLICInterruptEdge i = true → h.IpeExactAt i) (hc : h.LevelClear i) :
    (h.riscvUpdateCLICInput cfg cliccfg i v).IpeGood i := by
  unfold riscvUpdateCLICInput
  dsimp only
  cases hE : h.isCLICInterruptEdge i
  · -- level-triggered, hence active-high: the input is written as it is
    obtain ⟨hlow, -⟩ := hc hE
    rw [hlow, Bool.xor_false, if_pos (by simp)]
    exact h.writeCLICInterruptPending_ipeGood_of_level cfg cliccfg hE hc (by rw [hip]; cases v <;> decide)
  · by_cases ha : (v ^^ h.isCLICInterruptActiveLow i) = true
    · rw [if_pos (by simp [ha])]
      exact h.writeCLICInterruptPending_ipeGood_of_edge cfg cliccfg hE _ false
    · rw [if_neg (by simp [ha])]
      exact ⟨hedge hE, hc⟩

/-- **An input change keeps every cache of its hart**, when the hart has an
internal CLIC. -/
lemma interruptPortCB_ipeGood (hI : cfg.CLICInternal = true) {j : ℕ} (hg : h.IpeGood j) (i : ℕ)
    (v : Bool) : (h.interruptPortCB cfg cliccfg i v).IpeGood j := by
  -- the input is recorded, the CLIC sees the change, then the basic controller
  let h₁ : IntHart := { h with ip := Bitmap.set h.ip i v }
  have h₂ : (h₁.riscvUpdateCLICInput cfg cliccfg i v).IpeGood j := by
    by_cases hj : j = i
    · subst hj
      refine h₁.riscvUpdateCLICInput_ipeGood cfg cliccfg (by simp [h₁]) (fun he => ?_) hg.2
      -- an edge-triggered interrupt does not read its input
      have hg₁ : h₁.IpeGood j ↔ h.IpeGood j :=
        h.ipeGood_congr rfl rfl rfl (fun hl => absurd (he.symm.trans hl) (by decide)) rfl
      exact (hg₁.mpr hg).1
    · rw [(h₁.riscvUpdateCLICInput_fieldWrite cfg cliccfg i v).ipeGood_iff hj]
      have hg₁ : h₁.IpeGood j ↔ h.IpeGood j :=
        h.ipeGood_congr rfl rfl rfl (fun _ => by simp [h₁, hj]) rfl
      exact hg₁.mpr hg
  unfold interruptPortCB
  dsimp only
  rw [if_pos hI]
  by_cases hb : cfg.basicICPresent = true
  · rw [if_pos hb]
    exact (riscvUpdatePending_ipeGood _ cfg cliccfg j).mpr h₂
  · rw [if_neg hb]
    exact h₂

/-- **An acknowledgement keeps every cache of its hart**: an edge-triggered
interrupt is cleared through its pending bit, any other only refreshes the
selection. -/
lemma riscvAcknowledgeCLICInt_ipeGood {j : ℕ} (hg : h.IpeGood j) (i : ℕ) :
    (h.riscvAcknowledgeCLICInt cfg cliccfg i).IpeGood j := by
  by_cases hj : j = i
  · subst hj
    unfold riscvAcknowledgeCLICInt
    by_cases he : (cfg.CLICInternal && h.isCLICInterruptEdge j) = true
    · rw [if_pos he]
      exact h.writeCLICInterruptPending_ipeGood_of_edge cfg cliccfg ((Bool.and_eq_true _ _).mp he).2 0 false
    · rw [if_neg he]
      obtain ⟨sel, hsel⟩ := h.riscvRefreshPendingAndEnabled_eq cfg cliccfg
      rw [hsel]
      exact hg
  · rw [(h.riscvAcknowledgeCLICInt_fieldWrite cfg cliccfg i).ipeGood_iff hj]
    exact hg

/-! ### The store that does not keep the cache -/

/-- **A store to the `clicintip` of a level-triggered interrupt leaves its
cache stale**: a store of a clear bit caches a clear bit, while the
interrupt stays pending as long as its input is asserted. -/
lemma writeCLICInterruptPending_store_stale {i : ℕ} (he : h.isCLICInterruptEdge i = false)
    (hen : h.getCLICInterruptEnable i = true) (hip : Bitmap.get h.ip i = true) {v : UInt8}
    (hv : v &&& 1 = 0) :
    (h.writeCLICInterruptPending cfg cliccfg i v true).getCLICInterruptPending i = true ∧
      (h.writeCLICInterruptPending cfg cliccfg i v true).getCLICInterruptEnable i = true ∧
      (h.writeCLICInterruptPending cfg cliccfg i v true).getCLICPendingEnable i = false := by
  have hw := h.writeCLICInterruptPending_fieldWrite cfg cliccfg i v true
  have hedge : (h.writeCLICInterruptPending cfg cliccfg i v true).isCLICInterruptEdge i = false :=
    (h.isCLICInterruptEdge_congr (hw.intState_eq i _ (by simp))).trans he
  refine ⟨?_, ?_, ?_⟩
  · -- the input alone keeps the interrupt pending
    rw [getCLICInterruptPending_of_level _ hedge, hw.ip_eq, hip, Bool.or_true]
  · unfold getCLICInterruptEnable at hen ⊢
    rw [hw.intState_eq i _ (by simp)]
    exact hen
  · rw [h.getCLICPendingEnable_writeCLICInterruptPending, if_pos rfl, hv]
    simp

/-- **Releasing the input of a latched level-triggered interrupt leaves its
cache stale**: the release caches a clear bit, while the latched bit keeps
the interrupt pending. -/
lemma riscvUpdateCLICInput_release_stale {i : ℕ} (he : h.isCLICInterruptEdge i = false)
    (hlow : h.isCLICInterruptActiveLow i = false) (hen : h.getCLICInterruptEnable i = true)
    (hl : h.intState i .clicintip ≠ 0) :
    (h.riscvUpdateCLICInput cfg cliccfg i false).getCLICInterruptPending i = true ∧
      (h.riscvUpdateCLICInput cfg cliccfg i false).getCLICInterruptEnable i = true ∧
      (h.riscvUpdateCLICInput cfg cliccfg i false).getCLICPendingEnable i = false := by
  have hu : h.riscvUpdateCLICInput cfg cliccfg i false = h.writeCLICInterruptPending cfg cliccfg i 0 false := by
    unfold riscvUpdateCLICInput
    simp [he, hlow]
  -- nothing is latched: the fields stay as they are
  have hst : ∀ f, (h.writeCLICInterruptPending cfg cliccfg i 0 false).intState i f = h.intState i f := by
    intro f
    rw [h.intState_writeCLICInterruptPending_self, if_neg (by simp [he])]
  have hedge : (h.writeCLICInterruptPending cfg cliccfg i 0 false).isCLICInterruptEdge i = false :=
    (h.isCLICInterruptEdge_congr (hst _)).trans he
  rw [hu]
  refine ⟨?_, ?_, ?_⟩
  · rw [getCLICInterruptPending_of_level _ hedge, hst]
    simp [hl]
  · unfold getCLICInterruptEnable at hen ⊢
    rw [hst]
    exact hen
  · rw [h.getCLICPendingEnable_writeCLICInterruptPending, if_pos rfl]
    simp

/-! ### The initial state -/

/-- `riscvNewCLIC` for one hart: the internal CLIC is enabled, the cache is
empty, and every field of every interrupt is zero but a Machine-mode
attribute and the control bits that read as one. -/
def riscvNewCLIC (cfg : ClicConfig) (hart : IntHart) : IntHart :=
  let hart : IntHart := { hart with enableCLIC := true, intState := fun _ _ => 0, ipe := fun _ => 0 }
  let clicintattr : UInt8 := (Clicintattr.mode.set 0 RiscvMode.machine.toNat).toUInt8
  let clicintctl : UInt8 := UInt8.ofNat cfg.getCLICIntCtl1Bits
  (List.range cfg.riscvGetIntNum).foldl
    (fun hart i =>
      (hart.setCLICInterruptField i .clicintattr clicintattr).setCLICInterruptField i .clicintctl
        clicintctl)
    hart

section New

variable (a c : UInt8) (l : List ℕ)

/-- The initialising loop writes the attribute and the control bits of the
interrupts it visits. -/
lemma foldl_setAttrCtl_intState (hart : IntHart) (j : ℕ) (f : CLICIntFieldType) :
    (l.foldl (fun hart i =>
      (hart.setCLICInterruptField i .clicintattr a).setCLICInterruptField i .clicintctl c) hart).intState j f =
      if j ∈ l ∧ f = .clicintattr then a else if j ∈ l ∧ f = .clicintctl then c else hart.intState j f := by
  induction l generalizing hart with
  | nil => simp
  | cons x l ih =>
    rw [List.foldl_cons, ih]
    by_cases hj : j = x
    · subst hj
      cases f <;> simp
    · simp [hj]

lemma foldl_setAttrCtl_ipe (hart : IntHart) :
    (l.foldl (fun hart i =>
      (hart.setCLICInterruptField i .clicintattr a).setCLICInterruptField i .clicintctl c) hart).ipe =
      hart.ipe := by
  induction l generalizing hart with
  | nil => rfl
  | cons x l ih =>
    rw [List.foldl_cons, ih]
    rfl

end New

/-- **A new CLIC has exact caches**: nothing is enabled or cached, and every
interrupt is level-triggered and active-high with its latched bit clear. -/
lemma riscvNewCLIC_ipeGood (cfg : ClicConfig) (hart : IntHart) (i : ℕ) :
    (hart.riscvNewCLIC cfg).IpeGood i := by
  have hst := foldl_setAttrCtl_intState (Clicintattr.mode.set 0 RiscvMode.machine.toNat).toUInt8
    (UInt8.ofNat cfg.getCLICIntCtl1Bits) (List.range cfg.riscvGetIntNum)
    { hart with enableCLIC := true, intState := fun _ _ => 0, ipe := fun _ => 0 } i
  have hipe : (hart.riscvNewCLIC cfg).ipe = fun _ => 0 := foldl_setAttrCtl_ipe _ _ _ _
  have hip : (hart.riscvNewCLIC cfg).intState i .clicintip = 0 := by
    rw [riscvNewCLIC, hst]
    simp
  have hie : (hart.riscvNewCLIC cfg).intState i .clicintie = 0 := by
    rw [riscvNewCLIC, hst]
    simp
  -- the attribute is the Machine-mode default or zero: level-triggered, active-high
  have hattr : (hart.riscvNewCLIC cfg).intState i .clicintattr =
      if i ∈ List.range cfg.riscvGetIntNum then (Clicintattr.mode.set 0 RiscvMode.machine.toNat).toUInt8
      else 0 := by
    rw [riscvNewCLIC, hst]
    simp
  have hlow : (hart.riscvNewCLIC cfg).isCLICInterruptActiveLow i = false := by
    unfold isCLICInterruptActiveLow
    rw [hattr]
    split_ifs <;> decide
  refine ⟨?_, fun _ => ⟨hlow, hip⟩⟩
  unfold IpeExactAt getCLICPendingEnable getCLICInterruptEnable
  rw [hipe, Bitmap.get_zero, hie]
  simp

end IntHart

/-! ### The cluster -/

/-- The cluster `riscvNewCLIC` makes of its harts: `cliccfg.nvbits` as
configured and the rest of `cliccfg` zero. -/
def clicNew (cfg : ClicConfig) (harts : ℕ → IntHart) : Clic where
  cliccfg := Cliccfg.nvbits.set 0 (if cfg.CLICSELHVEC then 1 else 0)
  harts := fun k => (harts k).riscvNewCLIC cfg

/-- What reaches the interrupt state of a cluster's CLIC. -/
inductive ClicOp where
  /-- a change of input `i` of hart `k` (`interruptPortCB`) -/
  | input (k i : ℕ) (v : Bool)
  /-- a byte write to the CLIC's memory (`writeCLICInt`) -/
  | write (offset : ℕ) (v : UInt8)
  /-- hart `k` acknowledges interrupt `i` as it takes it (`riscvAcknowledgeCLICInt`) -/
  | ack (k i : ℕ)
  deriving DecidableEq, Repr

/-- Whether an operation is a software write of `clicintip` or
`clicintattr`, the two fields whose writes the cache does not follow. -/
def ClicOp.writesIpOrAttr : ClicOp → Bool
  | .write offset _ =>
      getCLICPage offset != 0 &&
        (getCLICIntFieldType offset == .clicintip || getCLICIntFieldType offset == .clicintattr)
  | _ => false

/-- One operation on a cluster. -/
def clicStep (cfg : ClicConfig) (c : Clic) : ClicOp → Clic
  | .input k i v =>
      { c with harts := Function.update c.harts k ((c.harts k).interruptPortCB cfg c.cliccfg i v) }
  | .write offset v => c.writeCLICInt cfg offset v
  | .ack k i =>
      { c with harts := Function.update c.harts k ((c.harts k).riscvAcknowledgeCLICInt cfg c.cliccfg i) }

/-- The property of a cluster: in every hart, the cache is exact below
`num_interrupt`. -/
def ClicIpeExact (cfg : ClicConfig) (c : Clic) : Prop :=
  ∀ k < cfg.getNumHarts, (c.harts k).IpeExact cfg.getIntNum

instance (cfg : ClicConfig) (c : Clic) : Decidable (ClicIpeExact cfg c) :=
  inferInstanceAs (Decidable (∀ k < cfg.getNumHarts, (c.harts k).IpeExact cfg.getIntNum))

/-- The invariant of a cluster: every interrupt of every hart is `IpeGood`. -/
def ClicIpeGood (c : Clic) : Prop := ∀ k i, (c.harts k).IpeGood i

section Invariant

variable (cfg : ClicConfig) {c : Clic}

lemma ClicIpeGood.ipeExact (hg : ClicIpeGood c) : ClicIpeExact cfg c :=
  fun k _ i _ => (hg k i).1

lemma clicNew_ipeGood (harts : ℕ → IntHart) : ClicIpeGood (clicNew cfg harts) :=
  fun k i => (harts k).riscvNewCLIC_ipeGood cfg i

/-- A hart replaced by one that keeps every cache keeps the invariant. -/
lemma ClicIpeGood.update (hg : ClicIpeGood c) (k : ℕ) {h : IntHart} (hh : ∀ i, h.IpeGood i) :
    ClicIpeGood { c with harts := Function.update c.harts k h } := by
  intro k' i
  dsimp only
  by_cases hk : k' = k
  · subst hk
    rw [Function.update_self]
    exact hh i
  · rw [Function.update_of_ne hk]
    exact hg k' i

lemma cliccfgW_ipeGood (hg : ClicIpeGood c) (v : UInt8) : ClicIpeGood (c.cliccfgW cfg v) := by
  unfold Clic.cliccfgW Clic.refreshCCLICInterruptAll
  dsimp only
  split_ifs <;>
    first
    | exact hg
    | exact fun k i => ((c.harts k).riscvTestInterrupt_ipeGood _ _ i).mpr (hg k i)

/-- A write of an enable or of control bits keeps the invariant. -/
lemma writeCLICInterrupt_ipeGood (hg : ClicIpeGood c) {o : ℕ}
    (ho : getCLICIntFieldType o = .clicintie ∨ getCLICIntFieldType o = .clicintctl) (v : UInt8) :
    ClicIpeGood (c.writeCLICInterrupt cfg o v) := by
  unfold Clic.writeCLICInterrupt
  split_ifs
  · refine hg.update _ fun j => ?_
    rcases ho with ho | ho
    · simp only [ho]
      exact (c.harts _).writeCLICInterruptEnable_ipeGood_of _ _ (hg _ j) _ v
    · simp only [ho]
      exact ((c.harts _).writeCLICInterruptCtl_ipeGood _ _ _ j v).mpr (hg _ j)
  · exact hg

lemma writeCLICInt_ipeGood (hg : ClicIpeGood c) {o : ℕ} {v : UInt8}
    (ho : (ClicOp.write o v).writesIpOrAttr = false) : ClicIpeGood (c.writeCLICInt cfg o v) := by
  unfold Clic.writeCLICInt
  by_cases hp : getCLICPage o ≠ 0
  · rw [if_pos hp]
    -- the field written is neither `clicintip` nor `clicintattr`
    have hf : getCLICIntFieldType o = .clicintie ∨ getCLICIntFieldType o = .clicintctl := by
      have hpage : (getCLICPage o != 0) = true := bne_iff_ne.mpr hp
      simp only [ClicOp.writesIpOrAttr, hpage, Bool.true_and, Bool.or_eq_false_iff] at ho
      cases hft : getCLICIntFieldType o <;> rw [hft] at ho
      · exact absurd ho.1 (by decide)
      · exact Or.inl rfl
      · exact absurd ho.2 (by decide)
      · exact Or.inr rfl
    exact writeCLICInterrupt_ipeGood cfg hg hf v
  · rw [if_neg hp]
    split_ifs
    · exact cliccfgW_ipeGood cfg hg v
    · exact hg

/-- **One step keeps the invariant**, in a cluster with an internal CLIC and
for every operation but a store to `clicintip` or `clicintattr`. -/
theorem clicStep_ipeGood (hI : cfg.CLICInternal = true) (hg : ClicIpeGood c) (op : ClicOp)
    (hop : op.writesIpOrAttr = false) : ClicIpeGood (clicStep cfg c op) := by
  cases op with
  | input k i v => exact hg.update k fun j => (c.harts k).interruptPortCB_ipeGood cfg _ hI (hg k j) i v
  | write o v => exact writeCLICInt_ipeGood cfg hg hop
  | ack k i => exact hg.update k fun j => (c.harts k).riscvAcknowledgeCLICInt_ipeGood cfg _ (hg k j) i

end Invariant

/-- **The cache is exact along every run without a store to `clicintip` or
`clicintattr`**: input changes, enable and control writes,
acknowledgements and `cliccfg` writes keep every cache of a new CLIC exact. -/
theorem clic_ipe_exact_of_no_ip_attr_writes (cfg : ClicConfig) (hI : cfg.CLICInternal = true)
    (harts : ℕ → IntHart) (ops : List ClicOp) (hops : ∀ op ∈ ops, op.writesIpOrAttr = false) :
    ClicIpeExact cfg (StepSystem.run (clicStep cfg) (clicNew cfg harts) ops) := by
  have hinv : ClicIpeGood (StepSystem.run (clicStep cfg) (clicNew cfg harts) ops) :=
    @StepSystem.run_invariant _ _ (clicStep cfg) (fun op => op.writesIpOrAttr = false) ClicIpeGood
      (fun _ op hop hg => clicStep_ipeGood cfg hI hg op hop) _ _ (clicNew_ipeGood cfg harts) hops
  exact hinv.ipeExact cfg

/-- **The cache of a new CLIC does not stay exact.**  Interrupt 64 of the
only hart of a cluster with 49 local interrupts is level-triggered and of
Machine mode.  A store of 1 to its `clicintie` enables it, its input is then
asserted, which caches it as pending and enabled, and a store of 0 to its
`clicintip` then clears the cached bit, although the asserted input keeps the
interrupt pending. -/
theorem clic_ipe_stale_after_pending_store :
    let cfg : ClicConfig := ⟨1, 49, 256, false, false, 0, false, 8, 0, false, 0⟩
    let hart : IntHart :=
      ⟨0, 0, 0, fun _ => 0, fun _ _ => 0, fun _ => 0, ⟨.user, 0, 0, false⟩, false, false, false⟩
    let c := StepSystem.run (clicStep cfg) (clicNew cfg fun _ => hart)
      [.write 4353 1, .input 0 64 true, .write 4352 0]
    (c.harts 0).getCLICInterruptPending 64 = true ∧ (c.harts 0).getCLICInterruptEnable 64 = true ∧
      (c.harts 0).getCLICPendingEnable 64 = false ∧ ¬ ClicIpeExact cfg c := by
  intro cfg hart c
  have hc : (c.harts 0).getCLICInterruptPending 64 = true ∧
      (c.harts 0).getCLICInterruptEnable 64 = true ∧ (c.harts 0).getCLICPendingEnable 64 = false := by
    decide +kernel
  refine ⟨hc.1, hc.2.1, hc.2.2, fun hx => ?_⟩
  have h64 := hx 0 (by decide) 64 (by decide)
  unfold IntHart.IpeExactAt at h64
  rw [hc.1, hc.2.1, hc.2.2] at h64
  exact absurd h64 (by decide)

end RiscvOvpsim
