import RiscvOvpsim.Clic.Registers

/-!
The writes of a CLIC interrupt and of its input (`riscvCLIC.c`,
`riscvExceptions.c`): a software write of each of the four fields, a change
of the input, the acknowledgement of a taken interrupt, and the recomputation
of the cache `clic.ipe` after a restore.

The cache is kept incrementally: each writer of a pending or an enable bit
computes the new pending-and-enabled value from what it writes, compares it
with the cached bit and, on a change, updates the bit and tests for
interrupts.

* `writeCLICInterruptPending`, `writeCLICInterruptEnable`,
  `writeCLICInterruptAttr`, `writeCLICInterruptCtl`, `riscvUpdateCLICInput`,
  `riscvAcknowledgeCLICInt`, `refreshCLICIPE`, `interruptPortCB`: the model;
* `getCLICPendingEnable_writeCLICInterruptPending`,
  `getCLICPendingEnable_writeCLICInterruptEnable`: what the two writers of
  the cache leave in it;
* `FieldWrite`: what a write of one field may change, and the lemmas that
  each writer stays within it.
-/

namespace RiscvOvpsim

namespace IntHart

section Writes

variable (cfg : ClicConfig) (cliccfg : UInt64) (h : IntHart)

/-- `updateCLICInterruptField`: write a field and, on a change, test for
interrupts. -/
def updateCLICInterruptField (i : ℕ) (type : CLICIntFieldType) (newValue : UInt8) : IntHart :=
  if h.intState i type ≠ newValue then
    (h.setCLICInterruptField i type newValue).riscvTestInterrupt cfg cliccfg
  else h

/-- `setCLICInterruptPending`: only a store or an edge latches the bit. -/
def setCLICInterruptPending (i : ℕ) (newValue isStore : Bool) : IntHart :=
  if isStore || h.isCLICInterruptEdge i then
    h.setCLICInterruptField i .clicintip (if newValue then 1 else 0)
  else h

/-- `setCLICInterruptEnable`. -/
def setCLICInterruptEnable (i : ℕ) (newValue : Bool) : IntHart :=
  h.setCLICInterruptField i .clicintie (if newValue then 1 else 0)

/-- `updateCLICPendingEnable`: write the cached bit and test for interrupts. -/
def updateCLICPendingEnable (i : ℕ) (newIPE : Bool) : IntHart :=
  ({ h with ipe := Bitmap.set h.ipe i newIPE } : IntHart).riscvTestInterrupt cfg cliccfg

/-- `writeCLICInterruptPending`: write the pending bit, by a store or from the
input, and cache the enable and the written value. -/
def writeCLICInterruptPending (i : ℕ) (newValue : UInt8) (isStore : Bool) : IntHart :=
  let oldIE := h.getCLICInterruptEnable i
  let newIP := newValue &&& 1 != 0
  let oldIPE := h.getCLICPendingEnable i
  let h := h.setCLICInterruptPending i newIP isStore
  let newIPE := oldIE && newIP
  if oldIPE != newIPE then h.updateCLICPendingEnable cfg cliccfg i newIPE else h

/-- `writeCLICInterruptEnable`: write the enable bit and cache the pending
value and the written enable. -/
def writeCLICInterruptEnable (i : ℕ) (newValue : UInt8) : IntHart :=
  let oldIP := h.getCLICInterruptPending i
  let newIE := newValue &&& 1 != 0
  let oldIPE := h.getCLICPendingEnable i
  let h := h.setCLICInterruptEnable i newIE
  let newIPE := oldIP && newIE
  if oldIPE != newIPE then h.updateCLICPendingEnable cfg cliccfg i newIPE else h

/-- `writeCLICInterruptAttr`, from a page of mode `pageMode`: the reserved bits
are cleared, `shv` too without selective vectoring, and a mode the page may
not give or the configuration does not have becomes the page's mode. -/
def writeCLICInterruptAttr (i : ℕ) (newValue : UInt8) (pageMode : RiscvMode) : IntHart :=
  let clicintattr := newValue.toUInt64
  let intMode := RiscvMode.ofBits (Clicintattr.mode.get clicintattr)
  let clicintattr := Clicintattr.u1.set clicintattr 0
  let clicintattr :=
    if Cliccfg.nvbits.get cliccfg = 0 then Clicintattr.shv.set clicintattr 0 else clicintattr
  let intMode :=
    if pageMode < intMode ∨ cfg.CLICCFGMBITS = 0 ∨ intMode = .hypervisor ∨
        (cfg.CLICCFGMBITS < 2 ∧ intMode = .supervisor) ∨ (intMode = .user ∧ cfg.archN = false)
    then pageMode else intMode
  let clicintattr := Clicintattr.mode.set clicintattr intMode.toNat
  h.updateCLICInterruptField cfg cliccfg i .clicintattr clicintattr.toUInt8

/-- `writeCLICInterruptCtl`: the bits that read as one are set. -/
def writeCLICInterruptCtl (i : ℕ) (newValue : UInt8) : IntHart :=
  h.updateCLICInterruptField cfg cliccfg i .clicintctl (newValue ||| UInt8.ofNat cfg.getCLICIntCtl1Bits)

/-- `riscvUpdateCLICInput`: a change of the input, inverted for an active-low
interrupt; an edge-triggered interrupt sees only its assertion. -/
def riscvUpdateCLICInput (i : ℕ) (newValue : Bool) : IntHart :=
  let isEdge := h.isCLICInterruptEdge i
  let activeLow := h.isCLICInterruptActiveLow i
  let newValue := newValue ^^ activeLow
  if !isEdge || newValue then h.writeCLICInterruptPending cfg cliccfg i (if newValue then 1 else 0) false
  else h

/-- `riscvAcknowledgeCLICInt`: taking an edge-triggered interrupt clears it;
for any other the selection is refreshed. -/
def riscvAcknowledgeCLICInt (i : ℕ) : IntHart :=
  if cfg.CLICInternal && h.isCLICInterruptEdge i then h.writeCLICInterruptPending cfg cliccfg i 0 false
  else h.riscvRefreshPendingAndEnabled cfg cliccfg

/-- `refreshCLICIPE`: the cache recomputed from the fields and the inputs,
as after a restore. -/
def refreshCLICIPE : IntHart :=
  { h with
    ipe := (List.range cfg.getIntNum).foldl
      (fun ipe i =>
        if h.getCLICInterruptPending i && h.getCLICInterruptEnable i then Bitmap.set ipe i true else ipe)
      (fun _ => 0) }

/-- `riscvUpdatePending`: `mip` from the inputs and the software bits, and a
test on a change. -/
def riscvUpdatePending : IntHart :=
  let oldValue := h.mip
  let newValue := h.ip 0 ||| h.swip.toUInt64
  if oldValue ≠ newValue then ({ h with mip := newValue } : IntHart).riscvTestInterrupt cfg cliccfg
  else h

/-- `interruptPortCB`: a change of input `index`, seen by the internal CLIC
and by the basic controller when they are present. -/
def interruptPortCB (index : ℕ) (newValue : Bool) : IntHart :=
  let h : IntHart := { h with ip := Bitmap.set h.ip index newValue }
  let h := if cfg.CLICInternal then h.riscvUpdateCLICInput cfg cliccfg index newValue else h
  if cfg.basicICPresent then h.riscvUpdatePending cfg cliccfg else h

end Writes

/-! ### What a write leaves -/

section Spec

variable (cfg : ClicConfig) (cliccfg : UInt64) (h : IntHart)

/-- The pending value of an interrupt reads only its fields and the inputs. -/
lemma getCLICInterruptPending_congr {h' : IntHart} {i : ℕ} (hs : h'.intState i = h.intState i)
    (hip : h'.ip = h.ip) : h'.getCLICInterruptPending i = h.getCLICInterruptPending i := by
  unfold getCLICInterruptPending isCLICInterruptEdge
  rw [hs, hip]

lemma getCLICInterruptEnable_congr {h' : IntHart} {i : ℕ} (hs : h'.intState i = h.intState i) :
    h'.getCLICInterruptEnable i = h.getCLICInterruptEnable i := by
  unfold getCLICInterruptEnable
  rw [hs]

/-- A field write that changes nothing is no write. -/
lemma setCLICInterruptField_self (i : ℕ) (type : CLICIntFieldType) :
    h.setCLICInterruptField i type (h.intState i type) = h := by
  unfold setCLICInterruptField
  simp

lemma updateCLICInterruptField_intState (i : ℕ) (type : CLICIntFieldType) (v : UInt8) :
    (h.updateCLICInterruptField cfg cliccfg i type v).intState = (h.setCLICInterruptField i type v).intState := by
  unfold updateCLICInterruptField
  split_ifs with hv
  · rw [riscvTestInterrupt_intState]
  · rw [← not_not.mp hv, setCLICInterruptField_self]

lemma updateCLICInterruptField_ipe (i : ℕ) (type : CLICIntFieldType) (v : UInt8) :
    (h.updateCLICInterruptField cfg cliccfg i type v).ipe = h.ipe := by
  unfold updateCLICInterruptField
  split_ifs
  · rw [riscvTestInterrupt_ipe]
    rfl
  · rfl

lemma updateCLICInterruptField_ip (i : ℕ) (type : CLICIntFieldType) (v : UInt8) :
    (h.updateCLICInterruptField cfg cliccfg i type v).ip = h.ip := by
  unfold updateCLICInterruptField
  split_ifs
  · rw [riscvTestInterrupt_ip]
    rfl
  · rfl

lemma setCLICInterruptPending_ip (i : ℕ) (v isStore : Bool) :
    (h.setCLICInterruptPending i v isStore).ip = h.ip := by
  unfold setCLICInterruptPending
  split_ifs <;> rfl

lemma setCLICInterruptPending_ipe (i : ℕ) (v isStore : Bool) :
    (h.setCLICInterruptPending i v isStore).ipe = h.ipe := by
  unfold setCLICInterruptPending
  split_ifs <;> rfl

/-- The field writes of `writeCLICInterruptPending`: the pending bit, when it
is latched. -/
lemma intState_writeCLICInterruptPending (i : ℕ) (v : UInt8) (isStore : Bool) :
    (h.writeCLICInterruptPending cfg cliccfg i v isStore).intState =
      (h.setCLICInterruptPending i (v &&& 1 != 0) isStore).intState := by
  unfold writeCLICInterruptPending updateCLICPendingEnable
  dsimp only
  split_ifs
  · rw [riscvTestInterrupt_intState]
  · rfl

lemma ip_writeCLICInterruptPending (i : ℕ) (v : UInt8) (isStore : Bool) :
    (h.writeCLICInterruptPending cfg cliccfg i v isStore).ip = h.ip := by
  unfold writeCLICInterruptPending updateCLICPendingEnable
  dsimp only
  split_ifs
  · rw [riscvTestInterrupt_ip, setCLICInterruptPending_ip]
  · rw [setCLICInterruptPending_ip]

/-- The cache after the update both writers end with: bit `i` is the new
value, whether it changed or already held it. -/
lemma getCLICPendingEnable_update {h' : IntHart} (hipe : h'.ipe = h.ipe) (i : ℕ) (b : Bool)
    (j : ℕ) :
    (if h.getCLICPendingEnable i != b then h'.updateCLICPendingEnable cfg cliccfg i b
      else h').getCLICPendingEnable j = if j = i then b else h.getCLICPendingEnable j := by
  by_cases hc : (h.getCLICPendingEnable i != b) = true
  · -- the bit changes and is written
    rw [if_pos hc]
    simp only [getCLICPendingEnable, updateCLICPendingEnable, riscvTestInterrupt_ipe, hipe,
      Bitmap.get_set]
  · -- the bit already holds the new value
    rw [if_neg hc]
    have heq : h.getCLICPendingEnable i = b := by simpa using hc
    unfold getCLICPendingEnable at heq ⊢
    rw [hipe]
    by_cases hj : j = i
    · rw [if_pos hj, hj, heq]
    · rw [if_neg hj]

/-- **The cache after a write of the pending bit**: the enable and the
written value, whatever the trigger and the input. -/
lemma getCLICPendingEnable_writeCLICInterruptPending (i : ℕ) (v : UInt8) (isStore : Bool)
    (j : ℕ) :
    (h.writeCLICInterruptPending cfg cliccfg i v isStore).getCLICPendingEnable j =
      if j = i then h.getCLICInterruptEnable i && (v &&& 1 != 0) else h.getCLICPendingEnable j := by
  unfold writeCLICInterruptPending
  exact h.getCLICPendingEnable_update cfg cliccfg (h.setCLICInterruptPending_ipe i _ isStore) i _ j

lemma intState_writeCLICInterruptEnable (i : ℕ) (v : UInt8) :
    (h.writeCLICInterruptEnable cfg cliccfg i v).intState =
      (h.setCLICInterruptEnable i (v &&& 1 != 0)).intState := by
  unfold writeCLICInterruptEnable updateCLICPendingEnable
  dsimp only
  split_ifs
  · rw [riscvTestInterrupt_intState]
  · rfl

lemma ip_writeCLICInterruptEnable (i : ℕ) (v : UInt8) :
    (h.writeCLICInterruptEnable cfg cliccfg i v).ip = h.ip := by
  unfold writeCLICInterruptEnable updateCLICPendingEnable
  dsimp only
  split_ifs
  · rw [riscvTestInterrupt_ip]
    rfl
  · rfl

/-- **The cache after a write of the enable bit**: the pending value and the
written value. -/
lemma getCLICPendingEnable_writeCLICInterruptEnable (i : ℕ) (v : UInt8) (j : ℕ) :
    (h.writeCLICInterruptEnable cfg cliccfg i v).getCLICPendingEnable j =
      if j = i then h.getCLICInterruptPending i && (v &&& 1 != 0) else h.getCLICPendingEnable j := by
  have hipe : (h.setCLICInterruptEnable i (v &&& 1 != 0)).ipe = h.ipe := rfl
  unfold writeCLICInterruptEnable
  exact h.getCLICPendingEnable_update cfg cliccfg hipe i _ j

@[simp] lemma riscvUpdatePending_intState : (h.riscvUpdatePending cfg cliccfg).intState = h.intState := by
  unfold riscvUpdatePending
  dsimp only
  split_ifs <;> simp

@[simp] lemma riscvUpdatePending_ip : (h.riscvUpdatePending cfg cliccfg).ip = h.ip := by
  unfold riscvUpdatePending
  dsimp only
  split_ifs <;> simp

@[simp] lemma riscvUpdatePending_ipe : (h.riscvUpdatePending cfg cliccfg).ipe = h.ipe := by
  unfold riscvUpdatePending
  dsimp only
  split_ifs <;> simp

end Spec

/-! ### The footprint of a field write -/

/-- What a software write of field `f` of interrupt `i` may change: that field,
the cached bit of that interrupt, the selection and the halt. -/
structure FieldWrite (h h' : IntHart) (i : ℕ) (f : CLICIntFieldType) : Prop where
  intState_eq : ∀ j g, ¬ (j = i ∧ g = f) → h'.intState j g = h.intState j g
  ipe_eq : ∀ j, j ≠ i → Bitmap.get h'.ipe j = Bitmap.get h.ipe j
  ip_eq : h'.ip = h.ip
  mie_eq : h'.mie = h.mie
  mip_eq : h'.mip = h.mip
  swip_eq : h'.swip = h.swip
  enableCLIC_eq : h'.enableCLIC = h.enableCLIC
  DM_eq : h'.DM = h.DM

namespace FieldWrite

variable {h h' : IntHart} {i : ℕ} {f : CLICIntFieldType}

lemma refl (h : IntHart) (i : ℕ) (f : CLICIntFieldType) : FieldWrite h h i f :=
  ⟨fun _ _ _ => rfl, fun _ _ => rfl, rfl, rfl, rfl, rfl, rfl, rfl⟩

lemma setField (h : IntHart) (i : ℕ) (f : CLICIntFieldType) (v : UInt8) :
    FieldWrite h (h.setCLICInterruptField i f v) i f := by
  refine ⟨fun j g hjg => ?_, fun _ _ => rfl, rfl, rfl, rfl, rfl, rfl, rfl⟩
  rw [setCLICInterruptField_intState, if_neg hjg]

lemma test (hw : FieldWrite h h' i f) (cfg : ClicConfig) (cliccfg : UInt64) :
    FieldWrite h (h'.riscvTestInterrupt cfg cliccfg) i f := by
  obtain ⟨sel, WFI, heq⟩ := h'.riscvTestInterrupt_eq cfg cliccfg
  rw [heq]
  exact ⟨hw.intState_eq, hw.ipe_eq, hw.ip_eq, hw.mie_eq, hw.mip_eq, hw.swip_eq, hw.enableCLIC_eq, hw.DM_eq⟩

lemma setIpe (hw : FieldWrite h h' i f) (b : Bool) :
    FieldWrite h ({ h' with ipe := Bitmap.set h'.ipe i b } : IntHart) i f := by
  refine ⟨hw.intState_eq, fun j hj => ?_, hw.ip_eq, hw.mie_eq, hw.mip_eq, hw.swip_eq,
    hw.enableCLIC_eq, hw.DM_eq⟩
  rw [Bitmap.get_set, if_neg hj]
  exact hw.ipe_eq j hj

end FieldWrite

section Footprint

variable (cfg : ClicConfig) (cliccfg : UInt64) (h : IntHart)

lemma updateCLICInterruptField_fieldWrite (i : ℕ) (f : CLICIntFieldType) (v : UInt8) :
    FieldWrite h (h.updateCLICInterruptField cfg cliccfg i f v) i f := by
  unfold updateCLICInterruptField
  split_ifs
  · exact (FieldWrite.setField h i f v).test cfg cliccfg
  · exact FieldWrite.refl h i f

/-- A write of the pending bit writes at most the latched bit and the cached
bit. -/
lemma writeCLICInterruptPending_fieldWrite (i : ℕ) (v : UInt8) (isStore : Bool) :
    FieldWrite h (h.writeCLICInterruptPending cfg cliccfg i v isStore) i .clicintip := by
  have hset : FieldWrite h (h.setCLICInterruptPending i (v &&& 1 != 0) isStore) i .clicintip := by
    unfold setCLICInterruptPending
    by_cases hl : (isStore || h.isCLICInterruptEdge i) = true
    · rw [if_pos hl]
      exact FieldWrite.setField h i _ _
    · rw [if_neg hl]
      exact FieldWrite.refl h i _
  unfold writeCLICInterruptPending updateCLICPendingEnable
  dsimp only
  split_ifs
  · exact (hset.setIpe _).test cfg cliccfg
  · exact hset

lemma writeCLICInterruptEnable_fieldWrite (i : ℕ) (v : UInt8) :
    FieldWrite h (h.writeCLICInterruptEnable cfg cliccfg i v) i .clicintie := by
  have hset := FieldWrite.setField h i .clicintie (if (v &&& 1 != 0) then 1 else 0)
  unfold writeCLICInterruptEnable updateCLICPendingEnable setCLICInterruptEnable
  dsimp only
  by_cases hc : (h.getCLICPendingEnable i != (h.getCLICInterruptPending i && (v &&& 1 != 0))) = true
  · rw [if_pos hc]
    exact (hset.setIpe _).test cfg cliccfg
  · rw [if_neg hc]
    exact hset

lemma writeCLICInterruptAttr_fieldWrite (i : ℕ) (v : UInt8) (pageMode : RiscvMode) :
    FieldWrite h (h.writeCLICInterruptAttr cfg cliccfg i v pageMode) i .clicintattr :=
  h.updateCLICInterruptField_fieldWrite cfg cliccfg i _ _

lemma writeCLICInterruptCtl_fieldWrite (i : ℕ) (v : UInt8) :
    FieldWrite h (h.writeCLICInterruptCtl cfg cliccfg i v) i .clicintctl :=
  h.updateCLICInterruptField_fieldWrite cfg cliccfg i _ _

lemma riscvUpdateCLICInput_fieldWrite (i : ℕ) (v : Bool) :
    FieldWrite h (h.riscvUpdateCLICInput cfg cliccfg i v) i .clicintip := by
  unfold riscvUpdateCLICInput
  dsimp only
  by_cases hw : (!h.isCLICInterruptEdge i || (v ^^ h.isCLICInterruptActiveLow i)) = true
  · rw [if_pos hw]
    exact h.writeCLICInterruptPending_fieldWrite cfg cliccfg i _ false
  · rw [if_neg hw]
    exact FieldWrite.refl h i _

lemma riscvAcknowledgeCLICInt_fieldWrite (i : ℕ) :
    FieldWrite h (h.riscvAcknowledgeCLICInt cfg cliccfg i) i .clicintip := by
  unfold riscvAcknowledgeCLICInt
  split_ifs
  · exact h.writeCLICInterruptPending_fieldWrite cfg cliccfg i _ false
  · obtain ⟨sel, hsel⟩ := h.riscvRefreshPendingAndEnabled_eq cfg cliccfg
    rw [hsel]
    exact ⟨fun _ _ _ => rfl, fun _ _ => rfl, rfl, rfl, rfl, rfl, rfl, rfl⟩

end Footprint

end IntHart

end RiscvOvpsim
