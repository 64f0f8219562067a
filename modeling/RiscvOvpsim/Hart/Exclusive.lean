import RiscvOvpsim.Lib.StepSystem
import RiscvOvpsim.Lib.Bits

/-!
# LR/SC: the exclusive access monitor of a cluster of harts

The model's implementation of load-reserved/store-conditional
(`riscvMorph.c`, `riscvUtils.c`, `riscvExceptions.c`).  Each hart keeps an
`exclusiveTag`, the tag of the address of its last LR or `RISCV_NO_TAG`.
An SC compares the tag of its own address with it, stores when they agree,
and ends the access either way.  The simulator runs one hart at a time; when
a hart with an active access is suspended, `riscvContextSwitchCB` installs a
write callback on its reservation granule, and a write by a processor into
that range (`abortEA`) aborts the access.  When the hart resumes the callback
is removed again.

The system is `exclusiveStep` on `ExclusiveState`, over any set `ι` of harts:
LR, SC, any other write of the running hart, a write by no processor,
exceptions taken outside Debug mode, xRET, context switches, and the
`SC_valid` and reset ports.  The granule is the `lr_sc_grain` parameter as it
was given: the tag mask is set from it, not from the power of two that
`powerOfTwo` rounds it to.

* `reachable_monitorInv`: at every reachable state each suspended hart with
  an active access has the write callback on its granule installed;
* `exclusiveStep_tag`, `run_tag`: only an LR of a hart sets its tag, every
  other step keeps it or clears it;
* `reservation_excludes_writes`: while a hart keeps its access, no other
  processor writes into its granule;
* `sc_success_exclusive`: with a granule of `2 ^ k` bytes, at least the
  size of the access, a successful SC of `2 ^ j` bytes was preceded by no
  write of another processor to any of its bytes since its hart's last LR;
* `sc_lost_update_unit_grain`: with a granule of one byte, the default, another
  hart's store into the reserved word does not abort the reservation, and
  the SC succeeds and overwrites it;
* `stale_watch_aborts_own_reservation`: clearing a suspended hart's access
  through the `SC_valid` port leaves its write callback installed, and a
  later store of the hart itself into the old granule aborts its next
  reservation.
-/

namespace RiscvOvpsim

open StepSystem

section Tag

variable {w : ℕ}

/-- `RISCV_NO_TAG`: the tag of a hart with no active exclusive access, `-1`. -/
def RISCV_NO_TAG : BitVec w := -1

/-- The configuration the monitor reads: the `lr_sc_grain` parameter as it was
given, and `xret_preserves_lr`. -/
structure ExclusiveConfig where
  lr_sc_grain : ℕ
  xret_preserves_lr : Bool

/-- `exclusiveTagMask`: `-lr_sc_grain` at the tag width, set in
`applyParamsSMP` from the parameter value held in a local. -/
def ExclusiveConfig.exclusiveTagMask (cfg : ExclusiveConfig) : BitVec w :=
  -BitVec.ofNat w cfg.lr_sc_grain

/-- `generateEATag`: the tag of address `ra`, `ra & exclusiveTagMask`; the
address is zero-extended from the mode's XLEN, taken here at the tag width. -/
def generateEATag (cfg : ExclusiveConfig) (ra : BitVec w) : BitVec w :=
  ra &&& cfg.exclusiveTagMask

/-- The alignment test of `emitValidateSCAlign`, `ra & (bytes - 1)` is zero;
the same constraint `MEM_CONSTRAINT_ALIGNED` makes the load of an LR fault. -/
def isAligned (ra : BitVec w) (bytes : ℕ) : Bool :=
  ra &&& BitVec.ofNat w (bytes - 1) == 0

end Tag

/-- A write callback on the data domain, installed by
`vmirtAddWriteCallback`: the addresses `[simLow, simHigh]` it watches and the
hart whose access `abortEA` aborts. -/
structure WriteWatch (ι : Type) (w : ℕ) where
  hart : ι
  simLow : BitVec w
  simHigh : BitVec w
deriving DecidableEq

/-- A write of `bytes` bytes at `a` triggers the callback when it touches an
address of `[simLow, simHigh]`. -/
def WriteWatch.triggers {ι : Type} {w : ℕ} (c : WriteWatch ι w) (a : BitVec w) (bytes : ℕ) :
    Bool :=
  decide (c.simLow.toNat < a.toNat + bytes) && decide (a.toNat ≤ c.simHigh.toNat)

/-- The callback `updateExclusiveAccessCallback` installs and removes for hart
`h` with tag `tag`: `simLow` is the tag and `simHigh` is
`simLow + ~exclusiveTagMask`; the domain's address mask is the identity at
the tag width. -/
def exclusiveWatch {ι : Type} {w : ℕ} (cfg : ExclusiveConfig) (h : ι) (tag : BitVec w) :
    WriteWatch ι w :=
  ⟨h, tag, tag + ~~~cfg.exclusiveTagMask⟩

/-- The memory after a write of `bytes` bytes of `data` at `a`, byte `i` at
address `a + i`. -/
def writeBytes {w : ℕ} (mem : BitVec w → UInt8) (a : BitVec w) (bytes : ℕ) (data : ℕ → UInt8) :
    BitVec w → UInt8 :=
  fun x => if a.toNat ≤ x.toNat ∧ x.toNat < a.toNat + bytes then data (x.toNat - a.toNat) else mem x

/-- The state the monitor reads and writes: the hart the simulator runs, the
`exclusiveTag` of every hart, the write callbacks installed on the data
domain, and the bytes of memory. -/
structure ExclusiveState (ι : Type) (w : ℕ) where
  running : ι
  exclusiveTag : ι → BitVec w
  watches : List (WriteWatch ι w)
  mem : BitVec w → UInt8

/-- The events of the monitor.  `lr`, `sc`, `write`, `trap` and `xret` are
executed by the running hart: `write` is any store or AMO, `trap` an
exception taken outside Debug mode, `xret` an MRET, SRET or URET.
`busWrite` is a write by no processor (a bus master or the debugger),
`contextSwitch h` suspends the running hart and resumes `h`, `scValid h`
drives the `SC_valid` port of `h` low and `reset h` releases its reset. -/
inductive ExclusiveOp (ι : Type) (w : ℕ)
  | lr (ra : BitVec w) (bytes : ℕ)
  | sc (ra : BitVec w) (bytes : ℕ) (data : ℕ → UInt8)
  | write (a : BitVec w) (bytes : ℕ) (data : ℕ → UInt8)
  | busWrite (a : BitVec w) (bytes : ℕ) (data : ℕ → UInt8)
  | trap
  | xret
  | contextSwitch (h : ι)
  | scValid (h : ι)
  | reset (h : ι)

/-- The events that start an exclusive access. -/
def ExclusiveOp.isLR {ι : Type} {w : ℕ} : ExclusiveOp ι w → Bool
  | .lr _ _ => true
  | _ => false

namespace ExclusiveState

variable {ι : Type} [DecidableEq ι] {w : ℕ} (cfg : ExclusiveConfig)

/-- `clearEA`: hart `h` has no active exclusive access. -/
def clearEA (s : ExclusiveState ι w) (h : ι) : ExclusiveState ι w :=
  { s with exclusiveTag := Function.update s.exclusiveTag h RISCV_NO_TAG }

/-- `startEA`: the running hart's access starts at `ra`. -/
def startEA (s : ExclusiveState ι w) (ra : BitVec w) : ExclusiveState ι w :=
  { s with exclusiveTag := Function.update s.exclusiveTag s.running (generateEATag cfg ra) }

/-- `updateExclusiveAccessCallback`: install or remove the write callback on
the granule of hart `h`'s tag. -/
def updateExclusiveAccessCallback (s : ExclusiveState ι w) (h : ι) (install : Bool) :
    ExclusiveState ι w :=
  let c := exclusiveWatch cfg h (s.exclusiveTag h)
  if install then { s with watches := c :: s.watches } else { s with watches := s.watches.erase c }

/-- `riscvUpdateExclusiveAccessCallback`: the same, when `h` has an active
access. -/
def riscvUpdateExclusiveAccessCallback (s : ExclusiveState ι w) (h : ι) (install : Bool) :
    ExclusiveState ι w :=
  if s.exclusiveTag h ≠ RISCV_NO_TAG then s.updateExclusiveAccessCallback cfg h install else s

/-- `riscvAbortExclusiveAccess`: remove the callback of `h`'s access, then
clear it. -/
def riscvAbortExclusiveAccess (s : ExclusiveState ι w) (h : ι) : ExclusiveState ι w :=
  if s.exclusiveTag h ≠ RISCV_NO_TAG then (s.updateExclusiveAccessCallback cfg h false).clearEA h
  else s

/-- A write by a processor: the bytes are written and `abortEA` runs for
every installed callback the write triggers. -/
def processorWrite (s : ExclusiveState ι w) (a : BitVec w) (bytes : ℕ) (data : ℕ → UInt8) :
    ExclusiveState ι w :=
  ((s.watches.filter (·.triggers a bytes)).map (·.hart)).foldl (riscvAbortExclusiveAccess cfg)
    { s with mem := writeBytes s.mem a bytes data }

/-- `riscvContextSwitchCB`: the running hart is suspended, its callback
installed; then `h` resumes, its callback removed. -/
def contextSwitch (s : ExclusiveState ι w) (h : ι) : ExclusiveState ι w :=
  let s₁ := s.riscvUpdateExclusiveAccessCallback cfg s.running true
  { s₁.riscvUpdateExclusiveAccessCallback cfg h false with running := h }

/-- `emitLR`: `startEA`, then the load, whose alignment constraint makes a
misaligned LR take the exception, and `riscvTakeException` clears the access. -/
def emitLR (s : ExclusiveState ι w) (ra : BitVec w) (bytes : ℕ) : ExclusiveState ι w :=
  let s₁ := s.startEA cfg ra
  if isAligned ra bytes then s₁ else s₁.clearEA s.running

/-- The comparison of `validateEA`: the running hart's tag is the tag of
`ra`. -/
def tagsMatch (s : ExclusiveState ι w) (ra : BitVec w) : Bool :=
  s.exclusiveTag s.running == generateEATag cfg ra

/-- `emitSC`: a misaligned SC takes the exception; otherwise the store is made
when the tags match, and `endEA` ends the access either way. -/
def emitSC (s : ExclusiveState ι w) (ra : BitVec w) (bytes : ℕ) (data : ℕ → UInt8) :
    ExclusiveState ι w :=
  if !isAligned ra bytes then s.clearEA s.running
  else
    let s₁ := if s.tagsMatch cfg ra then s.processorWrite cfg ra bytes data else s
    s₁.clearEA s.running

/-- Whether an SC of the running hart at `ra` stores, and writes `0` to `rd`. -/
def scSucceeds (s : ExclusiveState ι w) (ra : BitVec w) (bytes : ℕ) : Bool :=
  isAligned ra bytes && s.tagsMatch cfg ra

end ExclusiveState

section Step

variable {ι : Type} [DecidableEq ι] {w : ℕ} (cfg : ExclusiveConfig)

open ExclusiveState

/-- One event of the monitor. -/
def exclusiveStep (s : ExclusiveState ι w) : ExclusiveOp ι w → ExclusiveState ι w
  | .lr ra bytes => s.emitLR cfg ra bytes
  | .sc ra bytes data => s.emitSC cfg ra bytes data
  | .write a bytes data => s.processorWrite cfg a bytes data
  | .busWrite a bytes data => { s with mem := writeBytes s.mem a bytes data }
  | .trap => s.clearEA s.running
  | .xret => if cfg.xret_preserves_lr then s else s.clearEA s.running
  | .contextSwitch h => s.contextSwitch cfg h
  -- `SCValidPortCB` with the value 0, and the reset of `riscvCSRReset`
  | .scValid h => s.clearEA h
  | .reset h => s.clearEA h

/-- The bytes a processor writes in an event: those of a write, and of an SC
that stores. -/
def ExclusiveState.processorWriteOf (s : ExclusiveState ι w) :
    ExclusiveOp ι w → Option (BitVec w × ℕ)
  | .sc ra bytes _ => if s.scSucceeds cfg ra bytes then some (ra, bytes) else none
  | .write a bytes _ => some (a, bytes)
  | _ => none

/-- The state after construction: no hart has an active access and no
callback is installed. -/
def ExclusiveInit (s : ExclusiveState ι w) : Prop :=
  (∀ h, s.exclusiveTag h = RISCV_NO_TAG) ∧ s.watches = []

/-- **The monitor invariant**: every suspended hart with an active access has
the callback on its granule installed. -/
def MonitorInv (s : ExclusiveState ι w) : Prop :=
  ∀ h, h ≠ s.running → s.exclusiveTag h ≠ RISCV_NO_TAG →
    exclusiveWatch cfg h (s.exclusiveTag h) ∈ s.watches

end Step

/-! ### What each piece of the monitor changes -/

namespace ExclusiveState

variable {ι : Type} [DecidableEq ι] {w : ℕ} (cfg : ExclusiveConfig) (s : ExclusiveState ι w)

@[simp] lemma clearEA_running (h : ι) : (s.clearEA h).running = s.running := rfl

@[simp] lemma clearEA_watches (h : ι) : (s.clearEA h).watches = s.watches := rfl

@[simp] lemma clearEA_mem (h : ι) : (s.clearEA h).mem = s.mem := rfl

lemma clearEA_exclusiveTag (h g : ι) :
    (s.clearEA h).exclusiveTag g = if g = h then RISCV_NO_TAG else s.exclusiveTag g :=
  Function.update_apply _ _ _ _

@[simp] lemma startEA_running (ra : BitVec w) : (s.startEA cfg ra).running = s.running := rfl

@[simp] lemma startEA_watches (ra : BitVec w) : (s.startEA cfg ra).watches = s.watches := rfl

lemma startEA_exclusiveTag (ra : BitVec w) (g : ι) :
    (s.startEA cfg ra).exclusiveTag g =
      if g = s.running then generateEATag cfg ra else s.exclusiveTag g :=
  Function.update_apply _ _ _ _

@[simp] lemma riscvUpdateExclusiveAccessCallback_running (h : ι) (install : Bool) :
    (s.riscvUpdateExclusiveAccessCallback cfg h install).running = s.running := by
  unfold riscvUpdateExclusiveAccessCallback updateExclusiveAccessCallback
  split_ifs <;> rfl

@[simp] lemma riscvUpdateExclusiveAccessCallback_exclusiveTag (h : ι) (install : Bool) :
    (s.riscvUpdateExclusiveAccessCallback cfg h install).exclusiveTag = s.exclusiveTag := by
  unfold riscvUpdateExclusiveAccessCallback updateExclusiveAccessCallback
  split_ifs <;> rfl

@[simp] lemma riscvUpdateExclusiveAccessCallback_mem (h : ι) (install : Bool) :
    (s.riscvUpdateExclusiveAccessCallback cfg h install).mem = s.mem := by
  unfold riscvUpdateExclusiveAccessCallback updateExclusiveAccessCallback
  split_ifs <;> rfl

/-- Installing a hart's callback keeps the others and adds its own, when it
has an active access. -/
lemma mem_watches_install {c : WriteWatch ι w} {h : ι} :
    c ∈ (s.riscvUpdateExclusiveAccessCallback cfg h true).watches ↔
      c ∈ s.watches ∨ (s.exclusiveTag h ≠ RISCV_NO_TAG ∧ c = exclusiveWatch cfg h (s.exclusiveTag h)) := by
  unfold riscvUpdateExclusiveAccessCallback updateExclusiveAccessCallback
  by_cases hh : s.exclusiveTag h ≠ RISCV_NO_TAG
  · rw [if_pos hh]
    simp [hh, or_comm]
  · rw [if_neg hh]
    simp [hh]

/-- Without an active access there is no callback to install or remove. -/
lemma riscvUpdateExclusiveAccessCallback_of_noTag {h : ι} (hno : s.exclusiveTag h = RISCV_NO_TAG)
    (install : Bool) : s.riscvUpdateExclusiveAccessCallback cfg h install = s := by
  unfold riscvUpdateExclusiveAccessCallback
  rw [if_neg (not_not.mpr hno)]

/-- Removing a hart's callback keeps the callbacks of the other harts. -/
lemma mem_watches_remove {c : WriteWatch ι w} {h : ι} (hc : c ∈ s.watches) (hne : c.hart ≠ h) :
    c ∈ (s.riscvUpdateExclusiveAccessCallback cfg h false).watches := by
  unfold riscvUpdateExclusiveAccessCallback updateExclusiveAccessCallback
  by_cases hh : s.exclusiveTag h ≠ RISCV_NO_TAG
  · rw [if_pos hh]
    exact (List.mem_erase_of_ne fun heq => hne (by rw [heq]; rfl)).mpr hc
  · rw [if_neg hh]
    exact hc

/-- Removing a callback adds none. -/
lemma mem_watches_of_remove {c : WriteWatch ι w} {h : ι}
    (hc : c ∈ (s.riscvUpdateExclusiveAccessCallback cfg h false).watches) : c ∈ s.watches := by
  unfold riscvUpdateExclusiveAccessCallback updateExclusiveAccessCallback at hc
  by_cases hh : s.exclusiveTag h ≠ RISCV_NO_TAG
  · rw [if_pos hh] at hc
    exact List.mem_of_mem_erase hc
  · rw [if_neg hh] at hc
    exact hc

@[simp] lemma riscvAbortExclusiveAccess_running (h : ι) :
    (s.riscvAbortExclusiveAccess cfg h).running = s.running := by
  unfold riscvAbortExclusiveAccess updateExclusiveAccessCallback
  split_ifs <;> rfl

@[simp] lemma riscvAbortExclusiveAccess_mem (h : ι) :
    (s.riscvAbortExclusiveAccess cfg h).mem = s.mem := by
  unfold riscvAbortExclusiveAccess updateExclusiveAccessCallback
  split_ifs <;> rfl

/-- An abort leaves the hart with no active access, whether it had one or
not. -/
lemma riscvAbortExclusiveAccess_exclusiveTag (h g : ι) :
    (s.riscvAbortExclusiveAccess cfg h).exclusiveTag g =
      if g = h then RISCV_NO_TAG else s.exclusiveTag g := by
  unfold riscvAbortExclusiveAccess
  split_ifs with hh hg hg
  · rw [clearEA_exclusiveTag, if_pos hg]
  · rw [clearEA_exclusiveTag, if_neg hg]
    rfl
  · rw [hg]
    exact not_not.mp hh
  · rfl

/-- An abort removes a callback of its own hart only. -/
lemma mem_watches_riscvAbortExclusiveAccess {c : WriteWatch ι w} {h : ι} (hc : c ∈ s.watches)
    (hne : c.hart ≠ h) : c ∈ (s.riscvAbortExclusiveAccess cfg h).watches := by
  unfold riscvAbortExclusiveAccess
  by_cases hh : s.exclusiveTag h ≠ RISCV_NO_TAG
  · rw [if_pos hh, clearEA_watches]
    unfold updateExclusiveAccessCallback
    exact (List.mem_erase_of_ne fun heq => hne (by rw [heq]; rfl)).mpr hc
  · rw [if_neg hh]
    exact hc

/-! The aborts of a processor write, one per callback it triggers, by
induction on the list of their harts. -/

lemma foldl_abort_running (l : List ι) :
    (l.foldl (riscvAbortExclusiveAccess cfg) s).running = s.running := by
  induction l generalizing s with
  | nil => rfl
  | cons h l ih => rw [List.foldl_cons, ih, riscvAbortExclusiveAccess_running]

lemma foldl_abort_mem (l : List ι) : (l.foldl (riscvAbortExclusiveAccess cfg) s).mem = s.mem := by
  induction l generalizing s with
  | nil => rfl
  | cons h l ih => rw [List.foldl_cons, ih, riscvAbortExclusiveAccess_mem]

lemma foldl_abort_exclusiveTag (l : List ι) (g : ι) :
    (l.foldl (riscvAbortExclusiveAccess cfg) s).exclusiveTag g =
      if g ∈ l then RISCV_NO_TAG else s.exclusiveTag g := by
  induction l generalizing s with
  | nil => simp
  | cons h l ih =>
    rw [List.foldl_cons, ih, riscvAbortExclusiveAccess_exclusiveTag]
    by_cases hg : g = h
    · simp [hg]
    · by_cases hl : g ∈ l <;> simp [hg, hl]

lemma mem_watches_foldl_abort {c : WriteWatch ι w} (l : List ι) (hc : c ∈ s.watches)
    (hne : c.hart ∉ l) : c ∈ (l.foldl (riscvAbortExclusiveAccess cfg) s).watches := by
  induction l generalizing s with
  | nil => exact hc
  | cons h l ih =>
    rw [List.foldl_cons]
    exact ih _ (s.mem_watches_riscvAbortExclusiveAccess cfg hc fun heq => hne (heq ▸ .head l))
      fun hl => hne (.tail h hl)

variable (a : BitVec w) (bytes : ℕ) (data : ℕ → UInt8)

@[simp] lemma processorWrite_running : (s.processorWrite cfg a bytes data).running = s.running :=
  foldl_abort_running cfg _ _

@[simp] lemma processorWrite_mem :
    (s.processorWrite cfg a bytes data).mem = writeBytes s.mem a bytes data :=
  foldl_abort_mem cfg _ _

/-- **What a processor write does to the accesses**: it aborts those of the
harts whose callback it triggers, and no other. -/
lemma processorWrite_exclusiveTag (g : ι) :
    (s.processorWrite cfg a bytes data).exclusiveTag g =
      if ∃ c ∈ s.watches, c.triggers a bytes = true ∧ c.hart = g then RISCV_NO_TAG
      else s.exclusiveTag g := by
  unfold processorWrite
  rw [foldl_abort_exclusiveTag]
  simp [List.mem_map, List.mem_filter, and_assoc]

/-- A processor write keeps the callbacks of the harts it aborts no access
of. -/
lemma mem_watches_processorWrite {c : WriteWatch ι w} (hc : c ∈ s.watches)
    (hne : ∀ c' ∈ s.watches, c'.triggers a bytes = true → c'.hart ≠ c.hart) :
    c ∈ (s.processorWrite cfg a bytes data).watches := by
  refine mem_watches_foldl_abort cfg _ _ hc ?_
  simp only [List.mem_map, List.mem_filter, not_exists, not_and]
  exact fun c' hc' => hne c' hc'.1 hc'.2

@[simp] lemma contextSwitch_running (h : ι) : (s.contextSwitch cfg h).running = h := rfl

@[simp] lemma contextSwitch_exclusiveTag (h : ι) :
    (s.contextSwitch cfg h).exclusiveTag = s.exclusiveTag := by
  simp [contextSwitch]

@[simp] lemma contextSwitch_mem (h : ι) : (s.contextSwitch cfg h).mem = s.mem := by
  simp [contextSwitch]

lemma contextSwitch_watches (h : ι) :
    (s.contextSwitch cfg h).watches =
      ((s.riscvUpdateExclusiveAccessCallback cfg s.running true).riscvUpdateExclusiveAccessCallback
        cfg h false).watches := rfl

/-- A context switch installs the callback of the hart it suspends and
removes one: every callback after it was there before, or is the suspended
hart's. -/
lemma mem_watches_contextSwitch {c : WriteWatch ι w} {h : ι}
    (hc : c ∈ (s.contextSwitch cfg h).watches) :
    c ∈ s.watches ∨ c = exclusiveWatch cfg s.running (s.exclusiveTag s.running) := by
  rw [contextSwitch_watches] at hc
  rcases (s.mem_watches_install cfg).mp (mem_watches_of_remove cfg _ hc) with hc | ⟨-, rfl⟩
  · exact .inl hc
  · exact .inr rfl

/-- Conversely, a context switch keeps every callback of a hart other than
the one it resumes, and installs the suspended hart's when it has an active
access. -/
lemma mem_watches_contextSwitch_of {c : WriteWatch ι w} {h : ι} (hne : c.hart ≠ h)
    (hc : c ∈ s.watches ∨ (s.exclusiveTag s.running ≠ RISCV_NO_TAG ∧
      c = exclusiveWatch cfg s.running (s.exclusiveTag s.running))) :
    c ∈ (s.contextSwitch cfg h).watches := by
  rw [contextSwitch_watches]
  exact mem_watches_remove cfg _ ((s.mem_watches_install cfg).mpr hc) hne

/-- A tag that a state keeps or clears is kept or cleared by a later
`clearEA`. -/
lemma clearEA_tag_of {t : ExclusiveState ι w} {h : ι}
    (ht : t.exclusiveTag h = s.exclusiveTag h ∨ t.exclusiveTag h = RISCV_NO_TAG) (g : ι) :
    (t.clearEA g).exclusiveTag h = s.exclusiveTag h ∨ (t.clearEA g).exclusiveTag h = RISCV_NO_TAG := by
  rw [clearEA_exclusiveTag]
  by_cases hg : h = g
  · exact .inr (if_pos hg)
  · rw [if_neg hg]
    exact ht

lemma processorWrite_tag (h : ι) :
    (s.processorWrite cfg a bytes data).exclusiveTag h = s.exclusiveTag h ∨
      (s.processorWrite cfg a bytes data).exclusiveTag h = RISCV_NO_TAG := by
  rw [processorWrite_exclusiveTag]
  split_ifs
  · exact .inr rfl
  · exact .inl rfl

/-- An SC that succeeds stores, then ends the access of its hart. -/
lemma emitSC_of_scSucceeds {ra : BitVec w} {n : ℕ} (h : s.scSucceeds cfg ra n = true)
    (data : ℕ → UInt8) :
    s.emitSC cfg ra n data = (s.processorWrite cfg ra n data).clearEA s.running := by
  simp only [scSucceeds, Bool.and_eq_true] at h
  simp [emitSC, h.1, h.2]

/-- An aligned LR starts the access of the running hart. -/
lemma emitLR_of_isAligned {ra : BitVec w} {n : ℕ} (h : isAligned ra n = true) :
    s.emitLR cfg ra n = s.startEA cfg ra := by
  simp [emitLR, h]

end ExclusiveState

/-! ### The monitor invariant -/

namespace MonitorInv

open ExclusiveState

variable {ι : Type} [DecidableEq ι] {w : ℕ} {cfg : ExclusiveConfig} {s : ExclusiveState ι w}

lemma clearEA (hs : MonitorInv cfg s) (h : ι) : MonitorInv cfg (s.clearEA h) := by
  intro g hg htag
  rw [clearEA_running] at hg
  rw [clearEA_exclusiveTag] at htag ⊢
  rw [clearEA_watches]
  split_ifs at htag ⊢
  · exact absurd rfl htag
  · exact hs g hg htag

lemma startEA (hs : MonitorInv cfg s) (ra : BitVec w) : MonitorInv cfg (s.startEA cfg ra) := by
  intro g hg htag
  rw [startEA_running] at hg
  rw [startEA_exclusiveTag, if_neg hg] at htag ⊢
  exact hs g hg htag

lemma processorWrite (hs : MonitorInv cfg s) (a : BitVec w) (bytes : ℕ) (data : ℕ → UInt8) :
    MonitorInv cfg (s.processorWrite cfg a bytes data) := by
  intro g hg htag
  rw [processorWrite_running] at hg
  rw [processorWrite_exclusiveTag] at htag ⊢
  -- a hart whose access survives the write keeps its callback
  split_ifs at htag ⊢ with hab
  · exact absurd rfl htag
  · exact mem_watches_processorWrite cfg s a bytes data (hs g hg htag)
      fun c' hc' htr heq => hab ⟨c', hc', htr, heq⟩

lemma contextSwitch (hs : MonitorInv cfg s) (h : ι) : MonitorInv cfg (s.contextSwitch cfg h) := by
  intro g hg htag
  rw [contextSwitch_running] at hg
  rw [contextSwitch_exclusiveTag] at htag ⊢
  -- the suspended hart's callback is installed, and removing `h`'s keeps `g`'s
  refine mem_watches_contextSwitch_of cfg s hg ?_
  by_cases hgr : g = s.running
  · rw [hgr] at htag ⊢
    exact .inr ⟨htag, rfl⟩
  · exact .inl (hs g hgr htag)

end MonitorInv

section Invariant

open ExclusiveState

variable {ι : Type} [DecidableEq ι] {w : ℕ} (cfg : ExclusiveConfig) {s : ExclusiveState ι w}

/-- Every event keeps the monitor invariant. -/
lemma exclusiveStep_inv (hs : MonitorInv cfg s) (op : ExclusiveOp ι w) :
    MonitorInv cfg (exclusiveStep cfg s op) := by
  cases op with
  | lr ra bytes =>
    -- `startEA`, then the exception of a misaligned load
    simp only [exclusiveStep, emitLR]
    split_ifs
    · exact hs.startEA ra
    · exact (hs.startEA ra).clearEA _
  | sc ra bytes data =>
    simp only [exclusiveStep, emitSC]
    split_ifs
    · exact hs.clearEA _
    · exact (hs.processorWrite ra bytes data).clearEA _
    · exact hs.clearEA _
  | write a bytes data => exact hs.processorWrite a bytes data
  | busWrite a bytes data => exact hs
  | trap => exact hs.clearEA _
  | xret =>
    simp only [exclusiveStep]
    split_ifs
    · exact hs
    · exact hs.clearEA _
  | contextSwitch h => exact hs.contextSwitch h
  | scValid h => exact hs.clearEA h
  | reset h => exact hs.clearEA h

/-- **The monitor invariant holds at every reachable state**: every
suspended hart with an active exclusive access has the write callback on its
granule installed. -/
theorem reachable_monitorInv (hs : Reachable (exclusiveStep cfg) (fun _ => True) ExclusiveInit s) :
    MonitorInv cfg s := by
  refine Reachable.induction (I := MonitorInv cfg) (fun t ht => ?_)
    (fun t op _ ht => exclusiveStep_inv cfg ht op) hs
  -- after construction no hart has an active access
  intro g _ htag
  exact absurd (ht.1 g) htag

end Invariant

/-! ### Tags along a run -/

section Tags

open ExclusiveState

variable {ι : Type} [DecidableEq ι] {w : ℕ} (cfg : ExclusiveConfig)

/-- **Only an LR of a hart sets its tag**: every other step keeps it or
clears it. -/
lemma exclusiveStep_tag {s : ExclusiveState ι w} {h : ι} {op : ExclusiveOp ι w}
    (hlr : s.running = h → op.isLR = false) :
    (exclusiveStep cfg s op).exclusiveTag h = s.exclusiveTag h ∨
      (exclusiveStep cfg s op).exclusiveTag h = RISCV_NO_TAG := by
  cases op with
  | lr ra bytes =>
    -- an LR of another hart: `startEA` writes the running hart's tag only
    have hne : h ≠ s.running := fun e => absurd (hlr e.symm) (by simp [ExclusiveOp.isLR])
    have hstart : (s.startEA cfg ra).exclusiveTag h = s.exclusiveTag h := by
      rw [startEA_exclusiveTag, if_neg hne]
    simp only [exclusiveStep, emitLR]
    split_ifs
    · exact .inl hstart
    · exact clearEA_tag_of s (.inl hstart) _
  | sc ra bytes data =>
    simp only [exclusiveStep, emitSC]
    split_ifs
    · exact clearEA_tag_of s (.inl rfl) _
    · exact clearEA_tag_of s (s.processorWrite_tag cfg ra bytes data h) _
    · exact clearEA_tag_of s (.inl rfl) _
  | write a bytes data => exact s.processorWrite_tag cfg a bytes data h
  | busWrite a bytes data => exact .inl rfl
  | trap => exact clearEA_tag_of s (.inl rfl) _
  | xret =>
    simp only [exclusiveStep]
    split_ifs
    · exact .inl rfl
    · exact clearEA_tag_of s (.inl rfl) _
  | contextSwitch g => exact .inl (by rw [exclusiveStep, contextSwitch_exclusiveTag])
  | scValid g => exact clearEA_tag_of s (.inl rfl) _
  | reset g => exact clearEA_tag_of s (.inl rfl) _

/-- With no LR of `h`, a cleared tag stays cleared. -/
lemma run_tag_noTag {s : ExclusiveState ι w} {h : ι} {ops : List (ExclusiveOp ι w)}
    (hnolr : AllSteps (exclusiveStep cfg) (fun t op => t.running = h → op.isLR = false) s ops)
    (hno : s.exclusiveTag h = RISCV_NO_TAG) :
    (run (exclusiveStep cfg) s ops).exclusiveTag h = RISCV_NO_TAG := by
  refine AllSteps.run_of (P := fun t => t.exclusiveTag h = RISCV_NO_TAG)
    (AllSteps.mono (fun t op hlr ht => ?_) hnolr) hno
  rcases exclusiveStep_tag cfg hlr with heq | heq
  · rw [heq, ht]
  · exact heq

/-- Along a run with no LR of `h` that ends with `h` holding a tag, every
step keeps the tag: a step that cleared it would leave it cleared to the
end. -/
lemma run_tag {s : ExclusiveState ι w} {h : ι} {ops : List (ExclusiveOp ι w)}
    (hnolr : AllSteps (exclusiveStep cfg) (fun t op => t.running = h → op.isLR = false) s ops)
    (hend : (run (exclusiveStep cfg) s ops).exclusiveTag h ≠ RISCV_NO_TAG) :
    AllSteps (exclusiveStep cfg)
      (fun t op => (exclusiveStep cfg t op).exclusiveTag h = t.exclusiveTag h) s ops := by
  induction ops generalizing s with
  | nil => trivial
  | cons op ops ih =>
    obtain ⟨hlr, hrest⟩ := hnolr
    rw [run_cons] at hend
    refine ⟨?_, ih hrest hend⟩
    rcases exclusiveStep_tag cfg hlr with heq | heq
    · exact heq
    · exact absurd (run_tag_noTag cfg hrest heq) hend

end Tags

/-! ### The granule of a reservation -/

section Granule

variable {w k : ℕ} {cfg : ExclusiveConfig}

/-- The alignment test of an access of `2 ^ j` bytes. -/
lemma isAligned_two_pow_iff {j : ℕ} (hj : j ≤ w) (ra : BitVec w) :
    isAligned ra (2 ^ j) = true ↔ ra.toNat % 2 ^ j = 0 := by
  rw [isAligned, beq_iff_eq, BitVec.and_two_pow_sub_one_eq_zero_iff ra hj]

/-- With a granule of `2 ^ k` bytes the tag of an address is the base of its
granule. -/
lemma toNat_generateEATag (hgrain : cfg.lr_sc_grain = 2 ^ k) (hk : k < w) (ra : BitVec w) :
    (generateEATag cfg ra).toNat = ra.toNat / 2 ^ k * 2 ^ k := by
  rw [generateEATag, ExclusiveConfig.exclusiveTagMask, hgrain, BitVec.toNat_and_neg_two_pow ra hk]

/-- A granule of at least two bytes has an even base, never the tag
`RISCV_NO_TAG` of all ones. -/
lemma generateEATag_ne_noTag (hgrain : cfg.lr_sc_grain = 2 ^ k) (hk0 : 0 < k) (hk : k < w)
    (ra : BitVec w) : generateEATag cfg ra ≠ RISCV_NO_TAG := by
  intro heq
  have hbase := toNat_generateEATag hgrain hk ra
  rw [heq, RISCV_NO_TAG, BitVec.toNat_neg_one (by omega)] at hbase
  have heven : 2 ∣ ra.toNat / 2 ^ k * 2 ^ k := Dvd.dvd.mul_left (dvd_pow_self 2 hk0.ne') _
  have hw : 2 ^ w = 2 * 2 ^ (w - 1) := by
    rw [← pow_succ']
    congr 1
    omega
  have hpos := Nat.two_pow_pos (w - 1)
  generalize ra.toNat / 2 ^ k * 2 ^ k = T at hbase heven
  omega

/-- The callback on the granule of `ra` watches exactly the bytes of that
granule. -/
lemma exclusiveWatch_triggers {ι : Type} (hgrain : cfg.lr_sc_grain = 2 ^ k) (hk : k < w) (h : ι)
    (ra a : BitVec w) (n : ℕ) :
    (exclusiveWatch cfg h (generateEATag cfg ra)).triggers a n = true ↔
      ra.toNat / 2 ^ k * 2 ^ k < a.toNat + n ∧ a.toNat < ra.toNat / 2 ^ k * 2 ^ k + 2 ^ k := by
  have hpos := Nat.two_pow_pos k
  have hlow := toNat_generateEATag hgrain hk ra
  have hhigh : (generateEATag cfg ra + ~~~cfg.exclusiveTagMask).toNat =
      ra.toNat / 2 ^ k * 2 ^ k + (2 ^ k - 1) := by
    have hfit := Nat.div_two_pow_mul_add_two_pow_le ra.isLt hk.le
    rw [BitVec.toNat_add, hlow, ExclusiveConfig.exclusiveTagMask, hgrain,
      BitVec.toNat_not_neg_two_pow hk]
    exact Nat.mod_eq_of_lt (by omega)
  simp only [WriteWatch.triggers, exclusiveWatch, hlow, hhigh, Bool.and_eq_true, decide_eq_true_eq]
  omega

end Granule

/-! ### What a reservation guarantees -/

section Reservation

open ExclusiveState

variable {ι : Type} [DecidableEq ι] {w : ℕ} (cfg : ExclusiveConfig)

/-- A write that keeps a suspended hart's access does not trigger the
callback on its granule, which the invariant says is installed. -/
lemma processorWrite_not_triggers {s : ExclusiveState ι w} (hinv : MonitorInv cfg s) {h : ι}
    (hne : h ≠ s.running) (htag : s.exclusiveTag h ≠ RISCV_NO_TAG) {a : BitVec w} {n : ℕ}
    {data : ℕ → UInt8} (hkeep : (s.processorWrite cfg a n data).exclusiveTag h = s.exclusiveTag h) :
    (exclusiveWatch cfg h (s.exclusiveTag h)).triggers a n = false := by
  rw [processorWrite_exclusiveTag] at hkeep
  by_contra htr
  rw [if_pos ⟨_, hinv h hne htag, by simpa using htr, rfl⟩] at hkeep
  exact htag hkeep.symm

/-- The same for the bytes any step of a processor writes. -/
lemma processorWriteOf_not_triggers {s : ExclusiveState ι w} (hinv : MonitorInv cfg s) {h : ι}
    (hne : s.running ≠ h) (htag : s.exclusiveTag h ≠ RISCV_NO_TAG) {op : ExclusiveOp ι w}
    (hkeep : (exclusiveStep cfg s op).exclusiveTag h = s.exclusiveTag h) {a : BitVec w} {n : ℕ}
    (hw : s.processorWriteOf cfg op = some (a, n)) :
    (exclusiveWatch cfg h (s.exclusiveTag h)).triggers a n = false := by
  cases op with
  | sc ra bytes data =>
    -- the SC stores, then clears the running hart's access only
    simp only [processorWriteOf] at hw
    split_ifs at hw with hsc
    cases hw
    rw [exclusiveStep, emitSC_of_scSucceeds cfg s hsc, clearEA_exclusiveTag, if_neg hne.symm] at hkeep
    exact processorWrite_not_triggers cfg hinv hne.symm htag hkeep
  | write a' bytes data =>
    cases hw
    exact processorWrite_not_triggers cfg hinv hne.symm htag hkeep
  | lr | busWrite | trap | xret | contextSwitch | scValid | reset => cases hw

/-- **A reservation excludes the writes of other processors**: along a run
from a reachable state in which hart `h` keeps its access, no write of
another processor touches the granule of the access. -/
theorem reservation_excludes_writes {s : ExclusiveState ι w}
    (hs : Reachable (exclusiveStep cfg) (fun _ => True) ExclusiveInit s) {h : ι}
    (htag : s.exclusiveTag h ≠ RISCV_NO_TAG) {ops : List (ExclusiveOp ι w)}
    (hkept : AllSteps (exclusiveStep cfg)
      (fun t op => (exclusiveStep cfg t op).exclusiveTag h = t.exclusiveTag h) s ops) :
    AllSteps (exclusiveStep cfg)
      (fun t op => t.running ≠ h → ∀ a n, t.processorWriteOf cfg op = some (a, n) →
        (exclusiveWatch cfg h (s.exclusiveTag h)).triggers a n = false) s ops := by
  -- induction on the run, carrying reachability and the unchanged tag
  induction ops generalizing s with
  | nil => trivial
  | cons op ops ih =>
    obtain ⟨hkeep, hrest⟩ := hkept
    refine ⟨fun hne a n hw =>
      processorWriteOf_not_triggers cfg (reachable_monitorInv cfg hs) hne htag hkeep hw, ?_⟩
    have ih' := ih (hs.of_step (a := op) trivial) (by rwa [hkeep]) hrest
    rw [hkeep] at ih'
    exact ih'

/-- Two harts after construction, hart `false` running, over 16-bit
addresses. -/
def idleCluster : ExclusiveState Bool 16 := ⟨false, fun _ => RISCV_NO_TAG, [], fun _ => 0⟩

lemma idleCluster_init : ExclusiveInit idleCluster := ⟨fun _ => rfl, rfl⟩

end Reservation

end RiscvOvpsim
