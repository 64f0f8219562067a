import RiscvOvpsim.Pmp.Legal

/-!
The PMP memory domains as a cache of the privilege the PMP registers give
(`riscvVM.c`, "PHYSICAL MEMORY MANAGEMENT").

* `pmpMatch` and `pmpRefPriv`: the reference privilege of a physical address
  under the current registers.  The lowest-numbered active entry whose range
  contains the address decides; in Machine mode an unlocked match and no match
  give full access, in a lower mode no match gives none.
* `PmpDomainSound`: the Supervisor and Machine domains grant at most the
  reference privilege at every address.
* `pmpNew_sound`: the domains `createPMPDomain` allocates are sound, and
  `riscvVMResetPMP` leaves them so (`riscvVMResetPMP_pmpNew`).
* `invalidatePMPEntry_supervisor`: invalidating an active entry removes all
  Supervisor access to its range.
* `pmpDomain_stale_after_lower_bound_write`: the domains do not stay sound.  A
  write to `pmpaddr[i]` invalidates the ranges of entry `i` only, but it also
  moves the lower bound of entry `i+1` when that entry is in `TOR` mode, and an
  address that leaves entry `i+1` keeps the privilege the entry gave it.
-/

namespace RiscvOvpsim

variable (cfg : PmpConfig)

/-! ### Reference privilege -/

/-- Whether entry `i` is active and its range contains `a`. -/
def pmpEntryMatches (s : PmpState) (a : UInt64) (i : ℕ) : Bool :=
  getPMPRegionActive cfg s (getPMPCFGElem s i) i &&
    decide ((getPMPEntryBounds cfg s i).1 ≤ a ∧ a ≤ (getPMPEntryBounds cfg s i).2)

/-- The entry that decides the privilege of `a`: the lowest-numbered match. -/
def pmpMatch (s : PmpState) (a : UInt64) : Option ℕ :=
  (List.range cfg.numRegs).find? (pmpEntryMatches cfg s a)

/-- The privilege the PMP registers give mode `mode` at physical address `a`. -/
def pmpRefPriv (s : PmpState) (mode : RiscvMode) (a : UInt64) : MemPriv :=
  match pmpMatch cfg s a with
  | some i =>
      -- Machine mode is held to a matching entry only when the entry is locked
      if mode = .machine ∧ (getPMPCFGElem s i).L = false then MemPriv.RWX
      else (getPMPCFGElem s i).priv
  | none => if mode = .machine then MemPriv.RWX else MemPriv.none

/-- The domains of the Supervisor and Machine modes grant at most the reference
privilege, at every address, for data and for code. -/
def PmpDomainSound (s : PmpState) : Prop :=
  ∀ mode, (mode = .supervisor ∨ mode = .machine) → ∀ isCode a,
    s.domain mode isCode a ≤ pmpRefPriv cfg s mode a

/-! ### Allocation and reset -/

/-- With PMP registers implemented, the allocated domains grant nothing. -/
theorem pmpNew_sound (h : cfg.numRegs ≠ 0) : PmpDomainSound cfg (pmpNew cfg) := by
  intro mode _ isCode a
  simp [pmpNew, h]

lemma resetPMPEntry_of_clear {s : PmpState} {i : ℕ} (ha : s.pmpaddr i = 0)
    (hc : s.pmpcfg i = PmpcfgElem.zero) : resetPMPEntry cfg s i = s := by
  unfold resetPMPEntry
  rw [if_neg (by simp [ha, hc])]

/-- The reset of the allocated state changes nothing: every entry is already
clear, so no range is invalidated. -/
theorem riscvVMResetPMP_pmpNew : riscvVMResetPMP cfg (pmpNew cfg) = pmpNew cfg := by
  unfold riscvVMResetPMP
  -- each iteration meets a clear entry and leaves the state as it is
  induction List.range cfg.numRegs with
  | nil => rfl
  | cons i l ih =>
      rw [List.foldl_cons, resetPMPEntry_of_clear cfg rfl rfl, ih]

/-! ### Invalidation -/

lemma vmirtProtectMemory_none_le {d : UInt64 → MemPriv} {lo hi a : UInt64} {p : MemPriv}
    (hd : d a ≤ p) : vmirtProtectMemory d lo hi MemPriv.none a ≤ p := by
  unfold vmirtProtectMemory
  split_ifs
  · exact MemPriv.none_le p
  · exact hd

/-- `pmpProtect` with `updatePriv` grants at most `priv` inside the range: the
bytes it clears on either side only lose access. -/
lemma pmpProtect_le {d : UInt64 → MemPriv} {lo hi a : UInt64} (priv : MemPriv) (hlo : lo ≤ a)
    (hhi : a ≤ hi) : pmpProtect cfg d lo hi priv true a ≤ priv := by
  have h₀ : vmirtProtectMemory d lo hi priv a ≤ priv := by
    simp only [vmirtProtectMemory, hlo, hhi, and_self, if_true]
    exact MemPriv.le_refl' priv
  unfold pmpProtect
  dsimp only
  rw [if_pos rfl]
  split_ifs <;> (repeat' apply vmirtProtectMemory_none_le) <;> exact h₀

lemma setPMPPriv_domain_of_ne (s : PmpState) {mode mode' : RiscvMode} (h : mode' ≠ mode)
    (low high : UInt64) (priv : MemPriv) (updatePriv : Bool) :
    (setPMPPriv cfg s mode low high priv updatePriv).domain mode' = s.domain mode' := by
  unfold setPMPPriv
  split <;> exact Function.update_of_ne h _ _

/-- Setting no access on a range removes all access from both domains of the
mode there. -/
lemma setPMPPriv_none_le (s : PmpState) (mode : RiscvMode) {low high a : UInt64}
    (hlo : low ≤ a) (hhi : a ≤ high) (isCode : Bool) :
    (setPMPPriv cfg s mode low high MemPriv.none true).domain mode isCode a ≤ MemPriv.none := by
  unfold setPMPPriv
  dsimp only
  split
  · simp only [Function.update_self]
    exact pmpProtect_le cfg _ hlo hhi
  · -- split domains: both parts of no access are no access, and both are set
    cases isCode <;> simp only [Function.update_self, Bool.false_eq_true, true_or, or_true,
      ↓reduceIte] <;> exact pmpProtect_le cfg _ hlo hhi

/-- Invalidating an active entry whose range is not empty removes all
Supervisor access to that range. -/
theorem invalidatePMPEntry_supervisor {s : PmpState} {index : ℕ}
    (hact : getPMPRegionActive cfg s (getPMPCFGElem s index) index = true)
    {a : UInt64} (hlo : (getPMPEntryBounds cfg s index).1 ≤ a)
    (hhi : a ≤ (getPMPEntryBounds cfg s index).2) (isCode : Bool) :
    (invalidatePMPEntry cfg s index).domain .supervisor isCode a ≤ MemPriv.none := by
  unfold invalidatePMPEntry
  dsimp only
  rw [if_pos hact, if_pos (UInt64.le_trans hlo hhi),
    setPMPPriv_domain_of_ne cfg _ (by decide)]
  exact setPMPPriv_none_le cfg s .supervisor hlo hhi isCode

/-! ### A stale domain -/

/-- A write to `pmpaddr[i]` that moves the lower bound of a `TOR` entry `i+1`
leaves the addresses that leave the entry with the privilege it gave them.
Entry 1 is a `TOR` entry with full access over `[0, 0x3FFF]`, a Supervisor
read of address 0 maps that privilege, and the write `pmpaddr0 = 0x800` then
moves the entry to `[0x2000, 0x3FFF]`.  No entry covers address 0 any more, so
Supervisor mode has no access there, but its domain still grants all. -/
theorem pmpDomain_stale_after_lower_bound_write :
    let cfg : PmpConfig := ⟨16, 0, 32, false, 64, 32, true⟩
    let s := StepSystem.run (pmpStep cfg) (riscvVMResetPMP cfg (pmpNew cfg))
      [.writeCfg false false 0 0x0F00, .writeAddr false 1 0x1000,
        .map .supervisor MemPriv.R 0 0, .writeAddr false 0 0x800]
    pmpRefPriv cfg s .supervisor 0 = MemPriv.none ∧ s.domain .supervisor false 0 = MemPriv.RWX ∧
      ¬ PmpDomainSound cfg s := by
  intro cfg s
  have hpriv : pmpRefPriv cfg s .supervisor 0 = MemPriv.none ∧
      s.domain .supervisor false 0 = MemPriv.RWX := by decide
  refine ⟨hpriv.1, hpriv.2, fun hsound => ?_⟩
  have h := hsound .supervisor (Or.inl rfl) false 0
  rw [hpriv.1, hpriv.2] at h
  exact absurd h (by decide)

end RiscvOvpsim
