import RiscvOvpsim.Hart.Trap
import RiscvOvpsim.Lib.StepSystem

/-!
The data domain and `mstatus.MPRV` (`riscvVM.c`, `riscvVMRefreshMPRVDomain`).

Loads and stores go through the data domain the simulator set last.
`riscvVMRefreshMPRVDomain` chooses it, with `riscv->dmode`, from the current
mode, Debug mode, `mstatus.MPRV` and `MPP`, `dcsr.mprven` and `satp.MODE`;
the choice is cached, and kept current only by the calls of the refresh in
`statusW` and `riscvSetMode`.

* `mprvSelect`: the mode and domain the state selects, and `DomainCurrent`:
  the data domain and `dmode` are that selection;
* `hartStep_current`: every operation but a `dcsr` write and a reset keeps the
  domain current, so every run of them from a new hart does (`run_current`);
  `dcsrWInt_current`: so does a `dcsr` write that cannot change the selection;
* `domain_stale_after_mprven_write`: a `dcsr` write in Debug mode that sets
  `mprven` while `mstatus.MPRV = 1` leaves loads and stores in the Machine
  mode domain, while the selection is the domain of `mstatus.MPP`;
  `domain_stale_after_reset`: a reset refreshes before it clears `MPRV`, and
  leaves them in the domain of `MPP`.
-/

namespace RiscvOvpsim

section Selection

variable {Dom : Type} (cfg : HartConfig Dom)

/-- The mode loads and stores must use: `mstatus.MPP`, clamped to an
implemented mode, when `MPRV` is set and, in Debug mode, `dcsr.mprven` too;
else the current mode. -/
def mprvMode (s : Hart Dom) : RiscvMode :=
  if flag Mstatus.MPRV s.mstatus = true ∧ (s.DM = true → flag Dcsr.mprven s.dcsr = true) then
    if riscvHasMode cfg.modes (RiscvMode.ofBits (Mstatus.MPP.get s.mstatus)) then
      RiscvMode.ofBits (Mstatus.MPP.get s.mstatus)
    else riscvGetMinMode cfg.modes
  else s.mode

/-- The domain of mode `E`: its virtual domain when `satp.MODE` is not Bare and
that domain exists, else its physical domain. -/
def mprvDomain (satpMODE : ℕ) (E : RiscvMode) : Dom :=
  if satpMODE ≠ 0 then
    match cfg.vmDomain E with
    | some d => d
    | none => cfg.physDomain E
  else cfg.physDomain E

/-- The mode and domain loads and stores must use in a state. -/
def mprvSelect (s : Hart Dom) : RiscvMode × Dom :=
  (mprvMode cfg s, mprvDomain cfg s.satpMODE (mprvMode cfg s))

/-- The data domain and `dmode` are the selection of the state. -/
def DomainCurrent (s : Hart Dom) : Prop :=
  s.dmode = (mprvSelect cfg s).1 ∧ s.dataDomain = (mprvSelect cfg s).2

lemma getMPRV_iff (s : Hart Dom) :
    getMPRV s = true ↔
      flag Mstatus.MPRV s.mstatus = true ∧ (s.DM = true → flag Dcsr.mprven s.dcsr = true) := by
  unfold getMPRV
  cases s.DM <;> simp

lemma getD_eq_mprvDomain (satpMODE : ℕ) (E : RiscvMode) :
    (if satpMODE ≠ 0 then cfg.vmDomain E else none).getD (cfg.physDomain E) =
      mprvDomain cfg satpMODE E := by
  unfold mprvDomain
  by_cases h : satpMODE ≠ 0
  · rw [if_pos h, if_pos h]
    cases cfg.vmDomain E <;> rfl
  · rw [if_neg h, if_neg h]
    rfl

/-- **The refresh makes the domain current**, whatever it was. -/
theorem refresh_current (s : Hart Dom) : DomainCurrent cfg (riscvVMRefreshMPRVDomain cfg s) := by
  have hmode : (if getMPRV s then
      (if riscvHasMode cfg.modes (RiscvMode.ofBits (Mstatus.MPP.get s.mstatus)) then
        RiscvMode.ofBits (Mstatus.MPP.get s.mstatus) else riscvGetMinMode cfg.modes)
      else s.mode) = mprvMode cfg s := by
    simp only [mprvMode, getMPRV_iff]
  -- the refresh writes only `dmode` and the domain, which the selection does not read
  have hsel : mprvMode cfg (riscvVMRefreshMPRVDomain cfg s) = mprvMode cfg s := rfl
  refine ⟨?_, ?_⟩
  · rw [mprvSelect, hsel, ← hmode]
    rfl
  · rw [mprvSelect, hsel, ← hmode, ← getD_eq_mprvDomain]
    rfl

lemma riscvSetMode_current (s : Hart Dom) (mode : RiscvMode) :
    DomainCurrent cfg (riscvSetMode cfg s mode) :=
  refresh_current cfg _

/-- The selection reads the mode, Debug mode, `mstatus`, `satp.MODE` and, in
Debug mode, `dcsr`; a state that agrees on those, `dmode` and the domain is
as current as the other. -/
lemma DomainCurrent.congr {s t : Hart Dom} (hs : DomainCurrent cfg s) (hmode : t.mode = s.mode)
    (hDM : t.DM = s.DM) (hst : t.mstatus = s.mstatus) (hsatp : t.satpMODE = s.satpMODE)
    (hdcsr : s.DM = true → t.dcsr = s.dcsr) (hdmode : t.dmode = s.dmode)
    (hdom : t.dataDomain = s.dataDomain) : DomainCurrent cfg t := by
  have hsel : mprvMode cfg t = mprvMode cfg s := by
    unfold mprvMode
    rw [hmode, hDM, hst]
    cases hd : s.DM
    · simp
    · rw [hdcsr hd]
  unfold DomainCurrent mprvSelect
  rw [hsel, hdmode, hdom, hsatp]
  exact hs

/-- A jump changes nothing the selection reads. -/
lemma current_with_pc {s : Hart Dom} (hs : DomainCurrent cfg s) (pc : UInt64) :
    DomainCurrent cfg { s with pc := pc } := hs

/-- A return jumps after its mode switch, which keeps the domain current. -/
lemma doERETCommon_current (s : Hart Dom) (newMode : RiscvMode) (epc : UInt64) :
    DomainCurrent cfg (doERETCommon cfg s newMode epc) :=
  current_with_pc cfg (riscvSetMode_current cfg s newMode) _

/-- Traps, returns and the entry to Debug mode do nothing in Debug mode, so
such a guarded operation keeps the domain current when its other branch
does. -/
lemma DomainCurrent.ite_DM {s t : Hart Dom} (hs : DomainCurrent cfg s)
    (ht : ¬ s.DM = true → DomainCurrent cfg t) :
    DomainCurrent cfg (if s.DM = true then s else t) := by
  by_cases hDM : s.DM = true
  · rw [if_pos hDM]
    exact hs
  · rw [if_neg hDM]
    exact ht hDM

lemma riscvTakeException_current {s : Hart Dom} (hs : DomainCurrent cfg s) (isInt : Bool)
    (ecode : ℕ) (EPC tval : UInt64) :
    DomainCurrent cfg (riscvTakeException cfg s isInt ecode EPC tval) := by
  unfold riscvTakeException
  -- the jump to the handler comes after the mode switch
  exact hs.ite_DM cfg fun _ => current_with_pc cfg (riscvSetMode_current cfg _ _) _

lemma riscvMRET_current {s : Hart Dom} (hs : DomainCurrent cfg s) :
    DomainCurrent cfg (riscvMRET cfg s) := by
  unfold riscvMRET
  exact hs.ite_DM cfg fun _ => doERETCommon_current cfg _ _ _

lemma riscvSRET_current {s : Hart Dom} (hs : DomainCurrent cfg s) :
    DomainCurrent cfg (riscvSRET cfg s) := by
  unfold riscvSRET
  exact hs.ite_DM cfg fun _ => doERETCommon_current cfg _ _ _

lemma riscvURET_current {s : Hart Dom} (hs : DomainCurrent cfg s) :
    DomainCurrent cfg (riscvURET cfg s) := by
  unfold riscvURET
  exact hs.ite_DM cfg fun _ => doERETCommon_current cfg _ _ _

lemma enterDM_current {s : Hart Dom} (hs : DomainCurrent cfg s) (cause : ℕ) (EPC : UInt64) :
    DomainCurrent cfg (enterDM cfg s cause EPC) := by
  unfold enterDM
  exact hs.ite_DM cfg fun _ => riscvSetMode_current cfg _ _

lemma leaveDM_current (s : Hart Dom) : DomainCurrent cfg (leaveDM cfg s) :=
  doERETCommon_current cfg _ _ _

lemma riscvSetDM_current {s : Hart Dom} (hs : DomainCurrent cfg s) (DM : Bool) (EPC : UInt64) :
    DomainCurrent cfg (riscvSetDM cfg s DM EPC) := by
  unfold riscvSetDM
  by_cases hsame : s.DM = DM
  · rw [if_pos hsame]
    exact hs
  · rw [if_neg hsame]
    cases DM
    · exact leaveDM_current cfg s
    · exact enterDM_current cfg hs _ _

/-- The operations that end in a refresh of the domain, or change no input of
the selection: all but `dcsr` writes and resets. -/
def HartOp.Refreshes : HartOp → Prop
  | .writeDcsr _ _ => False
  | .reset => False
  | _ => True

/-- **Every operation but a `dcsr` write and a reset keeps the domain
current**: each one that changes an input of the selection ends in a
refresh, and the others change nothing the selection reads. -/
theorem hartStep_current {s : Hart Dom} (hs : DomainCurrent cfg s) {op : HartOp}
    (hop : op.Refreshes) : DomainCurrent cfg (hartStep cfg s op) := by
  cases op with
  | writeStatus newValue mask => exact refresh_current cfg _
  | writeSatp targetMode =>
      show DomainCurrent cfg (satpW cfg s targetMode)
      unfold satpW
      split_ifs
      · exact hs
      · exact riscvSetMode_current cfg _ _
  | writeDcsr newValue updateCause => exact hop.elim
  | takeException isInt ecode EPC tval => exact riscvTakeException_current cfg hs _ _ _ _
  | mret => exact riscvMRET_current cfg hs
  | sret => exact riscvSRET_current cfg hs
  | uret => exact riscvURET_current cfg hs
  | enterDebug cause EPC => exact enterDM_current cfg hs _ _
  | leaveDebug => exact riscvSetDM_current cfg hs _ _
  | setMode mode => exact riscvSetMode_current cfg _ _
  | reset => exact hop.elim

/-- A `dcsr` write keeps the domain current when it cannot change the
selection: out of Debug mode, with `MPRV` clear, or with `mprven` as it was. -/
theorem dcsrWInt_current {s : Hart Dom} (hs : DomainCurrent cfg s) (newValue : UInt64)
    (updateCause : Bool)
    (h : s.DM = false ∨ flag Mstatus.MPRV s.mstatus = false ∨
      flag Dcsr.mprven (dcsrWInt cfg s newValue updateCause).dcsr = flag Dcsr.mprven s.dcsr) :
    DomainCurrent cfg (dcsrWInt cfg s newValue updateCause) := by
  have hmode : mprvMode cfg (dcsrWInt cfg s newValue updateCause) = mprvMode cfg s := by
    unfold mprvMode
    rcases h with h | h | h
    · simp [dcsrWInt, h]
    · simp [dcsrWInt, h]
    · rw [h]
      rfl
  have hsel : mprvSelect cfg (dcsrWInt cfg s newValue updateCause) = mprvSelect cfg s := by
    rw [mprvSelect, mprvSelect, hmode]
    rfl
  unfold DomainCurrent
  rw [hsel]
  exact hs

/-- A new hart has a current domain: its reset writes `mstatus` with the
value it already holds, and out of Debug mode `dcsr` is not read. -/
theorem hartNew_current : DomainCurrent cfg (hartNew cfg) :=
  DomainCurrent.congr cfg (riscvSetMode_current cfg (hartInit cfg) .machine) rfl rfl rfl rfl
    (fun h => absurd h Bool.false_ne_true) rfl rfl

/-- From a new hart, every run of operations that refresh keeps the domain
current. -/
theorem run_current {ops : List HartOp} (hops : ∀ op ∈ ops, op.Refreshes) :
    DomainCurrent cfg (StepSystem.run (hartStep cfg) (hartNew cfg) ops) :=
  @StepSystem.run_invariant _ _ (hartStep cfg) HartOp.Refreshes (DomainCurrent cfg)
    (fun _ _ hop hs => hartStep_current cfg hs hop) _ _ (hartNew_current cfg) hops

end Selection

/-! ### The writes without a refresh -/

/-- A hart with User and Supervisor modes, whose Machine mode has its own
physical domain and whose User and Supervisor modes share one, with virtual
domains for both; Bare, Sv39 and Sv48 translation, and the `dcsr` fields of
`riscvCSRInit`. -/
def mprvExampleConfig : HartConfig ℕ :=
  { modes := ⟨true, true⟩, privVersion := .v1_12,
    vmDomain := fun m => if m = .machine then none else some (4 + m.toNat),
    physDomain := fun m => if m = .machine then 3 else 1,
    SvModes := 0x301, mstatusReset := 0, dcsrMask := 0xBFDF, archC := true,
    IMode := fun _ => 0, resetAddress := 0x1000 }

/-- The refresh is missing from `dcsrWInt`: a Machine-mode write of
`mstatus.MPRV = 1` and `MPP = U`, entry to Debug mode and then a `dcsr` write
that sets `mprven` leave loads and stores in the Machine-mode domain, while
the selection is the User-mode domain. -/
theorem domain_stale_after_mprven_write :
    let s : Hart ℕ := StepSystem.run (hartStep mprvExampleConfig) (hartNew mprvExampleConfig)
      [.writeStatus 0x20000 0x21800, .enterDebug 3 0, .writeDcsr 0x13 false]
    s.dataDomain = 3 ∧ mprvSelect mprvExampleConfig s = (.user, 1) ∧
      ¬ DomainCurrent mprvExampleConfig s := by
  intro s
  have hdom : s.dataDomain = 3 := by decide
  have hsel : mprvSelect mprvExampleConfig s = (.user, 1) := by decide
  refine ⟨hdom, hsel, ?_⟩
  rintro ⟨-, hcur⟩
  rw [hdom, hsel] at hcur
  exact absurd hcur (by decide)

/-- `riscvReset` refreshes before `riscvCSRReset` clears `MPRV`: a reset after
a Machine-mode write of `mstatus.MPRV = 1`, `MPP = U` keeps loads and stores
in the User-mode domain, while the selection is Machine mode. -/
theorem domain_stale_after_reset :
    let s : Hart ℕ := StepSystem.run (hartStep mprvExampleConfig) (hartNew mprvExampleConfig)
      [.writeStatus 0x20000 0x21800, .reset]
    s.dataDomain = 1 ∧ mprvSelect mprvExampleConfig s = (.machine, 3) ∧
      ¬ DomainCurrent mprvExampleConfig s := by
  intro s
  have hdom : s.dataDomain = 1 := by decide
  have hsel : mprvSelect mprvExampleConfig s = (.machine, 3) := by decide
  refine ⟨hdom, hsel, ?_⟩
  rintro ⟨-, hcur⟩
  rw [hdom, hsel] at hcur
  exact absurd hcur (by decide)

end RiscvOvpsim
