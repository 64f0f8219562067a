import RiscvOvpsim.Fp.Csr

/-!
The rounding of a floating point instruction (`getRM` of `riscvDecode.c`,
`riscvEmitCheckLegalRM` and `emitSetOperationRM` of `riscvMorph.c`): the
rounding mode the instruction encodes, the check that makes a reserved mode
illegal, and the rounding control the translated code sets.

A static mode becomes its own rounding control.  The dynamic mode, field 7,
is `frm`, which the translated code does not read: it checks the reserved
mode key and leaves the rounding to the control word of the floating point
unit, the two copies of `frm` that the CSR writes keep (`Fp/Csr`).

* `getRM`, `riscvEmitCheckLegalRM`, `emitSetOperationRM`: the decode, the
  check and the control;
* `specRounding`, `specRounding_getRMMap`: the rounding the ISA gives a mode
  under `frm`, and to the mode field of an instruction;
* `fpuRounding_emitSetOperationRM`: when the key and the control follow
  `frm`, the rounding an instruction gets is the ISA's, and it is illegal
  exactly when the ISA says its mode is reserved;
* `fpCsr_rounding`: so after any run from a state of the invariant, an
  instruction whose mode field is `f` rounds with mode `f`, or with `frm` of
  the specification's run when `f` is 7.
-/

namespace RiscvOvpsim

/-! ### The model -/

/-- `riscvRMDesc`: the rounding mode of an instruction. -/
inductive RiscvRMDesc where
  /-- the current rounding mode, `frm` (or no mode) -/
  | CURRENT
  | RTE
  | RTZ
  | RDN
  | RUP
  | RMM
  | ROD
  | BAD5
  | BAD6
  deriving DecidableEq, Repr

/-- `rmSpec`: where an instruction's rounding mode comes from; `bits14_12`
is `RM_14_12`. -/
inductive RmSpec where
  | NA
  | RTZ
  | ROD
  | bits14_12
  deriving DecidableEq, Repr

/-- The table of `getRM`: the mode of each value of bits 14 to 12. -/
def getRMMap (f : ℕ) : RiscvRMDesc :=
  match f with
  | 0 => .RTE
  | 1 => .RTZ
  | 2 => .RDN
  | 3 => .RUP
  | 4 => .RMM
  | 5 => .BAD5
  | 6 => .BAD6
  | _ => .CURRENT

/-- `getRM`: the rounding mode of an instruction, and `explicitRM`, whether
it is not taken from the instruction's bits. -/
def getRM (instruction : UInt32) (rm : RmSpec) : RiscvRMDesc × Bool :=
  match rm with
  | .NA => (.CURRENT, true)
  | .RTZ => (.RTZ, true)
  | .ROD => (.ROD, true)
  | .bits14_12 => (getRMMap ((instruction >>> 12) &&& 7).toNat, false)

/-- `riscvEmitCheckLegalRM`: a reserved mode is illegal, and so is the
current mode while the reserved mode key is set. -/
def riscvEmitCheckLegalRM (s : FpCsrState) (rm : RiscvRMDesc) : Bool :=
  match rm with
  | .BAD5 | .BAD6 => false
  | .CURRENT => !s.rmInvalid
  | _ => true

/-- `mapRMDescToRC`: the rounding control of a mode. -/
def mapRMDescToRC (rm : RiscvRMDesc) : VmiFPRC :=
  match rm with
  | .CURRENT => .CURRENT
  | .RTE => .NEAREST
  | .RTZ => .ZERO
  | .RDN => .NEG_INF
  | .RUP => .POS_INF
  | .RMM => .AWAY
  | .ROD => .ODD
  | .BAD5 => .CURRENT
  | .BAD6 => .CURRENT

/-- `emitSetOperationRM`: the rounding control the translated code sets, none
when the instruction is illegal. -/
def emitSetOperationRM (s : FpCsrState) (rm : RiscvRMDesc) : Option VmiFPRC :=
  if riscvEmitCheckLegalRM s rm then some (mapRMDescToRC rm) else none

/-- The rounding the floating point unit applies under a control: the
control word's for `CURRENT`. -/
def FpCsrState.fpuRounding (s : FpCsrState) (rc : VmiFPRC) : VmiFPRC :=
  match rc with
  | .CURRENT => s.rc
  | rc => rc

/-! ### The specification -/

/-- The rounding the ISA gives to a mode under `frm`, none when the mode is
reserved. -/
def specRounding (frm : BitVec 3) (rm : RiscvRMDesc) : Option VmiFPRC :=
  match rm with
  | .CURRENT => mapFRMToRC frm.toNat
  | .RTE => some .NEAREST
  | .RTZ => some .ZERO
  | .RDN => some .NEG_INF
  | .RUP => some .POS_INF
  | .RMM => some .AWAY
  | .ROD => some .ODD
  | .BAD5 | .BAD6 => none

/-- The mode field of an instruction means the mode of that number, `frm` for
7. -/
lemma specRounding_getRMMap (frm : BitVec 3) {f : ℕ} (hf : f < 8) :
    specRounding frm (getRMMap f) = mapFRMToRC (if f = 7 then frm.toNat else f) := by
  interval_cases f <;> rfl

/-! ### The model meets the specification -/

/-- **The rounding of an instruction**: when the reserved mode key and the
control word follow `frm`, the translated code rounds as the ISA says, and is
illegal exactly when the ISA's mode is reserved. -/
theorem fpuRounding_emitSetOperationRM {s : FpCsrState} (h : s.RmFollows s.getMasterFRM)
    (rm : RiscvRMDesc) :
    (emitSetOperationRM s rm).map s.fpuRounding = specRounding (s.view).frm rm := by
  have hfrm : (s.view).frm.toNat = s.getMasterFRM := by
    rw [FpCsrState.view, BitVec.toNat_ofNat]
    exact Nat.mod_eq_of_lt s.getMasterFRM_lt
  cases rm with
  | CURRENT =>
      -- the dynamic mode: the key decides legality, the control word the rounding
      rw [specRounding, hfrm]
      cases hm : mapFRMToRC s.getMasterFRM with
      | none =>
          have hi : s.rmInvalid = true := by rw [h.invalid_eq, hm]; rfl
          simp [emitSetOperationRM, riscvEmitCheckLegalRM, hi]
      | some rc =>
          have hi : s.rmInvalid = false := by rw [h.invalid_eq, hm]; rfl
          simp [emitSetOperationRM, riscvEmitCheckLegalRM, mapRMDescToRC, hi,
            FpCsrState.fpuRounding, h.rc_eq rc hm]
  | RTE | RTZ | RDN | RUP | RMM | ROD | BAD5 | BAD6 => rfl

/-- **Instructions round as `frm` says**: after any run from a state of the
invariant, an instruction whose mode is in bits 14 to 12 is legal exactly
when the mode of those bits, `frm` of the specification's run for 7, is not
reserved, and then rounds with it. -/
theorem fpCsr_rounding (cfg : FpCsrConfig) {s₀ : FpCsrState} (h₀ : FpCsrInv cfg s₀)
    (ops : List FpCsrOp) (instruction : UInt32) :
    (emitSetOperationRM (StepSystem.run (fpCsrStep cfg) s₀ ops)
        (getRM instruction .bits14_12).1).map
      (StepSystem.run (fpCsrStep cfg) s₀ ops).fpuRounding =
      mapFRMToRC (if ((instruction >>> 12) &&& 7).toNat = 7
        then (StepSystem.run (FpCsrSpec.step cfg) s₀.view ops).frm.toNat
        else ((instruction >>> 12) &&& 7).toNat) := by
  have hf : ((instruction >>> 12) &&& 7).toNat < 8 := by
    rw [UInt32.toNat_and]
    exact lt_of_le_of_lt Nat.and_le_right (by decide)
  rw [← specRounding_getRMMap _ hf, ← FpCsrState.run_view]
  exact fpuRounding_emitSetOperationRM (FpCsrState.run_fpCsrInv h₀ ops).rm _

theorem fpCsr_rounding_dynamic :
    FpCsrInv ⟨true, true, true⟩ FpCsrState.init ∧
      (emitSetOperationRM (StepSystem.run (fpCsrStep ⟨true, true, true⟩) FpCsrState.init [.frmW 1])
          (getRM 0x7053 .bits14_12).1).map
        (StepSystem.run (fpCsrStep ⟨true, true, true⟩) FpCsrState.init [.frmW 1]).fpuRounding =
        mapFRMToRC (if ((0x7053 : UInt32) >>> 12 &&& 7).toNat = 7
          then (StepSystem.run (FpCsrSpec.step ⟨true, true, true⟩) FpCsrState.init.view [.frmW 1]).frm.toNat
          else ((0x7053 : UInt32) >>> 12 &&& 7).toNat) :=
  ⟨FpCsrState.fpCsrInv_init _, fpCsr_rounding _ (FpCsrState.fpCsrInv_init _) _ _⟩

end RiscvOvpsim
