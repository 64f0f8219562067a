import RiscvOvpsim.Hart.Mprv

/-!
Trap entry and return (`riscvExceptions.c`, `riscvTakeException`,
`TARGET_MODE_X`, `riscvMRET`, `riscvSRET`, `riscvURET`).

A trap from mode `Y` to mode `X` stacks `mstatus.xIE` in `xPIE` and clears
it, saves `Y` in `xPP` and the return address in `xepc`; the matching return
restores `xIE`, sets `xPIE`, resets `xPP` to the minimum mode and returns to
the saved mode and address.

* `unstack_stack`, `unstack_stack_prev`: on the bit fields, the stacking of
  `TARGET_MODE_X` and the unstacking of a return leave `xPIE = 1`, `xPP` as
  the return wrote it, and every other bit as it was;
* `ReturnStatus`: the fields of such a value, read back;
* `riscvTakeException_mode`, `riscvTakeException_mstatus`, ...: what a trap
  outside Debug mode leaves; `riscvMRET_mode`, ...: what a return does;
* `TrapRoundTrip`: what a trap followed by its return must leave;
  `trap_return_round_trip`: every trap from an implemented mode outside Debug
  mode, followed by the matching return, leaves it.
-/

namespace RiscvOvpsim

/-! ### Stacking on the bit fields -/

section Stack

variable {IE PIE PP : BitField}

/-- The value stacked in `PIE` is read back whole when `PIE` is as wide as
`IE`. -/
lemma get_stacked (hIP : IE.Disjoint PIE) (hw : IE.width ≤ PIE.width) (x : UInt64) :
    PIE.get (IE.set (PIE.set x (IE.get x)) 0) = IE.get x := by
  rw [BitField.get_set_of_disjoint hIP, BitField.get_set]
  exact Nat.mod_eq_of_lt (lt_of_lt_of_le (IE.get_lt x) (Nat.pow_le_pow_right (by norm_num) hw))

/-- **Stacking then unstacking** the enable: `IE` is restored and `PIE` set. -/
lemma unstack_stack (hIP : IE.Disjoint PIE) (hw : IE.width ≤ PIE.width) (x : UInt64) :
    PIE.set (IE.set (IE.set (PIE.set x (IE.get x)) 0)
      (PIE.get (IE.set (PIE.set x (IE.get x)) 0))) 1 = PIE.set x 1 := by
  have hIE : IE.set (IE.set (PIE.set x (IE.get x)) 0) (PIE.get (IE.set (PIE.set x (IE.get x)) 0)) =
      PIE.set x (IE.get x) := by
    calc IE.set (IE.set (PIE.set x (IE.get x)) 0) (PIE.get (IE.set (PIE.set x (IE.get x)) 0))
        = IE.set (PIE.set x (IE.get x)) (IE.get x) := by
          rw [get_stacked hIP hw, BitField.set_set]
      _ = PIE.set (IE.set x (IE.get x)) (IE.get x) := BitField.set_comm hIP _ _ _
      _ = PIE.set x (IE.get x) := by rw [BitField.set_get]
  rw [hIE, BitField.set_set]

/-- The same with a previous-mode field `PP`, written by the trap after the
stacking and by the return after the unstacking. -/
lemma unstack_stack_prev (hIP : IE.Disjoint PIE) (hw : IE.width ≤ PIE.width)
    (hI : IE.Disjoint PP) (hP : PIE.Disjoint PP) (x : UInt64) (y z : ℕ) :
    PP.set (PIE.set (IE.set (PP.set (IE.set (PIE.set x (IE.get x)) 0) y)
      (PIE.get (PP.set (IE.set (PIE.set x (IE.get x)) 0) y))) 1) z = PP.set (PIE.set x 1) z := by
  -- the return reads `PIE` through the trap's write of `PP`, and the trap's
  -- write of `PP` moves out past the return's writes, where the return's own
  -- write of `PP` overrides it
  rw [BitField.get_set_of_disjoint hP.symm, BitField.set_comm hI, BitField.set_comm hP,
    BitField.set_set, unstack_stack hIP hw]

end Stack

/-! ### The fields after a return -/

section Fields

variable {IE PIE PP MPRV : BitField}

/-- Read back the fields of `MPRV`-cleared or not `PP.set (PIE.set x 1) z`. -/
structure ReturnStatus (IE PIE PP MPRV : BitField) (x : UInt64) (z : ℕ) (c : Prop) [Decidable c]
    (x' : UInt64) : Prop where
  IE_eq : IE.get x' = IE.get x
  PIE_eq : PIE.get x' = 1
  PP_eq : PP.get x' = z % 2 ^ PP.width
  MPRV_eq : MPRV.get x' = if c then 0 else MPRV.get x
  others_eq : ∀ j, ¬ PIE.Mem j → ¬ PP.Mem j → ¬ MPRV.Mem j → x'.toNat.testBit j = x.toNat.testBit j

lemma returnStatus_of (hIP : IE.Disjoint PIE) (hI : IE.Disjoint PP) (hP : PIE.Disjoint PP)
    (hIM : IE.Disjoint MPRV) (hPM : PIE.Disjoint MPRV) (hPPM : PP.Disjoint MPRV)
    (hw : 1 ≤ PIE.width) (x : UInt64) (z : ℕ) (c : Prop) [Decidable c] :
    ReturnStatus IE PIE PP MPRV x z c
      (if c then MPRV.set (PP.set (PIE.set x 1) z) 0 else PP.set (PIE.set x 1) z) := by
  -- the value before the clearing of `MPRV`
  have hIE : IE.get (PP.set (PIE.set x 1) z) = IE.get x := by
    rw [BitField.get_set_of_disjoint hI.symm, BitField.get_set_of_disjoint hIP.symm]
  have hPIE : PIE.get (PP.set (PIE.set x 1) z) = 1 := by
    rw [BitField.get_set_of_disjoint hP.symm, BitField.get_set,
      Nat.mod_eq_of_lt (Nat.one_lt_two_pow (by omega))]
  have hPP : PP.get (PP.set (PIE.set x 1) z) = z % 2 ^ PP.width := BitField.get_set _ _
  have hMPRV : MPRV.get (PP.set (PIE.set x 1) z) = MPRV.get x := by
    rw [BitField.get_set_of_disjoint hPPM, BitField.get_set_of_disjoint hPM]
  have hbits : ∀ j, ¬ PIE.Mem j → ¬ PP.Mem j →
      (PP.set (PIE.set x 1) z).toNat.testBit j = x.toNat.testBit j := by
    intro j hj1 hj2
    rw [BitField.testBit_set, if_neg hj2, BitField.testBit_set, if_neg hj1]
  by_cases hc : c
  · rw [if_pos hc]
    refine ⟨?_, ?_, ?_, ?_, ?_⟩
    · rw [BitField.get_set_of_disjoint hIM.symm, hIE]
    · rw [BitField.get_set_of_disjoint hPM.symm, hPIE]
    · rw [BitField.get_set_of_disjoint hPPM.symm, hPP]
    · rw [if_pos hc, BitField.get_set, Nat.zero_mod]
    · intro j hj1 hj2 hj3
      rw [BitField.testBit_set, if_neg hj3, hbits j hj1 hj2]
  · rw [if_neg hc]
    exact ⟨hIE, hPIE, hPP, by rw [if_neg hc, hMPRV], fun j hj1 hj2 _ => hbits j hj1 hj2⟩

end Fields

/-! ### A trap outside Debug mode -/

/-- The trap functions' target is the mode itself for every mode but
Hypervisor mode. -/
lemma trapMode_of_ne_hypervisor {m : RiscvMode} (h : m ≠ .hypervisor) : trapMode m = m := by
  cases m
  · rfl
  · rfl
  · exact absurd rfl h
  · rfl

lemma trapMode_ne_hypervisor (m : RiscvMode) : trapMode m ≠ .hypervisor := by
  cases m <;> decide

/-- The save of the previous mode is a write of `PP X`. -/
lemma savePrevMode_mstatus {Dom : Type} (s : Hart Dom) {X : RiscvMode} (hX : X ≠ .hypervisor)
    (modeY : RiscvMode) :
    (savePrevMode s X modeY).mstatus = (Mstatus.PP X).set s.mstatus modeY.toNat := by
  cases X
  · exact (BitField.set_of_width_eq_zero rfl _ _).symm
  · rfl
  · exact absurd rfl hX
  · rfl

section Trap

variable {Dom : Type} (cfg : HartConfig Dom) {s : Hart Dom} (hDM : s.DM = false)
  (isInt : Bool) (ecode : ℕ) (EPC tval : UInt64)

include hDM

lemma riscvTakeException_not_DM :
    riscvTakeException cfg s isInt ecode EPC tval =
      { riscvSetMode cfg (savePrevMode (targetModeX cfg s (trapMode (trapModeX s isInt ecode))
          isInt ecode EPC tval) (trapMode (trapModeX s isInt ecode)) s.mode)
          (trapModeX s isInt ecode) with
        pc := handlerPC cfg (savePrevMode (targetModeX cfg s (trapMode (trapModeX s isInt ecode))
          isInt ecode EPC tval) (trapMode (trapModeX s isInt ecode)) s.mode)
          (trapMode (trapModeX s isInt ecode)) isInt ecode } := by
  unfold riscvTakeException
  rw [if_neg (by rw [hDM]; decide)]

lemma riscvTakeException_mode :
    (riscvTakeException cfg s isInt ecode EPC tval).mode = trapModeX s isInt ecode := by
  rw [riscvTakeException_not_DM cfg hDM]
  rfl

lemma riscvTakeException_DM : (riscvTakeException cfg s isInt ecode EPC tval).DM = false := by
  rw [riscvTakeException_not_DM cfg hDM]
  exact hDM

lemma riscvTakeException_C : (riscvTakeException cfg s isInt ecode EPC tval).C = s.C := by
  rw [riscvTakeException_not_DM cfg hDM]
  rfl

lemma riscvTakeException_epc :
    (riscvTakeException cfg s isInt ecode EPC tval).epc (trapMode (trapModeX s isInt ecode)) =
      EPC &&& cfg.maskEPC := by
  rw [riscvTakeException_not_DM cfg hDM]
  exact Function.update_self _ _ _

/-- The trap stacks the enable of its target `X`, clears it, and saves the
previous mode in `PP X`. -/
lemma riscvTakeException_mstatus (hX : trapModeX s isInt ecode ≠ .hypervisor) :
    (riscvTakeException cfg s isInt ecode EPC tval).mstatus =
      (Mstatus.PP (trapModeX s isInt ecode)).set
        ((Mstatus.IE (trapModeX s isInt ecode)).set ((Mstatus.PIE (trapModeX s isInt ecode)).set
          s.mstatus ((Mstatus.IE (trapModeX s isInt ecode)).get s.mstatus)) 0) s.mode.toNat := by
  rw [riscvTakeException_not_DM cfg hDM]
  change (savePrevMode _ _ _).mstatus = _
  rw [savePrevMode_mstatus _ (trapMode_ne_hypervisor _), trapMode_of_ne_hypervisor hX]
  rfl

end Trap

/-! ### The returns -/

section Return

variable {Dom : Type} (cfg : HartConfig Dom) {t : Hart Dom} (hDM : t.DM = false)

include hDM

/-- `MRET` to the mode in `MPP`, when it is implemented. -/
lemma riscvMRET_mode (hMPP : riscvHasMode cfg.modes (RiscvMode.ofBits (Mstatus.MPP.get t.mstatus))) :
    (riscvMRET cfg t).mode = RiscvMode.ofBits (Mstatus.MPP.get t.mstatus) := by
  unfold riscvMRET
  rw [if_neg (by rw [hDM]; decide)]
  show getERETMode cfg _ _ = _
  rw [getERETMode, if_pos hMPP]

lemma riscvMRET_mstatus :
    (riscvMRET cfg t).mstatus =
      if RiscvPrivVer.v20190405 < cfg.privVersion ∧
          getERETMode cfg (RiscvMode.ofBits (Mstatus.MPP.get t.mstatus))
            (riscvGetMinMode cfg.modes) ≠ .machine then
        Mstatus.MPRV.set (Mstatus.MPP.set (Mstatus.MPIE.set (Mstatus.MIE.set t.mstatus
          (Mstatus.MPIE.get t.mstatus)) 1) (riscvGetMinMode cfg.modes).toNat) 0
      else Mstatus.MPP.set (Mstatus.MPIE.set (Mstatus.MIE.set t.mstatus
          (Mstatus.MPIE.get t.mstatus)) 1) (riscvGetMinMode cfg.modes).toNat := by
  unfold riscvMRET
  rw [if_neg (by rw [hDM]; decide)]
  rfl

lemma riscvMRET_pc :
    (riscvMRET cfg t).pc = if !t.C then t.epc .machine &&& (0 - 4) else t.epc .machine := by
  unfold riscvMRET
  rw [if_neg (by rw [hDM]; decide)]
  rfl

/-- `SRET` to the mode in `SPP`, when it is implemented. -/
lemma riscvSRET_mode (hSPP : riscvHasMode cfg.modes (RiscvMode.ofBits (Mstatus.SPP.get t.mstatus))) :
    (riscvSRET cfg t).mode = RiscvMode.ofBits (Mstatus.SPP.get t.mstatus) := by
  unfold riscvSRET
  rw [if_neg (by rw [hDM]; decide)]
  show getERETMode cfg _ _ = _
  rw [getERETMode, if_pos hSPP]

lemma riscvSRET_mstatus :
    (riscvSRET cfg t).mstatus =
      if RiscvPrivVer.v20190405 < cfg.privVersion ∧
          getERETMode cfg (RiscvMode.ofBits (Mstatus.SPP.get t.mstatus))
            (riscvGetMinMode cfg.modes) ≠ .machine then
        Mstatus.MPRV.set (Mstatus.SPP.set (Mstatus.SPIE.set (Mstatus.SIE.set t.mstatus
          (Mstatus.SPIE.get t.mstatus)) 1) (riscvGetMinMode cfg.modes).toNat) 0
      else Mstatus.SPP.set (Mstatus.SPIE.set (Mstatus.SIE.set t.mstatus
          (Mstatus.SPIE.get t.mstatus)) 1) (riscvGetMinMode cfg.modes).toNat := by
  unfold riscvSRET
  rw [if_neg (by rw [hDM]; decide)]
  rfl

lemma riscvSRET_pc :
    (riscvSRET cfg t).pc = if !t.C then t.epc .supervisor &&& (0 - 4) else t.epc .supervisor := by
  unfold riscvSRET
  rw [if_neg (by rw [hDM]; decide)]
  rfl

lemma riscvURET_mode : (riscvURET cfg t).mode = .user := by
  unfold riscvURET
  rw [if_neg (by rw [hDM]; decide)]
  rfl

lemma riscvURET_mstatus :
    (riscvURET cfg t).mstatus =
      Mstatus.UPIE.set (Mstatus.UIE.set t.mstatus (Mstatus.UPIE.get t.mstatus)) 1 := by
  unfold riscvURET
  rw [if_neg (by rw [hDM]; decide)]
  rfl

lemma riscvURET_pc :
    (riscvURET cfg t).pc = if !t.C then t.epc .user &&& (0 - 4) else t.epc .user := by
  unfold riscvURET
  rw [if_neg (by rw [hDM]; decide)]
  rfl

/-! The three returns, as the return from a trap to `X`. -/

variable {X : RiscvMode} (hX : X ≠ .hypervisor)

include hX

/-- The return from `X` goes to the mode saved in `PP X`, when it is
implemented. -/
lemma xret_mode (hPP : riscvHasMode cfg.modes (RiscvMode.ofBits ((Mstatus.PP X).get t.mstatus))) :
    (hartStep cfg t (xretOp X)).mode = RiscvMode.ofBits ((Mstatus.PP X).get t.mstatus) := by
  cases X
  · rw [BitField.get_of_width_eq_zero rfl]
    exact riscvURET_mode cfg hDM
  · exact riscvSRET_mode cfg hDM hPP
  · exact absurd rfl hX
  · exact riscvMRET_mode cfg hDM hPP

/-- The return from `X` restores `IE X` from `PIE X`, sets `PIE X`, writes the
minimum mode into `PP X` and, for `MRET` and `SRET`, clears `MPRV` on a return
below Machine mode. -/
lemma xret_mstatus :
    (hartStep cfg t (xretOp X)).mstatus =
      if X ≠ .user ∧ RiscvPrivVer.v20190405 < cfg.privVersion ∧
          getERETMode cfg (RiscvMode.ofBits ((Mstatus.PP X).get t.mstatus))
            (riscvGetMinMode cfg.modes) ≠ .machine then
        Mstatus.MPRV.set ((Mstatus.PP X).set ((Mstatus.PIE X).set ((Mstatus.IE X).set t.mstatus
          ((Mstatus.PIE X).get t.mstatus)) 1) (riscvGetMinMode cfg.modes).toNat) 0
      else (Mstatus.PP X).set ((Mstatus.PIE X).set ((Mstatus.IE X).set t.mstatus
          ((Mstatus.PIE X).get t.mstatus)) 1) (riscvGetMinMode cfg.modes).toNat := by
  cases X
  · -- `URET` saves no mode and leaves `MPRV`
    rw [if_neg (fun h => h.1 rfl), BitField.set_of_width_eq_zero rfl]
    exact riscvURET_mstatus cfg hDM
  · simp only [ne_eq, reduceCtorEq, not_false_eq_true, true_and]
    exact riscvSRET_mstatus cfg hDM
  · exact absurd rfl hX
  · simp only [ne_eq, reduceCtorEq, not_false_eq_true, true_and]
    exact riscvMRET_mstatus cfg hDM

/-- The return from `X` jumps to `xepc`, word-aligned without compressed
instructions. -/
lemma xret_pc : (hartStep cfg t (xretOp X)).pc = if !t.C then t.epc X &&& (0 - 4) else t.epc X := by
  cases X
  · exact riscvURET_pc cfg hDM
  · exact riscvSRET_pc cfg hDM
  · exact absurd rfl hX
  · exact riscvMRET_pc cfg hDM

end Return

/-! ### The target mode -/

lemma ite_lt_eq_max (a b : RiscvMode) : (if a < b then b else a) = max a b := by
  split_ifs with h
  · exact (max_eq_right (le_of_lt h)).symm
  · exact (max_eq_left (not_lt.mp h)).symm

lemma le_trapModeX {Dom : Type} (s : Hart Dom) (isInt : Bool) (ecode : ℕ) :
    s.mode ≤ trapModeX s isInt ecode := by
  unfold trapModeX
  split_ifs
  · exact le_getModeX _ _ _ _
  · exact le_getModeX _ _ _ _

/-- Below code 32 the target is the delegation's mode, or the current mode if
that is higher. -/
lemma trapModeX_of_lt {Dom : Type} (s : Hart Dom) (isInt : Bool) {ecode : ℕ} (h : ecode < 32) :
    trapModeX s isInt ecode =
      max s.mode (delegationMode (if isInt then s.mideleg else s.medeleg)
        (if isInt then s.sideleg else s.sedeleg) ecode) := by
  unfold trapModeX
  cases isInt
  · simp only [Bool.not_false, if_true, Bool.false_eq_true, if_false]
    rw [getModeX_of_lt _ _ _ h, ite_lt_eq_max]
  · simp only [Bool.not_true, Bool.false_eq_true, if_false, if_true]
    rw [getModeX_of_lt _ _ _ h, ite_lt_eq_max]

/-- From an implemented mode, a trap goes to User, Supervisor or Machine
mode. -/
lemma trapModeX_ne_hypervisor {Dom : Type} (modes : ModeConfig) (s : Hart Dom)
    (hY : riscvHasMode modes s.mode = true) (isInt : Bool) (ecode : ℕ) :
    trapModeX s isInt ecode ≠ .hypervisor := by
  have hYH : s.mode ≠ .hypervisor := by
    intro h
    rw [h] at hY
    exact Bool.false_ne_true hY
  unfold trapModeX
  split_ifs
  · exact getModeX_ne_hypervisor hYH _ _ _
  · exact getModeX_ne_hypervisor hYH _ _ _

/-- A mode at most `X` fits in `PP X`. -/
lemma toNat_mod_PP {X Y : RiscvMode} (hX : X ≠ .hypervisor) (hY : Y ≤ X) :
    Y.toNat % 2 ^ (Mstatus.PP X).width = Y.toNat := by
  rw [RiscvMode.le_iff_toNat_le] at hY
  apply Nat.mod_eq_of_lt
  cases X
  · exact lt_of_le_of_lt hY (by decide)
  · exact lt_of_le_of_lt hY (by decide)
  · exact absurd rfl hX
  · exact lt_of_le_of_lt hY (by decide)

/-! ### The round trip -/

/-- What a trap from `s` to mode `X` with return address `EPC`, followed at
once by the return from `X` that ends in `s'`, must leave: a target at least
the current mode and, below code 32, the one the delegation registers give;
the mode of `s` and its `IE X` back; `PIE X` set and the minimum mode in
`PP X`; `MPRV` cleared exactly by an `MRET` or `SRET` below Machine mode from
version 1.12; every other bit of `mstatus` as it was; and the return address,
as `xepc` and `setPCxRET` mask it. -/
structure TrapRoundTrip {Dom : Type} (cfg : HartConfig Dom) (s : Hart Dom) (isInt : Bool)
    (ecode : ℕ) (EPC : UInt64) (X : RiscvMode) (s' : Hart Dom) : Prop where
  target_ge : s.mode ≤ X
  target_eq : ecode < 32 → X = max s.mode (delegationMode (if isInt then s.mideleg else s.medeleg)
    (if isInt then s.sideleg else s.sedeleg) ecode)
  mode_eq : s'.mode = s.mode
  IE_eq : (Mstatus.IE X).get s'.mstatus = (Mstatus.IE X).get s.mstatus
  PIE_eq : (Mstatus.PIE X).get s'.mstatus = 1
  PP_eq : (Mstatus.PP X).get s'.mstatus = (riscvGetMinMode cfg.modes).toNat % 2 ^ (Mstatus.PP X).width
  MPRV_eq : Mstatus.MPRV.get s'.mstatus =
    if X ≠ .user ∧ RiscvPrivVer.v20190405 < cfg.privVersion ∧ s.mode ≠ .machine then 0
    else Mstatus.MPRV.get s.mstatus
  others_eq : ∀ j, ¬ (Mstatus.PIE X).Mem j → ¬ (Mstatus.PP X).Mem j → ¬ Mstatus.MPRV.Mem j →
    s'.mstatus.toNat.testBit j = s.mstatus.toNat.testBit j
  pc_eq : s'.pc = if !s.C then EPC &&& cfg.maskEPC &&& (0 - 4) else EPC &&& cfg.maskEPC

/-- **Trap and return.**  A trap outside Debug mode from an implemented mode,
followed at once by the return from the mode it went to, is a
`TrapRoundTrip`. -/
theorem trap_return_round_trip {Dom : Type} (cfg : HartConfig Dom) (s : Hart Dom) (isInt : Bool)
    (ecode : ℕ) (EPC tval : UInt64) (hDM : s.DM = false)
    (hY : riscvHasMode cfg.modes s.mode = true) :
    TrapRoundTrip cfg s isInt ecode EPC (riscvTakeException cfg s isInt ecode EPC tval).mode
      (hartStep cfg (riscvTakeException cfg s isInt ecode EPC tval)
        (xretOp (riscvTakeException cfg s isInt ecode EPC tval).mode)) := by
  -- what the trap leaves, then the trap's result and target made opaque
  have hXH := trapModeX_ne_hypervisor cfg.modes s hY isInt ecode
  have hYX := le_trapModeX s isInt ecode
  have hEq : ecode < 32 → _ := fun h => trapModeX_of_lt s isInt h
  have hmode := riscvTakeException_mode cfg hDM isInt ecode EPC tval
  have htDM := riscvTakeException_DM cfg hDM isInt ecode EPC tval
  have hC := riscvTakeException_C cfg hDM isInt ecode EPC tval
  have hepc := riscvTakeException_epc cfg hDM isInt ecode EPC tval
  have hst := riscvTakeException_mstatus cfg hDM isInt ecode EPC tval hXH
  rw [trapMode_of_ne_hypervisor hXH] at hepc
  rw [hmode]
  generalize riscvTakeException cfg s isInt ecode EPC tval = t at htDM hC hepc hst ⊢
  generalize trapModeX s isInt ecode = X at hXH hYX hEq hepc hst ⊢
  -- the trap saved the current mode in `PP X`, and the return goes back to it
  have hPP : (Mstatus.PP X).get t.mstatus = s.mode.toNat := by
    rw [hst, BitField.get_set, toNat_mod_PP hXH hYX]
  have hnew : getERETMode cfg (RiscvMode.ofBits ((Mstatus.PP X).get t.mstatus))
      (riscvGetMinMode cfg.modes) = s.mode := by
    rw [hPP, RiscvMode.ofBits_toNat, getERETMode, if_pos hY]
  -- the return undoes the stacking of the trap
  have hret : (hartStep cfg t (xretOp X)).mstatus =
      if X ≠ .user ∧ RiscvPrivVer.v20190405 < cfg.privVersion ∧ s.mode ≠ .machine then
        Mstatus.MPRV.set ((Mstatus.PP X).set ((Mstatus.PIE X).set s.mstatus 1)
          (riscvGetMinMode cfg.modes).toNat) 0
      else (Mstatus.PP X).set ((Mstatus.PIE X).set s.mstatus 1) (riscvGetMinMode cfg.modes).toNat := by
    rw [xret_mstatus cfg htDM hXH, hnew, hst,
      unstack_stack_prev (Mstatus.IE_disjoint_PIE X X) (Mstatus.IE_width_le_PIE X)
        (Mstatus.IE_disjoint_PP X) (Mstatus.PIE_disjoint_PP X)]
  have hR := returnStatus_of (Mstatus.IE_disjoint_PIE X X) (Mstatus.IE_disjoint_PP X)
    (Mstatus.PIE_disjoint_PP X) (Mstatus.IE_disjoint_MPRV X) (Mstatus.PIE_disjoint_MPRV X)
    (Mstatus.PP_disjoint_MPRV X) (Mstatus.one_le_PIE_width X) s.mstatus
    (riscvGetMinMode cfg.modes).toNat
    (X ≠ .user ∧ RiscvPrivVer.v20190405 < cfg.privVersion ∧ s.mode ≠ .machine)
  rw [← hret] at hR
  refine ⟨hYX, hEq, ?_, hR.IE_eq, hR.PIE_eq, hR.PP_eq, hR.MPRV_eq, hR.others_eq, ?_⟩
  · rw [xret_mode cfg htDM hXH (by rw [hPP, RiscvMode.ofBits_toNat]; exact hY), hPP,
      RiscvMode.ofBits_toNat]
  · rw [xret_pc cfg htDM hXH, hepc, hC]

/-- An `ECALL` from User mode, delegated to Supervisor mode, and its `SRET`. -/
theorem trap_return_round_trip_ecall :
    let s : Hart ℕ := { hartNew mprvExampleConfig with mode := .user, medeleg := 0x100 }
    s.DM = false ∧ riscvHasMode mprvExampleConfig.modes s.mode = true ∧
      TrapRoundTrip mprvExampleConfig s false 8 0x2000
        (riscvTakeException mprvExampleConfig s false 8 0x2000 0).mode
        (hartStep mprvExampleConfig (riscvTakeException mprvExampleConfig s false 8 0x2000 0)
          (xretOp (riscvTakeException mprvExampleConfig s false 8 0x2000 0).mode)) :=
  ⟨rfl, rfl, trap_return_round_trip _ _ _ _ _ _ rfl rfl⟩

end RiscvOvpsim
