import Mathlib.Tactic
import RiscvOvpsim.Lib.Roundoff

/-!
Vector fixed-point rounding (`riscvMorph.c`: `FPRM_FUNC`, `getRound8` to
`getRound64`, `emitFixedPointRounding`, and the per-element callbacks
`emitVRABinaryCB`, `emitVIABinaryCB`, `emitVRRShiftIntCB`,
`emitVIRShiftIntCB` and `emitVRSMULCB`).

Each callback computes a result and a word of discarded bits, left-aligned,
from which `getRoundN` computes the increment to add: a shift left by
`SEW - s` for the rounding shifts, the low bit of `a ^ b` rotated to the top
for the averaging operations, and the low half of the product rotated left and
masked with `-2` for `vsmul`. The element width `SEW` is the width of the bit
vectors; `getRoundCB` selects the member of `FPRM_FUNC` of that width.

The VMI operations are their bit-vector definitions: shifts and rotations, the
halving operations on operands extended by one bit, `vmi_IMUL` as the product
at `2 * SEW` bits, and `vmi_SHLSQ` as a signed shift that saturates. The
`Bool`s `vd` and `vdm1` of `FPRM_FUNC` hold whether the masked value is
nonzero.

* `getRound_eq_roundoffIncrement`: `getRoundN` computes the increment of
  `roundoff(v, d)` whenever the result's bit 0 is `v[d]`, the discard's top bit
  is `v[d-1]` and the bits below it are nonzero exactly when `v[d-2:0]` is;
* `emitVRRShiftIntCB_eq`, `emitVIRShiftIntCB_eq`: the rounding shifts are
  `roundoff(v, s mod SEW)`;
* `averagingCB_eq`: the averaging operations are `roundoff(a ± b, 1)` with
  `a ± b` exact at `SEW + 1` bits;
* `emitVRSMULCB_eq`: `vsmul` is `clip(roundoff(a * b, SEW - 1))`, and the
  saturation flag merged into `vxsat` is the clip's;
* `vector_fixed_point_rounding`: the five callbacks at every element width the
  vector unit has.
-/

namespace RiscvOvpsim

open FixedPoint

variable {N : ℕ}

/-! ### The rounding increment -/

/-- `FPRM_FUNC`: the rounding increment for a result of `N` bits, from the
rounding mode, the result and the discarded bits, left-aligned in
`discard`. -/
def getRound (fprm : RoundMode) (result discard : BitVec N) : BitVec N :=
  let msbMask : BitVec N := 1#N <<< (N - 1)
  let vd : Bool := result &&& 1#N != 0#N
  let vdm1 : Bool := discard &&& msbMask != 0#N
  let round : Bool :=
    match fprm with
    | .rnu => vdm1
    | .rne => if discard == msbMask then vd else vdm1
    | .rdn => false
    | .rod => !vd && discard != 0#N
  BitVec.ofNat N round.toNat

/-- `getRound8`: `FPRM_FUNC` at 8 bits. -/
def getRound8 (fprm : RoundMode) (result discard : BitVec 8) : BitVec 8 :=
  getRound fprm result discard

/-- `getRound16`: `FPRM_FUNC` at 16 bits. -/
def getRound16 (fprm : RoundMode) (result discard : BitVec 16) : BitVec 16 :=
  getRound fprm result discard

/-- `getRound32`: `FPRM_FUNC` at 32 bits. -/
def getRound32 (fprm : RoundMode) (result discard : BitVec 32) : BitVec 32 :=
  getRound fprm result discard

/-- `getRound64`: `FPRM_FUNC` at 64 bits. -/
def getRound64 (fprm : RoundMode) (result discard : BitVec 64) : BitVec 64 :=
  getRound fprm result discard

/-- `emitFixedPointRounding`: the result plus the rounding increment. -/
def emitFixedPointRounding (vxrm : RoundMode) (rd discard : BitVec N) : BitVec N :=
  rd + getRound vxrm rd discard

/-- `getRound` reads bit 0 of the result, the top bit of the discard and
whether a bit below it is set. -/
lemma getRound_eq (fprm : RoundMode) (result discard : BitVec N) (hN : 0 < N) :
    getRound fprm result discard =
      BitVec.ofNat N (roundBit fprm (result.getLsbD 0) (discard.getLsbD (N - 1))
        (discard.setWidth (N - 1) != 0#(N - 1))).toNat := by
  have hvd : (result &&& 1#N != 0#N) = result.getLsbD 0 := by
    rw [show 1#N = BitVec.twoPow N 0 by rw [BitVec.twoPow_eq, BitVec.shiftLeft_zero],
      BitVec.and_twoPow_bne_zero _ hN]
  have hvdm1 : (discard &&& 1#N <<< (N - 1) != 0#N) = discard.getLsbD (N - 1) := by
    rw [← BitVec.twoPow_eq, BitVec.and_twoPow_bne_zero _ (by omega)]
  unfold getRound
  simp only [hvd, hvdm1, BitVec.beq_twoPow_pred discard hN, BitVec.bne_zero_eq_or discard hN]
  -- the `rne` test `discard == msbMask` is the top bit without a bit below it
  cases fprm <;> cases result.getLsbD 0 <;> cases discard.getLsbD (N - 1) <;>
    cases (discard.setWidth (N - 1) != 0#(N - 1)) <;> rfl

/-- **The increment `getRound` computes is that of `roundoff(v, d)`** when the
result ends in `v[d]` and the discard holds `v[d-1]` on top of bits that are
nonzero exactly when `v[d-2:0]` is. -/
lemma getRound_eq_roundoffIncrement {w : ℕ} (fprm : RoundMode) (result discard : BitVec N)
    (v : BitVec w) {d : ℕ} (hN : 0 < N) (hd : 0 < d)
    (hvd : result.getLsbD 0 = v.getLsbD d) (hvdm1 : discard.getLsbD (N - 1) = v.getLsbD (d - 1))
    (hsticky : (discard.setWidth (N - 1) != 0#(N - 1)) = (v.setWidth (d - 1) != 0#(d - 1))) :
    getRound fprm result discard = BitVec.ofNat N (roundoffIncrement fprm v d).toNat := by
  rw [getRound_eq _ _ _ hN, hvd, hvdm1, hsticky, roundoffIncrement, if_neg hd.ne']

/-! ### Rounding shifts -/

/-- The shift of `vssrl` and `vssra`: `vmi_SHR` or `vmi_SAR`. -/
inductive ShiftBinop where
  | SHR
  | SAR
  deriving DecidableEq, Repr

/-- The shift by `s` places. -/
def ShiftBinop.apply : ShiftBinop → BitVec N → ℕ → BitVec N
  | .SHR, x, s => x >>> s
  | .SAR, x, s => x.sshiftRight s

/-- Whether the shift is arithmetic. -/
def ShiftBinop.signed (binop : ShiftBinop) : Bool :=
  binop == .SAR

lemma ShiftBinop.apply_eq (binop : ShiftBinop) (x : BitVec N) (s : ℕ) :
    binop.apply x s = FixedPoint.shiftRight binop.signed x s := by
  cases binop <;> rfl

/-- `emitVRRShiftIntCB`: the element shifted right by `arg2 & (SEW-1)` and
rounded, or unchanged when that is zero. -/
def emitVRRShiftIntCB (binop : ShiftBinop) (vxrm : RoundMode) (v arg2 : BitVec N) :
    BitVec N :=
  let trd := v
  let shr := arg2 &&& BitVec.ofNat N (N - 1)
  if shr = 0#N then trd
  else
    let shl := BitVec.ofNat N N - shr
    let shl := trd <<< shl
    let trd := binop.apply trd shr.toNat
    emitFixedPointRounding vxrm trd shl

/-- `emitVIRShiftIntCB`: the same with a constant shift `c & (SEW-1)`. -/
def emitVIRShiftIntCB (binop : ShiftBinop) (vxrm : RoundMode) (v : BitVec N) (c : UInt64) :
    BitVec N :=
  let shr := c.toNat &&& (N - 1)
  let shl := N - shr
  if shr ≠ 0 then
    let t0 := v <<< shl
    let r0 := binop.apply v shr
    emitFixedPointRounding vxrm r0 t0
  else v

/-- A shift by `d` places, rounded with the low `d` bits shifted to the top as
the discard, is `roundoff(v, d)`. -/
lemma emitFixedPointRounding_shift (binop : ShiftBinop) (vxrm : RoundMode) (v : BitVec N)
    {d : ℕ} (hd : 0 < d) (hdN : d < N) :
    emitFixedPointRounding vxrm (binop.apply v d) (v <<< (N - d)) =
      roundoff binop.signed vxrm v d := by
  have hvd : (binop.apply v d).getLsbD 0 = v.getLsbD d := by
    cases binop
    · simp [ShiftBinop.apply]
    · simp [ShiftBinop.apply, BitVec.getLsbD_sshiftRight, hdN, show N ≠ 0 by omega]
  rw [emitFixedPointRounding, roundoff, ← ShiftBinop.apply_eq,
    getRound_eq_roundoffIncrement _ _ _ v (by omega) hd hvd
      (BitVec.getLsbD_shiftLeft_sub v hd hdN.le)
      (BitVec.setWidth_shiftLeft_sub_bne_zero v hd hdN.le)]

/-- Without a shift, the element is `roundoff(v, 0)`. -/
lemma roundoff_zero (signed : Bool) (vxrm : RoundMode) (v : BitVec N) :
    roundoff signed vxrm v 0 = v := by
  cases signed <;> simp [roundoff, roundoffIncrement, FixedPoint.shiftRight]

/-- `c & (SEW-1)` is `c mod SEW` for a power of two. -/
lemma and_pred_eq_mod {j : ℕ} (hN : N = 2 ^ j) (c : ℕ) : c &&& (N - 1) = c % N := by
  rw [hN, Nat.and_two_pow_sub_one_eq_mod]

/-- **`vssrl` and `vssra` with a register shift are `roundoff(v, s mod SEW)`.** -/
theorem emitVRRShiftIntCB_eq {j : ℕ} (hN : N = 2 ^ j) (binop : ShiftBinop) (vxrm : RoundMode)
    (v arg2 : BitVec N) :
    emitVRRShiftIntCB binop vxrm v arg2 = roundoff binop.signed vxrm v (arg2.toNat % N) := by
  have hNpos : 0 < N := hN ▸ Nat.two_pow_pos j
  have hNlt : N < 2 ^ N := Nat.lt_two_pow_self
  have hshr : (arg2 &&& BitVec.ofNat N (N - 1)).toNat = arg2.toNat % N := by
    rw [BitVec.toNat_and, BitVec.toNat_ofNat, Nat.mod_eq_of_lt (by omega), and_pred_eq_mod hN]
  have hd : arg2.toNat % N < N := Nat.mod_lt _ hNpos
  unfold emitVRRShiftIntCB
  by_cases h0 : arg2.toNat % N = 0
  · rw [if_pos (BitVec.eq_of_toNat_eq (by rw [hshr, h0, BitVec.toNat_zero])), h0, roundoff_zero]
  · rw [if_neg (fun h => h0 (by rw [← hshr, h, BitVec.toNat_zero]))]
    -- the discard shift `SEW - shr` does not wrap
    have hshl : (BitVec.ofNat N N - (arg2 &&& BitVec.ofNat N (N - 1))).toNat =
        N - arg2.toNat % N := by
      rw [BitVec.toNat_sub, hshr, BitVec.toNat_ofNat, Nat.mod_eq_of_lt hNlt,
        show 2 ^ N - arg2.toNat % N + N = N - arg2.toNat % N + 2 ^ N by omega,
        Nat.add_mod_right, Nat.mod_eq_of_lt (by omega)]
    simp only [BitVec.shiftLeft_eq', hshl, hshr]
    exact emitFixedPointRounding_shift binop vxrm v (by omega) hd

/-- `11 >> 2` rounds up to nearest: the discarded bits are `0b11`. -/
example : emitVRRShiftIntCB .SHR .rnu 0x0B#8 0x02#8 = 0x03#8 := by decide

/-- **`vssrl` and `vssra` with a constant shift are `roundoff(v, c mod SEW)`.** -/
theorem emitVIRShiftIntCB_eq {j : ℕ} (hN : N = 2 ^ j) (binop : ShiftBinop) (vxrm : RoundMode)
    (v : BitVec N) (c : UInt64) :
    emitVIRShiftIntCB binop vxrm v c = roundoff binop.signed vxrm v (c.toNat % N) := by
  have hNpos : 0 < N := hN ▸ Nat.two_pow_pos j
  unfold emitVIRShiftIntCB
  rw [and_pred_eq_mod hN]
  dsimp only
  split_ifs with h0
  · exact emitFixedPointRounding_shift binop vxrm v (Nat.pos_of_ne_zero h0) (Nat.mod_lt _ hNpos)
  · rw [not_not.mp h0, roundoff_zero]

/-! ### Averaging -/

/-- The halving operations of the averaging instructions. -/
inductive HalvingBinop where
  | ADDUH
  | ADDSH
  | SUBUH
  | SUBSH
  deriving DecidableEq, Repr

namespace HalvingBinop

/-- Whether the operands are signed. -/
def signed : HalvingBinop → Bool
  | ADDSH | SUBSH => true
  | ADDUH | SUBUH => false

/-- An operand at one bit more, extended by its sign when signed. -/
def extend (op : HalvingBinop) (x : BitVec N) : BitVec (N + 1) :=
  if op.signed then x.signExtend (N + 1) else x.setWidth (N + 1)

/-- The sum or difference, exact at one bit more than the operands. -/
def wide (op : HalvingBinop) (a b : BitVec N) : BitVec (N + 1) :=
  match op with
  | ADDUH | ADDSH => op.extend a + op.extend b
  | SUBUH | SUBSH => op.extend a - op.extend b

/-- `vmi_ADDUH`, `vmi_ADDSH`, `vmi_SUBUH` and `vmi_SUBSH`: the exact sum or
difference halved, at the operands' width. -/
def apply (op : HalvingBinop) (a b : BitVec N) : BitVec N :=
  (shiftRight op.signed (op.wide a b) 1).setWidth N

/-- Bit 0 of the exact sum or difference is the parity of the operands'
bits 0. -/
lemma getLsbD_wide_zero (op : HalvingBinop) (a b : BitVec N) (hN : 0 < N) :
    (op.wide a b).getLsbD 0 = (a.getLsbD 0 ^^ b.getLsbD 0) := by
  have hext : ∀ x : BitVec N, (op.extend x).getLsbD 0 = x.getLsbD 0 := by
    intro x
    unfold extend
    split_ifs
    · rw [BitVec.getLsbD_signExtend]
      simp [hN]
    · simp
  cases op <;>
    simp only [wide, BitVec.getLsbD_add_zero _ _ (Nat.succ_pos N),
      BitVec.getLsbD_sub_zero _ _ (Nat.succ_pos N), hext]

/-- Bit 0 of the halved result is bit 1 of the exact one. -/
lemma getLsbD_apply_zero (op : HalvingBinop) (a b : BitVec N) (hN : 0 < N) :
    (op.apply a b).getLsbD 0 = (op.wide a b).getLsbD 1 := by
  unfold apply shiftRight
  split_ifs
  · rw [BitVec.getLsbD_setWidth, BitVec.getLsbD_sshiftRight]
    simp [hN]
  · simp [hN]

end HalvingBinop

/-- The callback of the averaging instructions: the low bit of `a ^ b`,
rotated to the top, is the bit the halving discards. -/
def averagingCB (op : HalvingBinop) (vxrm : RoundMode) (a arg2 : BitVec N) : BitVec N :=
  let t0 := a ^^^ arg2
  let t0 := t0 &&& 1#N
  let t0 := t0.rotateRight 1
  let r0 := op.apply a arg2
  emitFixedPointRounding vxrm r0 t0

/-- `emitVRABinaryCB`: the averaging callback with a register operand. -/
def emitVRABinaryCB (op : HalvingBinop) (vxrm : RoundMode) (a arg2 : BitVec N) : BitVec N :=
  averagingCB op vxrm a arg2

/-- `emitVIABinaryCB`: the averaging callback with the constant operand cut
to the element width. -/
def emitVIABinaryCB (op : HalvingBinop) (vxrm : RoundMode) (a : BitVec N) (arg2 : UInt64) :
    BitVec N :=
  averagingCB op vxrm a (BitVec.ofNat N arg2.toNat)

/-- **The averaging operations are `roundoff(a ± b, 1)`**, with `a ± b` exact
at one bit more than the operands and the result cut back to their width. -/
theorem averagingCB_eq (op : HalvingBinop) (vxrm : RoundMode) (a b : BitVec N) (hN : 0 < N) :
    averagingCB op vxrm a b = (roundoff op.signed vxrm (op.wide a b) 1).setWidth N := by
  set t0 := ((a ^^^ b) &&& 1#N).rotateRight 1
  -- the discard holds `a[0] ^ b[0]` on top and nothing below it
  have htop : t0.getLsbD (N - 1) = (op.wide a b).getLsbD 0 := by
    rw [BitVec.getLsbD_rotateRight_one_pred _ hN, op.getLsbD_wide_zero a b hN]
    simp [hN]
  have hlow : (t0.setWidth (N - 1) != 0#(N - 1)) = ((op.wide a b).setWidth 0 != 0#0) := by
    apply Bool.eq_iff_iff.mpr
    rw [BitVec.setWidth_bne_zero_iff, BitVec.setWidth_bne_zero_iff]
    constructor
    · rintro ⟨t, ht, h⟩
      rw [BitVec.getLsbD_rotateRight_one _ (by omega)] at h
      simp at h
    · rintro ⟨t, ht, -⟩
      exact absurd ht (Nat.not_lt_zero t)
  unfold averagingCB emitFixedPointRounding
  dsimp only
  rw [getRound_eq_roundoffIncrement _ _ t0 (op.wide a b) hN one_pos
      (op.getLsbD_apply_zero a b hN) htop hlow,
    roundoff, BitVec.setWidth_add _ _ (by omega), BitVec.setWidth_ofNat_of_le (by omega)]
  rfl

/-! ### Fractional multiply with rounding and saturation -/

/-- `vmi_SHLSQ`: a signed shift left by `s` places that saturates, with
whether it saturated. -/
def shlsq (x : BitVec N) (s : ℕ) : BitVec N × Bool :=
  if 2 ^ (N - 1) - 1 < x.toInt * 2 ^ s then (BitVec.intMax N, true)
  else if x.toInt * 2 ^ s < -2 ^ (N - 1) then (BitVec.intMin N, true)
  else (x <<< s, false)

/-- `emitVRSMULCB`: the element of `vsmul` and the saturation flag that
`updateVXSat` merges into `vxsat`. -/
def emitVRSMULCB (vxrm : RoundMode) (a arg2 : BitVec N) : BitVec N × Bool :=
  -- `vmi_IMUL` at `2 * SEW` bits: the high half in `r0`, the low half in `t1`
  let p := a.signExtend (2 * N) * arg2.signExtend (2 * N)
  let r0 := p.extractLsb' N N
  let t1 := p.setWidth N
  let shifted := shlsq r0 1
  let t1 := t1.rotateLeft 1
  let t2 := t1 &&& 1#N
  let r0 := shifted.1 ||| t2
  let t1 := t1 &&& BitVec.ofInt N (-2)
  (emitFixedPointRounding vxrm r0 t1, shifted.2)

section Vsmul

variable (a b : BitVec N)

/-- The product of `vmi_IMUL` at `2 * SEW` bits is exact. -/
lemma toInt_signExtend_mul (hN : 0 < N) :
    (a.signExtend (2 * N) * b.signExtend (2 * N)).toInt = a.toInt * b.toInt := by
  have hlo := BitVec.le_toInt_mul_toInt (x := a) (y := b)
  have hhi := BitVec.toInt_mul_toInt_le (x := a) (y := b)
  have hpow : (2 : ℤ) ^ (2 * N) = 2 ^ (N * 2 - 2) * 4 := by
    rw [show 2 * N = N * 2 - 2 + 2 by omega, pow_add]
    norm_num
  have hpos : (0 : ℤ) < 2 ^ (N * 2 - 2) := by positivity
  rw [BitVec.toInt_mul, BitVec.toInt_signExtend_of_le (by omega),
    BitVec.toInt_signExtend_of_le (by omega)]
  apply Int.bmod_eq_of_le_mul_two <;> push_cast <;> linarith

/-- The product lies in `[-M*M, M*M]` for `M = 2^(SEW-1)`, and above
`M*M - M` it is `M*M`. -/
lemma toInt_signExtend_mul_bounds (hN : 0 < N) :
    let P := (a.signExtend (2 * N) * b.signExtend (2 * N)).toInt;
    -(2 ^ (N - 1) * 2 ^ (N - 1)) ≤ P ∧ P ≤ 2 ^ (N - 1) * 2 ^ (N - 1) ∧
      (2 ^ (N - 1) * 2 ^ (N - 1) - 2 ^ (N - 1) < P → P = 2 ^ (N - 1) * 2 ^ (N - 1)) := by
  intro P
  have hsq : (2 : ℤ) ^ (N * 2 - 2) = 2 ^ (N - 1) * 2 ^ (N - 1) := by
    rw [← pow_add]
    congr 1
    omega
  have hP : P = a.toInt * b.toInt := toInt_signExtend_mul a b hN
  refine ⟨?_, ?_, ?_⟩
  · rw [hP, ← hsq]
    exact BitVec.le_toInt_mul_toInt
  · rw [hP, ← hsq]
    exact BitVec.toInt_mul_toInt_le
  · rw [hP]
    exact Int.mul_eq_of_mul_self_sub_lt (BitVec.le_toInt a) BitVec.toInt_lt
      (BitVec.le_toInt b) BitVec.toInt_lt

variable (p : BitVec (2 * N))

/-- The high half doubled, with the top bit of the low half rotated in, is the
product shifted right by `SEW - 1`. -/
lemma shiftLeft_or_rotateLeft_eq (hN : 0 < N) :
    p.extractLsb' N N <<< 1 ||| ((p.setWidth N).rotateLeft 1 &&& 1#N) =
      (p.sshiftRight (N - 1)).setWidth N := by
  apply BitVec.eq_of_getLsbD_eq
  intro i hi
  rw [BitVec.getLsbD_or, BitVec.getLsbD_and, BitVec.getLsbD_setWidth,
    BitVec.getLsbD_sshiftRight]
  rcases i with _ | i
  · rw [BitVec.getLsbD_rotateLeft_one_zero _ hN]
    simp [hN, show N - 1 < 2 * N by omega, show N ≠ 0 by omega]
  · rw [BitVec.getLsbD_rotateLeft_one_succ _ hi, BitVec.getLsbD_shiftLeft,
      BitVec.getLsbD_extractLsb']
    simp [hi, show N - 1 + (i + 1) < 2 * N by omega, show N + i = N - 1 + (i + 1) by omega,
      show i < N by omega, show ¬ 2 * N ≤ i + 1 by omega]

/-- The low half rotated left and masked with `-2` is the discard of a shift
by `SEW - 1`: `p[SEW-2]` on top and `p[SEW-3:0]` below it. -/
lemma getRound_rotateLeft_and (vxrm : RoundMode) (r : BitVec N) (hN : 2 ≤ N)
    (hr : r.getLsbD 0 = p.getLsbD (N - 1)) :
    getRound vxrm r ((p.setWidth N).rotateLeft 1 &&& BitVec.ofInt N (-2)) =
      BitVec.ofNat N (roundoffIncrement vxrm p (N - 1)).toNat := by
  set t := (p.setWidth N).rotateLeft 1 &&& BitVec.ofInt N (-2)
  have hmask : BitVec.ofInt N (-2) = ~~~1#N := by
    rw [show (-2 : ℤ) = Int.negSucc 1 from rfl, BitVec.ofInt_negSucc_eq_not_ofNat]
  -- bit `u + 1` of the discard is bit `u` of the product, and bit 0 is clear
  have hsucc : ∀ u, u + 1 < N → t.getLsbD (u + 1) = p.getLsbD u := by
    intro u hu
    rw [BitVec.getLsbD_and, BitVec.getLsbD_rotateLeft_one_succ _ hu, hmask]
    simp [hu, show u < N by omega]
  have hzero : t.getLsbD 0 = false := by
    rw [BitVec.getLsbD_and, hmask]
    simp
  apply getRound_eq_roundoffIncrement _ _ _ p (by omega) (by omega) hr
  · rw [show N - 1 = N - 2 + 1 by omega, hsucc _ (by omega)]
    congr 1
  · apply Bool.eq_iff_iff.mpr
    rw [BitVec.setWidth_bne_zero_iff, BitVec.setWidth_bne_zero_iff]
    constructor
    · rintro ⟨t', ht', h⟩
      rcases t' with _ | u
      · rw [hzero] at h
        exact absurd h (by decide)
      · exact ⟨u, by omega, (hsucc u (by omega)) ▸ h⟩
    · rintro ⟨u, hu, h⟩
      exact ⟨u + 1, by omega, (hsucc u (by omega)).symm ▸ h⟩

/-- Doubling the high half of a product in `[-M*M, M*M]`, `M = 2^(SEW-1)`,
saturates exactly at `M*M`, and never downwards. -/
lemma shlsq_extractLsb'_high (hN : 2 ≤ N) (hlo : -(2 ^ (N - 1) * 2 ^ (N - 1)) ≤ p.toInt)
    (hhi : p.toInt ≤ 2 ^ (N - 1) * 2 ^ (N - 1)) :
    shlsq (p.extractLsb' N N) 1 =
      if p.toInt = 2 ^ (N - 1) * 2 ^ (N - 1) then (BitVec.intMax N, true)
      else (p.extractLsb' N N <<< 1, false) := by
  set L : ℤ := 2 ^ (N - 2) with hLdef
  have hL : 0 < L := by positivity
  have hM : (2 : ℤ) ^ (N - 1) = 2 * L := by
    rw [hLdef, ← pow_succ']
    congr 1
    omega
  have hW : (2 : ℤ) ^ N = 4 * L := by
    rw [hLdef, show (4 : ℤ) = 2 ^ 2 by norm_num, ← pow_add]
    congr 1
    omega
  rw [hM] at hlo hhi
  set q := p.toInt / (4 * L)
  -- the high half `q` is at least `-L`, and reaches `L` only at `M*M`
  have hq_lo : -L ≤ q := by
    rw [Int.le_ediv_iff_mul_le (by positivity)]
    linarith
  have hsat : L ≤ q ↔ p.toInt = 2 * L * (2 * L) := by
    rw [Int.le_ediv_iff_mul_le (by positivity)]
    constructor <;> intro h <;> linarith
  unfold shlsq
  rw [BitVec.toInt_extractLsb'_high p (by omega), hW, pow_one, hM]
  by_cases hP : p.toInt = 2 * L * (2 * L)
  · have := hsat.mpr hP
    rw [if_pos (by omega), if_pos hP]
  · have : q < L := lt_of_not_ge (fun h => hP (hsat.mp h))
    rw [if_neg (by omega), if_neg (by omega), if_neg hP]

/-- The product shifted right by `SEW - 1` and rounded does not wrap at
`2 * SEW` bits. -/
lemma toInt_roundoff_product (vxrm : RoundMode) (hN : 2 ≤ N)
    (hlo : -(2 ^ (N - 1) * 2 ^ (N - 1)) ≤ p.toInt) (hhi : p.toInt ≤ 2 ^ (N - 1) * 2 ^ (N - 1)) :
    (roundoff true vxrm p (N - 1)).toInt =
      p.toInt / 2 ^ (N - 1) + (roundoffIncrement vxrm p (N - 1)).toNat := by
  set M : ℤ := 2 ^ (N - 1) with hMdef
  have hM : 2 ≤ M := by
    rw [hMdef]
    calc (2 : ℤ) = 2 ^ 1 := by norm_num
      _ ≤ 2 ^ (N - 1) := pow_le_pow_right₀ (by norm_num) (by omega)
  have hW : (2 : ℤ) ^ (2 * N) = 4 * (M * M) := by
    rw [hMdef, ← pow_add, show (4 : ℤ) = 2 ^ 2 by norm_num, ← pow_add]
    congr 1
    omega
  have hq_lo : -M ≤ p.toInt / M := by
    rw [Int.le_ediv_iff_mul_le (by omega)]
    linarith
  have hq_hi : p.toInt / M ≤ M := by
    have : p.toInt / M < M + 1 := by
      rw [Int.ediv_lt_iff_lt_mul (by omega)]
      nlinarith
    omega
  have hb : ((roundoffIncrement vxrm p (N - 1)).toNat : ℤ) ≤ 1 := by
    cases roundoffIncrement vxrm p (N - 1) <;> simp
  have hbmod : (((roundoffIncrement vxrm p (N - 1)).toNat : ℕ) : ℤ).bmod (2 ^ (2 * N)) =
      (roundoffIncrement vxrm p (N - 1)).toNat := by
    apply Int.bmod_eq_of_le_mul_two <;> push_cast <;> rw [hW] <;> nlinarith
  rw [roundoff, shiftRight, if_pos rfl, BitVec.toInt_add, BitVec.toInt_sshiftRight,
    Int.shiftRight_eq_div_pow, BitVec.toInt_ofNat', hbmod]
  apply Int.bmod_eq_of_le_mul_two <;> push_cast <;> rw [hW] <;> nlinarith

/-- **`vsmul` is `clip(roundoff_signed(a * b, SEW - 1))`**, and the flag that
sets `vxsat` is the clip's saturation. -/
theorem emitVRSMULCB_eq (vxrm : RoundMode) (hN : 2 ≤ N) :
    emitVRSMULCB vxrm a b =
      clip N (roundoff true vxrm (a.signExtend (2 * N) * b.signExtend (2 * N)) (N - 1)) := by
  obtain ⟨hlo, hhi, hgap⟩ := toInt_signExtend_mul_bounds a b (by omega)
  set p := a.signExtend (2 * N) * b.signExtend (2 * N)
  have hR := toInt_roundoff_product p vxrm hN hlo hhi
  set M : ℤ := 2 ^ (N - 1) with hMdef
  have hMpos : 0 < M := by positivity
  unfold emitVRSMULCB clip
  dsimp only
  rw [shlsq_extractLsb'_high p hN hlo hhi, hR]
  by_cases hP : p.toInt = M * M
  · -- `MIN * MIN`: the low half is clear, so nothing is rounded on either side
    have hdvd : (2 : ℤ) ^ N ∣ p.toInt := by
      rw [hP, hMdef, ← pow_add]
      exact pow_dvd_pow 2 (by omega)
    have hlow : p.setWidth N = 0#N := by
      apply BitVec.eq_of_toNat_eq
      have := BitVec.toInt_emod_two_pow p (show N ≤ 2 * N by omega)
      rw [Int.emod_eq_zero_of_dvd hdvd] at this
      rw [BitVec.toNat_zero]
      omega
    have hincr : roundoffIncrement vxrm p (N - 1) = false :=
      roundoffIncrement_eq_false_of_dvd vxrm (by omega)
        ((pow_dvd_pow 2 (by omega)).trans hdvd)
    have hq : p.toInt / M = M := by
      rw [hP, Int.mul_ediv_cancel _ hMpos.ne']
    have hrot : (0#N).rotateLeft 1 = 0#N := by
      ext i hi
      simp
    rw [if_pos hP, hincr, hq, ← hMdef, if_pos (by omega), hlow, hrot]
    simp [emitFixedPointRounding, getRound_eq _ _ _ (show 0 < N by omega), roundBit_false]
  · -- otherwise the product is at most `M*M - M`, and the rounded value fits
    have hle : p.toInt ≤ M * M - M := not_lt.mp (fun h => hP (hgap h))
    have hq_lo : -M ≤ p.toInt / M := by
      rw [Int.le_ediv_iff_mul_le hMpos]
      linarith
    have hq_hi : p.toInt / M + (roundoffIncrement vxrm p (N - 1)).toNat ≤ M - 1 := by
      cases hincr : roundoffIncrement vxrm p (N - 1)
      · have : p.toInt / M < M := by
          rw [Int.ediv_lt_iff_lt_mul hMpos]
          linarith
        simp only [Bool.toNat_false, Nat.cast_zero, add_zero]
        omega
      · -- a rounded product is not a multiple of `M`, so it lies below `M*M - M`
        have hmod : p.toInt % M ≠ 0 := fun h0 => by
          rw [roundoffIncrement_eq_false_of_dvd vxrm (by omega) (Int.dvd_of_emod_eq_zero h0)]
            at hincr
          exact absurd hincr (by decide)
        have hpos : 0 < p.toInt % M := lt_of_le_of_ne (Int.emod_nonneg _ hMpos.ne') (Ne.symm hmod)
        have hdiv := Int.mul_ediv_add_emod p.toInt M
        have : p.toInt / M < M - 1 := by nlinarith
        simp only [Bool.toNat_true, Nat.cast_one]
        omega
    have hbit : ((p.sshiftRight (N - 1)).setWidth N).getLsbD 0 = p.getLsbD (N - 1) := by
      rw [BitVec.getLsbD_setWidth, BitVec.getLsbD_sshiftRight]
      simp [show N - 1 < 2 * N by omega, show 0 < N by omega, show N ≠ 0 by omega]
    rw [if_neg hP, ← hMdef, if_neg (by omega), if_neg (by omega),
      shiftLeft_or_rotateLeft_eq p (by omega), emitFixedPointRounding,
      getRound_rotateLeft_and p vxrm _ hN hbit, roundoff, shiftRight, if_pos rfl,
      BitVec.setWidth_add _ _ (by omega), BitVec.setWidth_ofNat_of_le (by omega)]

end Vsmul

/-- `MIN * MIN` saturates to `MAX` and sets the flag. -/
example : emitVRSMULCB .rnu 0x80#8 0x80#8 = (0x7F#8, true) := by decide

/-! ### Every element width -/

/-- **Vector fixed-point rounding is the specification's `roundoff`** at every
element width, in every rounding mode, for all operands: the rounding shifts
round `v >> (s mod SEW)`, the averaging operations round `(a ± b) >> 1` taken
exactly at `SEW + 1` bits, and `vsmul` clips the rounded `(a * b) >> (SEW-1)`,
saturating exactly when the clip does. -/
theorem vector_fixed_point_rounding (SEW : ℕ) (hSEW : SEW ∈ [8, 16, 32, 64])
    (vxrm : RoundMode) :
    (∀ (binop : ShiftBinop) (v arg2 : BitVec SEW),
      emitVRRShiftIntCB binop vxrm v arg2 = roundoff binop.signed vxrm v (arg2.toNat % SEW)) ∧
    (∀ (binop : ShiftBinop) (v : BitVec SEW) (c : UInt64),
      emitVIRShiftIntCB binop vxrm v c = roundoff binop.signed vxrm v (c.toNat % SEW)) ∧
    (∀ (op : HalvingBinop) (a arg2 : BitVec SEW),
      emitVRABinaryCB op vxrm a arg2 =
        (roundoff op.signed vxrm (op.wide a arg2) 1).setWidth SEW) ∧
    (∀ (op : HalvingBinop) (a : BitVec SEW) (c : UInt64),
      emitVIABinaryCB op vxrm a c =
        (roundoff op.signed vxrm (op.wide a (BitVec.ofNat SEW c.toNat)) 1).setWidth SEW) ∧
    (∀ a arg2 : BitVec SEW,
      emitVRSMULCB vxrm a arg2 =
        clip SEW (roundoff true vxrm (a.signExtend (2 * SEW) * arg2.signExtend (2 * SEW))
          (SEW - 1))) := by
  -- every element width is a power of two of at least two bits
  obtain ⟨j, hpow, hge⟩ : ∃ j, SEW = 2 ^ j ∧ 2 ≤ SEW := by
    simp only [List.mem_cons, List.not_mem_nil, or_false] at hSEW
    rcases hSEW with rfl | rfl | rfl | rfl
    · exact ⟨3, rfl, by norm_num⟩
    · exact ⟨4, rfl, by norm_num⟩
    · exact ⟨5, rfl, by norm_num⟩
    · exact ⟨6, rfl, by norm_num⟩
  refine ⟨fun binop v arg2 => emitVRRShiftIntCB_eq hpow binop vxrm v arg2,
    fun binop v c => emitVIRShiftIntCB_eq hpow binop vxrm v c,
    fun op a arg2 => averagingCB_eq op vxrm a arg2 (by omega),
    fun op a c => averagingCB_eq op vxrm a _ (by omega),
    fun a arg2 => emitVRSMULCB_eq a arg2 vxrm hge⟩

/-- At `SEW = 8`, rounding to nearest even. -/
theorem vector_fixed_point_rounding_sew8 :
    (8 : ℕ) ∈ [8, 16, 32, 64] ∧
      ∀ a arg2 : BitVec 8,
        emitVRSMULCB .rne a arg2 =
          clip 8 (roundoff true .rne (a.signExtend (2 * 8) * arg2.signExtend (2 * 8)) (8 - 1)) :=
  ⟨by decide, (vector_fixed_point_rounding 8 (by decide) .rne).2.2.2.2⟩

end RiscvOvpsim
