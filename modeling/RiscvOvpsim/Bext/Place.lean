import Mathlib.Tactic

/-!
The bit-field place of the B extension (`doBFP91_32`, `doBFP92_32`,
`doBFP91_64`, `doBFP92_64` in `riscvBExtension.c`), with the rotate and the
shift-ones it is built from (`doROL32`, `doROL64`, `doSLO32`, `doSLO64`).

`bfp` writes a field of `rs2` into `rs1`.  Its configuration, a length and an
offset, is in the upper bits of `rs2`; a zero length means half the width.
The draft 0.91 semantics places the field by rotations, so that a field
running past the top bit wraps around to bit 0; the draft 0.92 semantics
places it by shifts, so that such a field is cut at the top bit, and its
64-bit form reads the configuration from the upper word.

* `rol_ofNat`, `getLsbD_slo_zero`: `doROL` by an amount below the width is
  the rotation, and `doSLO(0, len)` is `len` ones;
* `getLsbD_bfpPlace`, `getLsbD_bfpRotate`: the placements bit by bit;
* `bfpRotate_eq_bfpPlace`: the two placements agree on a field that does
  not wrap;
* `bfp_places_field`: `doBFP92_32` and `doBFP92_64` place the low `len` bits
  of `rs2` at bit `off` of `rs1`, cut at the top bit, and `doBFP91_32`,
  `doBFP91_64` place them wrapping around;
* `bfp91_32_eq_bfp92_32`: the two semantics agree at XLEN 32 whenever the
  field does not wrap, since they decode the same length and offset.
-/

namespace RiscvOvpsim

open BitVec

variable {w : ℕ}

/-! ### The model -/

/-- `doROL` at `XLEN = w`: `(rs1 << shamt) | (rs1 >> ((XLEN - shamt) &
(XLEN - 1)))` with `shamt = rs2 & (XLEN - 1)`. -/
def rol (rs1 rs2 : BitVec w) : BitVec w :=
  let shamt := rs2.toNat &&& (w - 1)
  rs1 <<< shamt ||| rs1 >>> ((w - shamt) &&& (w - 1))

def doROL32 (rs1 rs2 : BitVec 32) : BitVec 32 := rol rs1 rs2
def doROL64 (rs1 rs2 : BitVec 64) : BitVec 64 := rol rs1 rs2

/-- `doSLO` at `XLEN = w`: `~(~rs1 << shamt)` with `shamt = rs2 & (XLEN - 1)`. -/
def slo (rs1 rs2 : BitVec w) : BitVec w :=
  let shamt := rs2.toNat &&& (w - 1)
  ~~~(~~~rs1 <<< shamt)

def doSLO32 (rs1 rs2 : BitVec 32) : BitVec 32 := slo rs1 rs2
def doSLO64 (rs1 rs2 : BitVec 64) : BitVec 64 := slo rs1 rs2

/-- The placement of 0.92: `mask = doSLO(0, len) << off`, `data = rs2 << off`,
and `(data & mask) | (rs1 & ~mask)`. -/
def bfpPlace (rs1 rs2 : BitVec w) (off len : ℕ) : BitVec w :=
  let mask := slo 0 (BitVec.ofNat w len) <<< off
  let data := rs2 <<< off
  (data &&& mask) ||| (rs1 &&& ~~~mask)

/-- The placement of 0.91: `mask = doROL(doSLO(0, len), off)`,
`data = doROL(rs2, off)`, and `(data & mask) | (rs1 & ~mask)`. -/
def bfpRotate (rs1 rs2 : BitVec w) (off len : ℕ) : BitVec w :=
  let mask := rol (slo 0 (BitVec.ofNat w len)) (BitVec.ofNat w off)
  let data := rol rs2 (BitVec.ofNat w off)
  (data &&& mask) ||| (rs1 &&& ~~~mask)

/-- `doBFP91` at `XLEN = w`: the length in bits 27:24 of `rs2`, 16 when it is
zero, and the offset in bits 16 up, modulo `XLEN`. -/
def bfp91 (rs1 rs2 : BitVec w) : BitVec w :=
  let len := (rs2.toNat >>> 24) &&& 15
  let off := (rs2.toNat >>> 16) &&& (w - 1)
  let len := if len ≠ 0 then len else 16
  bfpRotate rs1 rs2 off len

def doBFP91_32 (rs1 rs2 : BitVec 32) : BitVec 32 := bfp91 rs1 rs2
def doBFP91_64 (rs1 rs2 : BitVec 64) : BitVec 64 := bfp91 rs1 rs2

/-- `doBFP92_32`: the configuration is the upper half of `rs2`, its length
in bits 11:8 (16 when zero) and its offset in bits 4:0. -/
def doBFP92_32 (rs1 rs2 : BitVec 32) : BitVec 32 :=
  let cfg := (rs2 >>> 16).toNat
  let len := (cfg >>> 8) &&& 15
  let off := cfg &&& 31
  let len := if len ≠ 0 then len else 16
  bfpPlace rs1 rs2 off len

/-- `doBFP92_64`: the configuration is the upper word of `rs2`, or its upper
half when its top two bits are `10`; its length in bits 12:8 (32 when zero)
and its offset in bits 5:0. -/
def doBFP92_64 (rs1 rs2 : BitVec 64) : BitVec 64 :=
  let cfg := (rs2 >>> 32).toNat
  let cfg := if cfg >>> 30 = 2 then cfg >>> 16 else cfg
  let len := (cfg >>> 8) &&& 31
  let off := cfg &&& 63
  let len := if len ≠ 0 then len else 32
  bfpPlace rs1 rs2 off len

/-! ### Rotations and masks -/

section Pow

variable {k : ℕ} (hw : w = 2 ^ k)
include hw

/-- An amount below a power-of-two width is its own value modulo the width. -/
lemma and_pred_of_lt {n : ℕ} (hn : n < w) : n &&& (w - 1) = n := by
  subst hw
  rw [Nat.and_two_pow_sub_one_eq_mod, Nat.mod_eq_of_lt hn]

lemma toNat_ofNat_and_pred {n : ℕ} (hn : n < w) : (BitVec.ofNat w n).toNat &&& (w - 1) = n := by
  have hlt : n < 2 ^ w := lt_of_lt_of_le hn (Nat.lt_two_pow_self).le
  rw [BitVec.toNat_ofNat, Nat.mod_eq_of_lt hlt, and_pred_of_lt hw hn]

/-- `doROL` by an amount below the width is the rotation. -/
lemma rol_ofNat (x : BitVec w) {off : ℕ} (hoff : off < w) : rol x (BitVec.ofNat w off) = x.rotateLeft off := by
  unfold rol
  dsimp only
  rw [toNat_ofNat_and_pred hw hoff, BitVec.rotateLeft, BitVec.rotateLeftAux, Nat.mod_eq_of_lt hoff]
  rcases Nat.eq_zero_or_pos off with h0 | hpos
  · -- a zero amount: both shifts of the right half are by the full width or none
    subst h0
    have hw0 : w &&& (w - 1) = 0 := by
      subst hw
      rw [Nat.and_two_pow_sub_one_eq_mod, Nat.mod_self]
    apply BitVec.eq_of_getLsbD_eq
    intro i _
    rw [Nat.sub_zero, hw0]
    simp [getLsbD_ushiftRight]
  · rw [and_pred_of_lt hw (by omega)]

/-- `doSLO(0, len)` for a length below the width: the low `len` bits set. -/
lemma getLsbD_slo_zero {len : ℕ} (hlen : len < w) (i : ℕ) :
    (slo 0 (BitVec.ofNat w len)).getLsbD i = (decide (i < w) && decide (i < len)) := by
  unfold slo
  dsimp only
  rw [toNat_ofNat_and_pred hw hlen, getLsbD_not, getLsbD_shiftLeft, getLsbD_not]
  by_cases hi : i < w
  · by_cases hl : i < len
    · simp [hi, hl]
    · simp [hi, hl, show i - len < w by omega]
  · simp [hi]

end Pow

/-- Bit `i` of a rotation, read at one index modulo the width. -/
lemma getLsbD_rotateLeft_mod (x : BitVec w) {off i : ℕ} (hoff : off < w) (hi : i < w) :
    (x.rotateLeft off).getLsbD i = x.getLsbD ((i + w - off) % w) := by
  rw [getLsbD_rotateLeft, Nat.mod_eq_of_lt hoff, Bool.cond_eq_ite]
  by_cases hlt : i < off
  · rw [if_pos (decide_eq_true hlt)]
    congr 1
    rw [Nat.mod_eq_of_lt (by omega)]
    omega
  · rw [if_neg (by simpa using hlt), decide_eq_true hi, Bool.true_and]
    congr 1
    rw [show i + w - off = (i - off) + w by omega, Nat.add_mod_right, Nat.mod_eq_of_lt (by omega)]

/-! ### The placements bit by bit -/

section Place

variable {k : ℕ} (hw : w = 2 ^ k) (rs1 rs2 : BitVec w) {off len : ℕ}
include hw

/-- The 0.92 placement: the bits of `rs2` from bit 0 at bits `off` to
`off + len` of `rs1`, cut at the width. -/
lemma getLsbD_bfpPlace (hlen : len < w) {i : ℕ} (hi : i < w) :
    (bfpPlace rs1 rs2 off len).getLsbD i = if off ≤ i ∧ i < off + len then rs2.getLsbD (i - off) else rs1.getLsbD i := by
  unfold bfpPlace
  dsimp only
  rw [getLsbD_or, getLsbD_and, getLsbD_and, getLsbD_not, getLsbD_shiftLeft, getLsbD_shiftLeft,
    getLsbD_slo_zero hw hlen, decide_eq_true hi]
  by_cases hf : off ≤ i ∧ i < off + len
  · have hoff : ¬ i < off := by omega
    have hin : i - off < len := by omega
    have hin' : i - off < w := by omega
    simp [hf, hoff, hin, hin']
  · rw [if_neg hf]
    by_cases hoff : i < off
    · simp [hoff]
    · have hout : ¬ i - off < len := by omega
      simp [hoff, hout]

/-- The 0.91 placement: the same bits, read and written modulo the width, so
that a field past the top bit wraps around to bit 0. -/
lemma getLsbD_bfpRotate (hoff : off < w) (hlen : len < w) {i : ℕ} (hi : i < w) :
    (bfpRotate rs1 rs2 off len).getLsbD i =
      if (i + w - off) % w < len then rs2.getLsbD ((i + w - off) % w) else rs1.getLsbD i := by
  unfold bfpRotate
  dsimp only
  have hj : (i + w - off) % w < w := Nat.mod_lt _ (by omega)
  rw [rol_ofNat hw _ hoff, rol_ofNat hw _ hoff, getLsbD_or, getLsbD_and, getLsbD_and, getLsbD_not,
    getLsbD_rotateLeft_mod _ hoff hi, getLsbD_rotateLeft_mod _ hoff hi, getLsbD_slo_zero hw hlen,
    decide_eq_true hi, decide_eq_true hj]
  by_cases hf : (i + w - off) % w < len
  · simp [hf]
  · simp [hf]

/-- The two placements agree on a field that does not wrap. -/
lemma bfpRotate_eq_bfpPlace (hlen : len < w) (hfit : off + len ≤ w) :
    bfpRotate rs1 rs2 off len = bfpPlace rs1 rs2 off len := by
  rcases Nat.eq_zero_or_pos len with h0 | hpos
  · -- an empty field leaves `rs1` in both, at any offset
    subst h0
    simp [bfpRotate, bfpPlace, slo, rol]
  · have hoff : off < w := by omega
    apply BitVec.eq_of_getLsbD_eq
    intro i hi
    rw [getLsbD_bfpRotate hw rs1 rs2 hoff hlen hi, getLsbD_bfpPlace hw rs1 rs2 hlen hi]
    by_cases hlo : off ≤ i
    · -- inside and above the offset the rotation reads at `i - off`
      have hidx : (i + w - off) % w = i - off := by
        rw [show i + w - off = (i - off) + w by omega, Nat.add_mod_right, Nat.mod_eq_of_lt (by omega)]
      rw [hidx]
      by_cases hin : i < off + len
      · have hr : i - off < len := by omega
        rw [if_pos hr, if_pos ⟨hlo, hin⟩]
      · have hr : ¬ i - off < len := by omega
        have hp : ¬ (off ≤ i ∧ i < off + len) := fun h => hin h.2
        rw [if_neg hr, if_neg hp]
    · -- below the offset the rotation reads at `i + w - off`, at least `len`
      have hidx : (i + w - off) % w = i + w - off := Nat.mod_eq_of_lt (by omega)
      have hr : ¬ i + w - off < len := by omega
      have hp : ¬ (off ≤ i ∧ i < off + len) := fun h => hlo h.1
      rw [hidx, if_neg hr, if_neg hp]

end Place

/-! ### The four source functions -/

/-- The decoded length of a field: the masked bits, or the default when they
are zero, both below the bound `w`. -/
lemma len_lt {n m d w : ℕ} (hm : m < w) (hd : d < w) : (if n &&& m ≠ 0 then n &&& m else d) < w := by
  have : n &&& m ≤ m := Nat.and_le_right
  split_ifs <;> omega

/-- **`bfp` places a field.**  For every bit `i` below XLEN: `doBFP92_32`
and `doBFP92_64` give bit `i - off` of `rs2` for `off ≤ i < off + len` and
bit `i` of `rs1` otherwise, the field cut at the top bit; `doBFP91_32` and
`doBFP91_64` give bit `(i - off) mod XLEN` of `rs2` when that is below `len`,
the field wrapping around; `off` and `len` decoded from `rs2` as each
function does. -/
theorem bfp_places_field (rs1 rs2 : BitVec 32) (rs1' rs2' : BitVec 64) {i : ℕ} (hi : i < 32) {j : ℕ}
    (hj : j < 64) :
    (let off := (rs2.toNat >>> 16) &&& 31
     let len := if (rs2.toNat >>> 24) &&& 15 ≠ 0 then (rs2.toNat >>> 24) &&& 15 else 16
     (doBFP92_32 rs1 rs2).getLsbD i =
        (if off ≤ i ∧ i < off + len then rs2.getLsbD (i - off) else rs1.getLsbD i) ∧
      (doBFP91_32 rs1 rs2).getLsbD i =
        if (i + 32 - off) % 32 < len then rs2.getLsbD ((i + 32 - off) % 32) else rs1.getLsbD i) ∧
    (let cfg := if (rs2'.toNat >>> 32) >>> 30 = 2 then (rs2'.toNat >>> 32) >>> 16 else rs2'.toNat >>> 32
     let off := cfg &&& 63
     let len := if (cfg >>> 8) &&& 31 ≠ 0 then (cfg >>> 8) &&& 31 else 32
     (doBFP92_64 rs1' rs2').getLsbD j =
        if off ≤ j ∧ j < off + len then rs2'.getLsbD (j - off) else rs1'.getLsbD j) ∧
    (let off := (rs2'.toNat >>> 16) &&& 63
     let len := if (rs2'.toNat >>> 24) &&& 15 ≠ 0 then (rs2'.toNat >>> 24) &&& 15 else 16
     (doBFP91_64 rs1' rs2').getLsbD j =
        if (j + 64 - off) % 64 < len then rs2'.getLsbD ((j + 64 - off) % 64) else rs1'.getLsbD j) := by
  have h32 : (32 : ℕ) = 2 ^ 5 := by norm_num
  have h64 : (64 : ℕ) = 2 ^ 6 := by norm_num
  have hoff32 : (rs2.toNat >>> 16) &&& 31 < 32 := lt_of_le_of_lt Nat.and_le_right (by norm_num)
  have hoff64 : (rs2'.toNat >>> 16) &&& 63 < 64 := lt_of_le_of_lt Nat.and_le_right (by norm_num)
  -- the 0.92 configuration of XLEN 32 is the 0.91 one: bits 27:24 and 20:16
  have hcfg : rs2.toNat >>> 16 >>> 8 = rs2.toNat >>> 24 := by
    rw [← Nat.shiftRight_add]
  refine ⟨⟨?_, ?_⟩, ?_, ?_⟩
  · simp only [doBFP92_32, BitVec.toNat_ushiftRight, hcfg]
    exact getLsbD_bfpPlace h32 rs1 rs2 (len_lt (by norm_num) (by norm_num)) hi
  · exact getLsbD_bfpRotate h32 rs1 rs2 hoff32 (len_lt (by norm_num) (by norm_num)) hi
  · simp only [doBFP92_64, BitVec.toNat_ushiftRight]
    exact getLsbD_bfpPlace h64 rs1' rs2' (len_lt (by norm_num) (by norm_num)) hj
  · exact getLsbD_bfpRotate h64 rs1' rs2' hoff64 (len_lt (by norm_num) (by norm_num)) hj

/-- A byte field of length 4 at offset 8: bit 8 of the result is bit 0 of
`rs2`. -/
theorem bfp_places_field_at : (doBFP92_32 0 0x04080001).getLsbD 8 = true := by
  have h := (bfp_places_field 0 0x04080001 0 0 (by decide : 8 < 32) (by decide : 0 < 64)).1.1
  rw [h]
  decide

/-- **The 0.91 and 0.92 semantics agree at XLEN 32 on a field that does not
wrap**: they decode the same length and offset, and rotating the field into
place is shifting it when it ends below bit 32. -/
theorem bfp91_32_eq_bfp92_32 (rs1 rs2 : BitVec 32)
    (hfit : ((rs2.toNat >>> 16) &&& 31) +
      (if (rs2.toNat >>> 24) &&& 15 ≠ 0 then (rs2.toNat >>> 24) &&& 15 else 16) ≤ 32) :
    doBFP91_32 rs1 rs2 = doBFP92_32 rs1 rs2 := by
  have hcfg : rs2.toNat >>> 16 >>> 8 = rs2.toNat >>> 24 := by
    rw [← Nat.shiftRight_add]
  simp only [doBFP91_32, bfp91, doBFP92_32, BitVec.toNat_ushiftRight, hcfg]
  exact bfpRotate_eq_bfpPlace (by norm_num : (32 : ℕ) = 2 ^ 5) rs1 rs2
    (len_lt (by norm_num) (by norm_num)) hfit

/-- A field of length 4 at offset 8 fits, so both versions agree on it. -/
theorem bfp91_32_eq_bfp92_32_fits : doBFP91_32 0xffffffff 0x04080001 = doBFP92_32 0xffffffff 0x04080001 :=
  bfp91_32_eq_bfp92_32 0xffffffff 0x04080001 (by decide)

end RiscvOvpsim
