import Mathlib.Tactic
import RiscvOvpsim.Lib.BitLoop

/-!
Bit extract and bit deposit of the B extension (`doBEXT32`, `doBEXT64`,
`doBDEP32`, `doBDEP64` in `riscvBExtension.c`). Both loop over the bit
positions `i` with a second counter `j` that advances only on the bits of
the mask `rs2`: extract copies bit `i` of `rs1` to bit `j`, deposit copies
bit `j` of `rs1` to bit `i`.

The counter `j` is the rank of `i` in the mask (`BitVec.maskRank`); with it
as the loop invariant (`BextInv`, `BdepInv`), each loop has a closed form
(`bext_getLsbD`, `bdep_getLsbD`), and the round trips follow from the rank
taking each value below the popcount once (`bext_bdep`, `bdep_bext`).
-/

namespace RiscvOvpsim

open BitVec

variable {w : ℕ}

/-! ### The loops -/

/-- One pass `i` of the loop of `doBEXT32`/`doBEXT64` on `(r, j)`. -/
def bextStep (rs1 rs2 : BitVec w) (st : BitVec w × ℕ) (i : ℕ) : BitVec w × ℕ :=
  if (rs2 >>> i) &&& 1#w != 0#w then
    (if (rs1 >>> i) &&& 1#w != 0#w then st.1 ||| 1#w <<< st.2 else st.1, st.2 + 1)
  else st

/-- `for (i = 0, j = 0; i < XLEN; i++)` over `bextStep`, from `r = 0`. -/
def bext (rs1 rs2 : BitVec w) : BitVec w :=
  ((List.range w).foldl (bextStep rs1 rs2) (0#w, 0)).1

def doBEXT32 (rs1 rs2 : BitVec 32) : BitVec 32 :=
  bext rs1 rs2

def doBEXT64 (rs1 rs2 : BitVec 64) : BitVec 64 :=
  bext rs1 rs2

/-- One pass `i` of the loop of `doBDEP32`/`doBDEP64` on `(r, j)`. -/
def bdepStep (rs1 rs2 : BitVec w) (st : BitVec w × ℕ) (i : ℕ) : BitVec w × ℕ :=
  if (rs2 >>> i) &&& 1#w != 0#w then
    (if (rs1 >>> st.2) &&& 1#w != 0#w then st.1 ||| 1#w <<< i else st.1, st.2 + 1)
  else st

/-- `for (i = 0, j = 0; i < XLEN; i++)` over `bdepStep`, from `r = 0`. -/
def bdep (rs1 rs2 : BitVec w) : BitVec w :=
  ((List.range w).foldl (bdepStep rs1 rs2) (0#w, 0)).1

def doBDEP32 (rs1 rs2 : BitVec 32) : BitVec 32 :=
  bdep rs1 rs2

def doBDEP64 (rs1 rs2 : BitVec 64) : BitVec 64 :=
  bdep rs1 rs2

/-! ### Loop invariants -/

/-- After the passes below `n`, `j` is the rank of `n` in the mask and the
result holds the bits of `x` at the mask bits below `n`, packed by rank. -/
def BextInv (x m : BitVec w) (n : ℕ) (st : BitVec w × ℕ) : Prop :=
  st.2 = maskRank m n ∧ ∀ k < w,
    st.1.getLsbD k = true ↔ ∃ i < n, m.getLsbD i = true ∧ maskRank m i = k ∧ x.getLsbD i = true

/-- After the passes below `n`, `j` is the rank of `n` in the mask and the
result holds, at each mask bit below `n`, the bit of `x` at its rank. -/
def BdepInv (x m : BitVec w) (n : ℕ) (st : BitVec w × ℕ) : Prop :=
  st.2 = maskRank m n ∧ ∀ k < w,
    st.1.getLsbD k = (decide (k < n) && m.getLsbD k && x.getLsbD (maskRank m k))

/-- One pass of extract keeps its invariant: a mask bit `n` packs bit `n`
of `x` at rank `maskRank m n`, which is below the width. -/
lemma BextInv.step {x m : BitVec w} {n : ℕ} {st : BitVec w × ℕ} (hn : n < w)
    (h : BextInv x m n st) : BextInv x m (n + 1) (bextStep x m st n) := by
  obtain ⟨hj, hr⟩ := h
  have hrank : maskRank m n < w := lt_of_le_of_lt (maskRank_le m n) hn
  have hlt : ∀ i, i < n + 1 ↔ i < n ∨ i = n := fun i => by omega
  rw [bextStep, bne_ushiftRight_and_one m hn, bne_ushiftRight_and_one x hn]
  by_cases hm : m.getLsbD n = true
  · refine ⟨by rw [if_pos hm, maskRank_succ, if_pos hm, hj], fun k hk => ?_⟩
    rw [if_pos hm]
    simp only [hlt, or_and_right, exists_or, exists_eq_left, hm, true_and]
    by_cases hx : x.getLsbD n = true
    · rw [if_pos hx, getLsbD_or, Bool.or_eq_true, hr k hk, getLsbD_one_shiftLeft, hj]
      simp [hrank, hx]
    · rw [if_neg hx, hr k hk]
      simp [hx]
  · refine ⟨by rw [if_neg hm, maskRank_succ, if_neg hm, hj, Nat.add_zero], fun k hk => ?_⟩
    rw [if_neg hm, hr k hk]
    simp only [hlt, or_and_right, exists_or, exists_eq_left, hm, Bool.false_eq_true, false_and,
      or_false]

/-- One pass of deposit keeps its invariant: a mask bit `n` takes the bit of
`x` at its rank. -/
lemma BdepInv.step {x m : BitVec w} {n : ℕ} {st : BitVec w × ℕ} (hn : n < w)
    (h : BdepInv x m n st) : BdepInv x m (n + 1) (bdepStep x m st n) := by
  obtain ⟨hj, hr⟩ := h
  have hrank : st.2 < w := hj ▸ lt_of_le_of_lt (maskRank_le m n) hn
  rw [bdepStep, bne_ushiftRight_and_one m hn, bne_ushiftRight_and_one x hrank, hj]
  by_cases hm : m.getLsbD n = true
  · refine ⟨by rw [if_pos hm, maskRank_succ, if_pos hm], fun k hk => ?_⟩
    rw [if_pos hm]
    by_cases hkn : k = n
    · subst hkn
      by_cases hx : x.getLsbD (maskRank m k) = true
      · rw [if_pos hx, getLsbD_or, getLsbD_one_shiftLeft]
        simp [hx, hm, hk]
      · rw [if_neg hx, hr k hk]
        simp [hx]
    · have hkn' : k < n + 1 ↔ k < n := by omega
      split_ifs
      · rw [getLsbD_or, hr k hk, getLsbD_one_shiftLeft]
        simp [hkn', Ne.symm hkn]
      · rw [hr k hk]
        simp [hkn']
  · refine ⟨by rw [if_neg hm, maskRank_succ, if_neg hm, hj, Nat.add_zero], fun k hk => ?_⟩
    rw [if_neg hm, hr k hk]
    by_cases hkn : k = n
    · subst hkn
      simp [hm]
    · have hkn' : k < n + 1 ↔ k < n := by omega
      simp [hkn']

lemma bextInv_foldl (x m : BitVec w) :
    ∀ n ≤ w, BextInv x m n ((List.range n).foldl (bextStep x m) (0#w, 0))
  | 0, _ => ⟨rfl, fun k _ => by simp⟩
  | n + 1, hn => by
      rw [List.range_succ, List.foldl_append, List.foldl_cons, List.foldl_nil]
      exact (bextInv_foldl x m n (by omega)).step (by omega)

lemma bdepInv_foldl (x m : BitVec w) :
    ∀ n ≤ w, BdepInv x m n ((List.range n).foldl (bdepStep x m) (0#w, 0))
  | 0, _ => ⟨rfl, fun k _ => by simp⟩
  | n + 1, hn => by
      rw [List.range_succ, List.foldl_append, List.foldl_cons, List.foldl_nil]
      exact (bdepInv_foldl x m n (by omega)).step (by omega)

/-- **Extract packs the mask bits of `x` by rank.** -/
theorem bext_getLsbD (x m : BitVec w) {k : ℕ} (hk : k < w) :
    (bext x m).getLsbD k = true ↔
      ∃ i < w, m.getLsbD i = true ∧ maskRank m i = k ∧ x.getLsbD i = true :=
  (bextInv_foldl x m w le_rfl).2 k hk

/-- **Deposit spreads the low bits of `x` over the mask bits, by rank.** -/
theorem bdep_getLsbD (x m : BitVec w) {k : ℕ} (hk : k < w) :
    (bdep x m).getLsbD k = (m.getLsbD k && x.getLsbD (maskRank m k)) := by
  rw [bdep, (bdepInv_foldl x m w le_rfl).2 k hk]
  simp [hk]

/-! ### Round trips -/

/-- **Extracting what was deposited gives back the low `popCount m` bits.** -/
theorem bext_bdep (x m : BitVec w) :
    bext (bdep x m) m = x &&& BitVec.ofNat w (2 ^ popCount m - 1) := by
  apply eq_of_getLsbD_eq
  intro k hk
  rw [getLsbD_and, getLsbD_ofNat, Nat.testBit_two_pow_sub_one, Bool.eq_iff_iff,
    bext_getLsbD _ _ hk]
  constructor
  · rintro ⟨i, hi, hm, rfl, hx⟩
    rw [bdep_getLsbD x m hi, hm, Bool.true_and] at hx
    have hr : maskRank m i < popCount m := (exists_maskRank_eq_iff m w _).mp ⟨i, hi, hm, rfl⟩
    simp [hx, hk, hr]
  · intro h
    simp only [Bool.and_eq_true, decide_eq_true_eq] at h
    obtain ⟨hx, -, hr⟩ := h
    -- the rank `k` is taken at some mask bit, where the deposit put bit `k`
    obtain ⟨i, hi, hm, hik⟩ := (exists_maskRank_eq_iff m w k).mpr hr
    refine ⟨i, hi, hm, hik, ?_⟩
    rw [bdep_getLsbD x m hi, hm, hik, hx, Bool.true_and]

/-- **Depositing what was extracted gives back the mask bits.** -/
theorem bdep_bext (x m : BitVec w) : bdep (bext x m) m = x &&& m := by
  apply eq_of_getLsbD_eq
  intro k hk
  rw [bdep_getLsbD _ _ hk, getLsbD_and]
  by_cases hm : m.getLsbD k = true
  · have hrank : maskRank m k < w := lt_of_le_of_lt (maskRank_le m k) hk
    rw [hm, Bool.true_and, Bool.and_true, Bool.eq_iff_iff, bext_getLsbD x m hrank]
    constructor
    · -- the only mask bit of rank `maskRank m k` is `k`
      rintro ⟨i, -, hmi, hik, hx⟩
      rwa [← eq_of_maskRank_eq m hmi hm hik]
    · exact fun hx => ⟨k, hk, hm, rfl, hx⟩
  · simp [hm]

/-- **Bit extract and bit deposit are inverse on the mask**, for 32-bit and
64-bit registers. -/
theorem bext_bdep_inverse :
    (∀ x m : BitVec 32, doBEXT32 (doBDEP32 x m) m = x &&& BitVec.ofNat 32 (2 ^ popCount m - 1) ∧
      doBDEP32 (doBEXT32 x m) m = x &&& m) ∧
    (∀ x m : BitVec 64, doBEXT64 (doBDEP64 x m) m = x &&& BitVec.ofNat 64 (2 ^ popCount m - 1) ∧
      doBDEP64 (doBEXT64 x m) m = x &&& m) :=
  ⟨fun x m => ⟨bext_bdep x m, bdep_bext x m⟩, fun x m => ⟨bext_bdep x m, bdep_bext x m⟩⟩

end RiscvOvpsim
