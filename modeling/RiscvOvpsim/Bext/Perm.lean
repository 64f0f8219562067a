import Mathlib.Tactic
import RiscvOvpsim.Lib.BitPerm

/-!
The bit permutations of the B extension (`riscvBExtension.c`): generalized
reverse and or-combine (`doGREV32`, `doGORC32` and their 64-bit forms),
shuffle and unshuffle (`doSHFL32`, `doUNSHFL32`, `doSHFL64`, `doUNSHFL64`) and
the bit-matrix transpose `doBMATFLIP`.

The source unrolls each as a sequence of stages. Stage `s` of GREV swaps the
neighbouring blocks of `2 ^ s` bits, GORC ors that swap into the word, and a
shuffle stage exchanges the middle quarters of blocks. Here the stages are
one recursion over the list of their masks (`grevStages`, `shflStages`), and
each source function is that recursion at its own masks.

* `GrevMasks.movesBits`: a GREV stage whose masks check out moves bit `i` to
  `i ^ 2 ^ s`; `grevStages_movesBits`: the stages taken by a shift amount
  compose to `i ↦ i ^ shamt`;
* `doGREV32_movesBits`, `doGREV64_movesBits`: GREV reads bit `i` from bit
  `i ^ (k & 31)` (`i ^ (k & 63)`);
* `grevStages_or_anySubmask`, `doGORC32_getLsbD`: GORC sets bit `i` when some
  bit `i ^ j` is set, for a submask `j` of the control;
* `shflStages_reverse`: stages that are involutions undo each other in
  reverse order, which is how `doUNSHFL32` inverts `doSHFL32`;
* `doBMATFLIP_movesBits`: three full shuffles move bit `8 i + j` to
  `8 j + i`.
-/

namespace RiscvOvpsim

open BitVec

variable {w v : ℕ}

/-! ### GREV and GORC -/

/-- `((x & M) << n) | ((x & M') >> n)`: the value each line of `doGREV32`
assigns to `x`, and each line of `doGORC32` ors into it. -/
def grevStage (x M M' : BitVec w) (n : ℕ) : BitVec w :=
  (x &&& M) <<< n ||| (x &&& M') >>> n

/-- The stages `s, s + 1, ...` of GREV (`orCombine` false: `x = stage`) and
of GORC (`orCombine` true: `x |= stage`); stage `s` shifts by `2 ^ s` and is
taken when `shamt & (1 << s)` is set. -/
def grevStages (orCombine : Bool) (shamt : BitVec v) :
    ℕ → List (BitVec w × BitVec w) → BitVec w → BitVec w
  | _, [], x => x
  | s, (M, M') :: masks, x =>
      let stage := grevStage x M M' (2 ^ s)
      grevStages orCombine shamt (s + 1) masks
        (if shamt &&& BitVec.ofNat v (2 ^ s) != 0 then
          (if orCombine then x ||| stage else stage)
        else x)

/-- The masks of the five stages of `doGREV32` and `doGORC32`. -/
def grevMasks32 : List (BitVec 32 × BitVec 32) :=
  [(0x55555555, 0xAAAAAAAA), (0x33333333, 0xCCCCCCCC), (0x0F0F0F0F, 0xF0F0F0F0),
    (0x00FF00FF, 0xFF00FF00), (0x0000FFFF, 0xFFFF0000)]

/-- The masks of the six stages of `doGREV64` and `doGORC64`. -/
def grevMasks64 : List (BitVec 64 × BitVec 64) :=
  [(0x5555555555555555, 0xAAAAAAAAAAAAAAAA), (0x3333333333333333, 0xCCCCCCCCCCCCCCCC),
    (0x0F0F0F0F0F0F0F0F, 0xF0F0F0F0F0F0F0F0), (0x00FF00FF00FF00FF, 0xFF00FF00FF00FF00),
    (0x0000FFFF0000FFFF, 0xFFFF0000FFFF0000), (0x00000000FFFFFFFF, 0xFFFFFFFF00000000)]

def doGORC32 (rs1 rs2 : BitVec 32) : BitVec 32 :=
  grevStages true (rs2 &&& 31) 0 grevMasks32 rs1

def doGORC64 (rs1 : BitVec 64) (rs2 : BitVec 32) : BitVec 64 :=
  grevStages true (rs2 &&& 63) 0 grevMasks64 rs1

def doGREV32 (rs1 rs2 : BitVec 32) : BitVec 32 :=
  grevStages false (rs2 &&& 31) 0 grevMasks32 rs1

def doGREV64 (rs1 : BitVec 64) (rs2 : BitVec 32) : BitVec 64 :=
  grevStages false (rs2 &&& 63) 0 grevMasks64 rs1

/-- The masks of GREV stage `s` pair every bit `i` with bit `i ^ 2 ^ s`: the
two shifted halves cover the word, and as a masked swap they exchange
exactly those bits. -/
def GrevMasks (M M' : BitVec w) (s : ℕ) : Prop :=
  M <<< 2 ^ s ||| M' >>> 2 ^ s = allOnes w ∧ SwapMasks (M <<< 2 ^ s) (M' >>> 2 ^ s) (2 ^ s) ∧
    ∀ i < w, swapIndex (M <<< 2 ^ s) (M' >>> 2 ^ s) (2 ^ s) i = i ^^^ 2 ^ s

instance (M M' : BitVec w) (s : ℕ) : Decidable (GrevMasks M M' s) :=
  inferInstanceAs (Decidable (_ ∧ _ ∧ _))

/-- Every stage of a mask list starting at stage `s` checks out. -/
def GrevMaskList : ℕ → List (BitVec w × BitVec w) → Prop
  | _, [] => True
  | s, (M, M') :: masks => GrevMasks M M' s ∧ GrevMaskList (s + 1) masks

instance GrevMaskList.decidable : (s : ℕ) → (masks : List (BitVec w × BitVec w)) →
    Decidable (GrevMaskList s masks)
  | _, [] => inferInstanceAs (Decidable True)
  | s, (M, M') :: masks =>
      haveI := GrevMaskList.decidable (s + 1) masks
      inferInstanceAs (Decidable (GrevMasks M M' s ∧ GrevMaskList (s + 1) masks))

lemma grevMasks32_ok : GrevMaskList 0 grevMasks32 := by decide +kernel

lemma grevMasks64_ok : GrevMaskList 0 grevMasks64 := by decide +kernel

/-- **A GREV stage moves bit `i` to `i ^ 2 ^ s`**, within the word. -/
lemma GrevMasks.movesBits {M M' : BitVec w} {s : ℕ} (h : GrevMasks M M' s) :
    MovesBits (grevStage · M M' (2 ^ s)) (· ^^^ 2 ^ s) ∧ ∀ i < w, i ^^^ 2 ^ s < w := by
  obtain ⟨hall, hswap, hidx⟩ := h
  have hmoves := (movesBits_maskedSwap hswap).congr hidx
  refine ⟨fun x i hi => ?_, fun i hi => ?_⟩
  · show (grevStage x M M' (2 ^ s)).getLsbD i = _
    rw [grevStage, and_shiftLeft_or_and_ushiftRight x M M' _ hall]
    exact hmoves x i hi
  · rw [← hidx i hi]
    exact (swapIndex_swapIndex hswap i hi).1

/-- A GREV stage taken under bit `s` of the shift amount moves bit `i` to
`i ^ (shamt & 2 ^ s)`. -/
lemma GrevMasks.ite_movesBits {M M' : BitVec w} {s : ℕ} (h : GrevMasks M M' s) (hs : s < v)
    (shamt : BitVec v) :
    MovesBits (fun x => if shamt &&& BitVec.ofNat v (2 ^ s) != 0 then grevStage x M M' (2 ^ s)
      else x) (· ^^^ (shamt.toNat &&& 2 ^ s)) := by
  simp only [bne_and_ofNat_two_pow shamt hs]
  exact h.movesBits.1.ite_xor _

/-- Xor with at most bit `s` of the shift amount stays within the word. -/
lemma GrevMasks.xor_and_lt {M M' : BitVec w} {s : ℕ} (h : GrevMasks M M' s) (t : ℕ) {i : ℕ}
    (hi : i < w) : i ^^^ (t &&& 2 ^ s) < w := by
  rw [Nat.xor_and_two_pow]
  split_ifs
  · exact h.movesBits.2 i hi
  · exact hi

/-- **The GREV stages from `s` on compose to `i ↦ i ^ shamt`**, restricted
to the bits `s` to `s + n - 1` of the shift amount: stage `s` contributes bit
`s`, the rest by induction. -/
theorem grevStages_movesBits (shamt : BitVec v) :
    ∀ (s : ℕ) (masks : List (BitVec w × BitVec w)), s + masks.length ≤ v →
      GrevMaskList s masks →
      MovesBits (grevStages false shamt s masks)
          (fun i => i ^^^ (shamt.toNat &&& (2 ^ (s + masks.length) - 1)) ^^^
            (shamt.toNat &&& (2 ^ s - 1))) ∧
        ∀ i < w, i ^^^ (shamt.toNat &&& (2 ^ (s + masks.length) - 1)) ^^^
          (shamt.toNat &&& (2 ^ s - 1)) < w
  | s, [], _, _ => by
      simp only [List.length_nil, Nat.add_zero, Nat.xor_assoc, Nat.xor_self, Nat.xor_zero]
      exact ⟨fun _ _ _ => rfl, fun _ hi => hi⟩
  | s, (M, M') :: masks, hlen, ⟨hM, hrest⟩ => by
      rw [List.length_cons] at hlen ⊢
      obtain ⟨ih, ihlt⟩ := grevStages_movesBits shamt (s + 1) masks (by omega) hrest
      have hstage := hM.ite_movesBits (by omega) shamt
      -- stage `s` first, then the others; bit `s` cancels between them
      have hidx : ∀ i, (i ^^^ (shamt.toNat &&& (2 ^ (s + 1 + masks.length) - 1)) ^^^
            (shamt.toNat &&& (2 ^ (s + 1) - 1))) ^^^ (shamt.toNat &&& 2 ^ s) =
          i ^^^ (shamt.toNat &&& (2 ^ (s + (masks.length + 1)) - 1)) ^^^
            (shamt.toNat &&& (2 ^ s - 1)) := by
        intro i
        rw [Nat.and_two_pow_succ_sub_one shamt.toNat s, show s + (masks.length + 1) =
          s + 1 + masks.length by omega]
        simp only [Nat.xor_assoc, Nat.xor_self, Nat.xor_zero]
      refine ⟨(hstage.comp ih ihlt).congr fun i _ => hidx i, fun i hi => ?_⟩
      rw [← hidx i]
      exact hM.xor_and_lt _ (ihlt i hi)

lemma grevMask32_eq (rs2 : BitVec 32) :
    (rs2 &&& 31).toNat &&& (2 ^ (0 + grevMasks32.length) - 1) = rs2.toNat &&& 31 := by
  rw [toNat_and, Nat.and_assoc]
  rfl

lemma grevMask64_eq (rs2 : BitVec 32) :
    (rs2 &&& 63).toNat &&& (2 ^ (0 + grevMasks64.length) - 1) = rs2.toNat &&& 63 := by
  rw [toNat_and, Nat.and_assoc]
  rfl

/-- **`doGREV32` with control `k` reads bit `i` from bit `i ^ (k & 31)`.** -/
theorem doGREV32_movesBits (rs2 : BitVec 32) :
    MovesBits (doGREV32 · rs2) (· ^^^ (rs2.toNat &&& 31)) := by
  have h := (grevStages_movesBits (w := 32) (rs2 &&& 31) 0 grevMasks32 (by decide)
    grevMasks32_ok).1
  refine h.congr fun i _ => ?_
  rw [grevMask32_eq, Nat.pow_zero, Nat.sub_self, Nat.and_zero, Nat.xor_zero]

/-- **`doGREV64` with control `k` reads bit `i` from bit `i ^ (k & 63)`.** -/
theorem doGREV64_movesBits (rs2 : BitVec 32) :
    MovesBits (doGREV64 · rs2) (· ^^^ (rs2.toNat &&& 63)) := by
  have h := (grevStages_movesBits (w := 64) (rs2 &&& 63) 0 grevMasks64 (by decide)
    grevMasks64_ok).1
  refine h.congr fun i _ => ?_
  rw [grevMask64_eq, Nat.pow_zero, Nat.sub_self, Nat.and_zero, Nat.xor_zero]

/-- **The GORC stages from `s` on collect the submasks of the control**:
entering with the offsets of its bits below `s`, they leave with those of its
bits below `s + n`; stage `s` adds bit `s` when it is taken. -/
theorem grevStages_or_anySubmask (shamt : BitVec v) (x : BitVec w) :
    ∀ (s : ℕ) (masks : List (BitVec w × BitVec w)) (y : BitVec w), s + masks.length ≤ v →
      GrevMaskList s masks →
      (∀ i < w, y.getLsbD i = true ↔ AnySubmask x (shamt.toNat &&& (2 ^ s - 1)) i) →
      ∀ i < w, (grevStages true shamt s masks y).getLsbD i = true ↔
        AnySubmask x (shamt.toNat &&& (2 ^ (s + masks.length) - 1)) i
  | s, [], y, _, _, hy => by
      intro i hi
      rw [grevStages, List.length_nil, Nat.add_zero]
      exact hy i hi
  | s, (M, M') :: masks, y, hlen, ⟨hM, hrest⟩, hy => by
      rw [List.length_cons] at hlen
      rw [List.length_cons, show s + (masks.length + 1) = s + 1 + masks.length by omega,
        grevStages]
      apply grevStages_or_anySubmask shamt x (s + 1) masks _ (by omega) hrest
      intro i hi
      rw [Nat.and_two_pow_succ_sub_one_or, Nat.and_two_pow_eq_ite,
        bne_and_ofNat_two_pow shamt (by omega)]
      by_cases hbit : shamt.toNat.testBit s
      · have hT : (shamt.toNat &&& (2 ^ s - 1)).testBit s = false := by
          simp
        simp only [hbit, if_true]
        exact anySubmask_or_movesBits hM.movesBits.1 hT hy hi (hM.movesBits.2 i hi)
      · simp only [hbit, Bool.false_eq_true, if_false, Nat.or_zero]
        exact hy i hi

/-- **`doGORC32` sets bit `i` when bit `i ^ j` of its argument is set for
some submask `j` of `k & 31`.** -/
theorem doGORC32_getLsbD (x rs2 : BitVec 32) {i : ℕ} (hi : i < 32) :
    (doGORC32 x rs2).getLsbD i = true ↔ AnySubmask x (rs2.toNat &&& 31) i := by
  rw [← grevMask32_eq]
  refine grevStages_or_anySubmask (rs2 &&& 31) x 0 grevMasks32 x (by decide) grevMasks32_ok
    (fun i _ => ?_) i hi
  rw [Nat.pow_zero, Nat.sub_self, Nat.and_zero, anySubmask_zero]

/-- **`doGORC64` sets bit `i` when bit `i ^ j` of its argument is set for
some submask `j` of `k & 63`.** -/
theorem doGORC64_getLsbD (x : BitVec 64) (rs2 : BitVec 32) {i : ℕ} (hi : i < 64) :
    (doGORC64 x rs2).getLsbD i = true ↔ AnySubmask x (rs2.toNat &&& 63) i := by
  rw [← grevMask64_eq]
  refine grevStages_or_anySubmask (rs2 &&& 63) x 0 grevMasks64 x (by decide) grevMasks64_ok
    (fun i _ => ?_) i hi
  rw [Nat.pow_zero, Nat.sub_self, Nat.and_zero, anySubmask_zero]

/-! ### The laws of GREV and GORC -/

lemma toNat_and_31 (x : BitVec 32) : (x &&& 31).toNat = x.toNat &&& 31 := by
  rw [toNat_and]
  rfl

lemma toNat_and_63 (x : BitVec 32) : (x &&& 63).toNat = x.toNat &&& 63 := by
  rw [toNat_and]
  rfl

/-- The control of two GREVs in a row is the xor of their controls. -/
lemma toNat_xor_and_31 (a b : BitVec 32) :
    ((a ^^^ b) &&& 31).toNat &&& 31 = (a.toNat &&& 31) ^^^ (b.toNat &&& 31) := by
  rw [toNat_and_31, Nat.and_assoc, Nat.and_self, toNat_xor, Nat.and_xor_distrib_right]

lemma toNat_xor_and_63 (a b : BitVec 32) :
    ((a ^^^ b) &&& 63).toNat &&& 63 = (a.toNat &&& 63) ^^^ (b.toNat &&& 63) := by
  rw [toNat_and_63, Nat.and_assoc, Nat.and_self, toNat_xor, Nat.and_xor_distrib_right]

/-- **GREV by `a` and then by `b` is GREV by `a ^ b`.** -/
theorem doGREV32_doGREV32 (x a b : BitVec 32) :
    doGREV32 (doGREV32 x a) b = doGREV32 x ((a ^^^ b) &&& 31) := by
  have hab := (doGREV32_movesBits a).comp (doGREV32_movesBits b)
    fun i hi => Nat.xor_and_lt (n := 5) hi
  refine hab.eq_of_index (doGREV32_movesBits _) (fun i _ => ?_) x
  show (i ^^^ (b.toNat &&& 31)) ^^^ (a.toNat &&& 31) = i ^^^ (((a ^^^ b) &&& 31).toNat &&& 31)
  rw [toNat_xor_and_31, Nat.xor_assoc, Nat.xor_comm (b.toNat &&& 31)]

/-- **GREV by `a` and then by `b` is GREV by `a ^ b`** (64 bits). -/
theorem doGREV64_doGREV64 (x : BitVec 64) (a b : BitVec 32) :
    doGREV64 (doGREV64 x a) b = doGREV64 x ((a ^^^ b) &&& 63) := by
  have hab := (doGREV64_movesBits a).comp (doGREV64_movesBits b)
    fun i hi => Nat.xor_and_lt (n := 6) hi
  refine hab.eq_of_index (doGREV64_movesBits _) (fun i _ => ?_) x
  show (i ^^^ (b.toNat &&& 63)) ^^^ (a.toNat &&& 63) = i ^^^ (((a ^^^ b) &&& 63).toNat &&& 63)
  rw [toNat_xor_and_63, Nat.xor_assoc, Nat.xor_comm (b.toNat &&& 63)]

lemma doGREV32_zero (x : BitVec 32) : doGREV32 x 0#32 = x :=
  (doGREV32_movesBits 0#32).eq_of_index (g := fun x => x) (fun _ _ _ => rfl)
    (fun i _ => by simp) x

lemma doGREV64_zero (x : BitVec 64) : doGREV64 x 0#32 = x :=
  (doGREV64_movesBits 0#32).eq_of_index (g := fun x => x) (fun _ _ _ => rfl)
    (fun i _ => by simp) x

/-- Every GREV is an involution. -/
lemma doGREV32_doGREV32_self (x a : BitVec 32) : doGREV32 (doGREV32 x a) a = x := by
  rw [doGREV32_doGREV32, BitVec.xor_self, BitVec.zero_and, doGREV32_zero]

lemma doGREV64_doGREV64_self (x : BitVec 64) (a : BitVec 32) :
    doGREV64 (doGREV64 x a) a = x := by
  rw [doGREV64_doGREV64, BitVec.xor_self, BitVec.zero_and, doGREV64_zero]

/-- A submask `j` of a control field is its own control. -/
lemma toNat_ofNat_and_of_submask {j t m : ℕ} (hm : m < 2 ^ 32) (hj : j &&& (t &&& m) = j) :
    (BitVec.ofNat 32 j).toNat &&& m = j := by
  have hle := Nat.le_of_and_and_eq hj
  rw [toNat_ofNat, Nat.mod_eq_of_lt (by omega)]
  conv_lhs => rw [← hj]
  rw [Nat.and_assoc, Nat.and_assoc, Nat.and_self, hj]

/-- **GORC is the or of the GREVs by the submasks of its control.** -/
theorem doGORC32_eq_orSubmasks (x k : BitVec 32) :
    doGORC32 x k = orSubmasks (fun j => doGREV32 x (BitVec.ofNat 32 j)) (k &&& 31).toNat := by
  apply eq_of_getLsbD_eq
  intro i hi
  rw [Bool.eq_iff_iff, doGORC32_getLsbD x k hi, getLsbD_orSubmasks, toNat_and_31]
  refine exists_congr fun j => and_congr_right fun hj => ?_
  rw [doGREV32_movesBits _ x i hi]
  dsimp only
  rw [toNat_ofNat_and_of_submask (by norm_num) hj]

/-- **GORC is the or of the GREVs by the submasks of its control** (64 bits). -/
theorem doGORC64_eq_orSubmasks (x : BitVec 64) (k : BitVec 32) :
    doGORC64 x k = orSubmasks (fun j => doGREV64 x (BitVec.ofNat 32 j)) (k &&& 63).toNat := by
  apply eq_of_getLsbD_eq
  intro i hi
  rw [Bool.eq_iff_iff, doGORC64_getLsbD x k hi, getLsbD_orSubmasks, toNat_and_63]
  refine exists_congr fun j => and_congr_right fun hj => ?_
  rw [doGREV64_movesBits _ x i hi]
  dsimp only
  rw [toNat_ofNat_and_of_submask (by norm_num) hj]

/-- GORC is idempotent. -/
lemma doGORC32_doGORC32 (x k : BitVec 32) : doGORC32 (doGORC32 x k) k = doGORC32 x k := by
  apply eq_of_getLsbD_eq
  intro i hi
  rw [Bool.eq_iff_iff, doGORC32_getLsbD _ k hi, doGORC32_getLsbD x k hi]
  exact anySubmask_anySubmask (fun i hi => doGORC32_getLsbD x k hi)
    (fun i hi j hj => Nat.xor_lt_two_pow (n := 5) hi
      (lt_of_le_of_lt (Nat.le_of_and_and_eq hj) (by norm_num))) hi

lemma doGORC64_doGORC64 (x : BitVec 64) (k : BitVec 32) :
    doGORC64 (doGORC64 x k) k = doGORC64 x k := by
  apply eq_of_getLsbD_eq
  intro i hi
  rw [Bool.eq_iff_iff, doGORC64_getLsbD _ k hi, doGORC64_getLsbD x k hi]
  exact anySubmask_anySubmask (fun i hi => doGORC64_getLsbD x k hi)
    (fun i hi j hj => Nat.xor_lt_two_pow (n := 6) hi
      (lt_of_le_of_lt (Nat.le_of_and_and_eq hj) (by norm_num))) hi

/-- Bits set in `x` are set in `y`. -/
lemma getLsbD_of_and_eq {x y : BitVec w} (hxy : x &&& y = x) (m : ℕ) (hx : x.getLsbD m = true) :
    y.getLsbD m = true := by
  have h := congrArg (getLsbD · m) hxy
  simp only [getLsbD_and, hx, Bool.true_and] at h
  exact h

/-- GORC is monotone in its argument, bit by bit. -/
lemma doGORC32_mono {x y : BitVec 32} (hxy : x &&& y = x) (k : BitVec 32) :
    doGORC32 x k &&& doGORC32 y k = doGORC32 x k := by
  apply eq_of_getLsbD_eq
  intro i hi
  rw [getLsbD_and]
  cases hx : (doGORC32 x k).getLsbD i
  · rfl
  · rw [doGORC32_getLsbD x k hi] at hx
    rw [Bool.true_and, doGORC32_getLsbD y k hi]
    exact hx.mono (getLsbD_of_and_eq hxy)

lemma doGORC64_mono {x y : BitVec 64} (hxy : x &&& y = x) (k : BitVec 32) :
    doGORC64 x k &&& doGORC64 y k = doGORC64 x k := by
  apply eq_of_getLsbD_eq
  intro i hi
  rw [getLsbD_and]
  cases hx : (doGORC64 x k).getLsbD i
  · rfl
  · rw [doGORC64_getLsbD x k hi] at hx
    rw [Bool.true_and, doGORC64_getLsbD y k hi]
    exact hx.mono (getLsbD_of_and_eq hxy)

/-- **GREV is a group action of the controls, GORC its closure**: two GREVs
compose by the xor of their controls, so each is an involution, and GORC is
the or of the GREVs by the submasks of its control, so it is idempotent and
monotone; on 32-bit words with 5-bit controls and on 64-bit words with 6-bit
controls. -/
theorem grev_gorc_laws :
    (∀ x a b : BitVec 32, doGREV32 (doGREV32 x a) b = doGREV32 x ((a ^^^ b) &&& 31)) ∧
    (∀ x a : BitVec 32, doGREV32 (doGREV32 x a) a = x) ∧
    (∀ x k : BitVec 32,
      doGORC32 x k = orSubmasks (fun j => doGREV32 x (BitVec.ofNat 32 j)) (k &&& 31).toNat) ∧
    (∀ x k : BitVec 32, doGORC32 (doGORC32 x k) k = doGORC32 x k) ∧
    (∀ x y k : BitVec 32, x &&& y = x → doGORC32 x k &&& doGORC32 y k = doGORC32 x k) ∧
    (∀ (x : BitVec 64) (a b : BitVec 32),
      doGREV64 (doGREV64 x a) b = doGREV64 x ((a ^^^ b) &&& 63)) ∧
    (∀ (x : BitVec 64) (a : BitVec 32), doGREV64 (doGREV64 x a) a = x) ∧
    (∀ (x : BitVec 64) (k : BitVec 32),
      doGORC64 x k = orSubmasks (fun j => doGREV64 x (BitVec.ofNat 32 j)) (k &&& 63).toNat) ∧
    (∀ (x : BitVec 64) (k : BitVec 32), doGORC64 (doGORC64 x k) k = doGORC64 x k) ∧
    (∀ (x y : BitVec 64) (k : BitVec 32),
      x &&& y = x → doGORC64 x k &&& doGORC64 y k = doGORC64 x k) :=
  ⟨doGREV32_doGREV32, doGREV32_doGREV32_self, doGORC32_eq_orSubmasks, doGORC32_doGORC32,
    fun _ _ k h => doGORC32_mono h k, doGREV64_doGREV64, doGREV64_doGREV64_self,
    doGORC64_eq_orSubmasks, doGORC64_doGORC64, fun _ _ k h => doGORC64_mono h k⟩

/-! ### Shuffle, unshuffle and the bit-matrix transpose -/

/-- `doSHFL32Stage`/`doSHFL64Stage`: the bits of `maskL` take the bits `N`
below them, the bits of `maskR` those `N` above, the others stay. -/
def shflStage (src maskL maskR : BitVec w) (N : ℕ) : BitVec w :=
  let x := src &&& ~~~(maskL ||| maskR)
  x ||| ((src <<< N) &&& maskL ||| (src >>> N) &&& maskR)

def doSHFL32Stage (src maskL maskR : BitVec 32) (N : ℕ) : BitVec 32 :=
  shflStage src maskL maskR N

def doSHFL64Stage (src maskL maskR : BitVec 64) (N : ℕ) : BitVec 64 :=
  shflStage src maskL maskR N

/-- Shuffle stages `(maskL, maskR, N)` in order, each taken when `shamt & N`
is set. -/
def shflStages (stage : BitVec w → BitVec w → BitVec w → ℕ → BitVec w) (shamt : BitVec v) :
    List (BitVec w × BitVec w × ℕ) → BitVec w → BitVec w
  | [], x => x
  | (maskL, maskR, N) :: stages, x =>
      shflStages stage shamt stages
        (if shamt &&& BitVec.ofNat v N != 0 then stage x maskL maskR N else x)

/-- The stages of `doSHFL32`, widest first. -/
def shfl32Stages : List (BitVec 32 × BitVec 32 × ℕ) :=
  [(0x00ff0000, 0x0000ff00, 8), (0x0f000f00, 0x00f000f0, 4), (0x30303030, 0x0c0c0c0c, 2),
    (0x44444444, 0x22222222, 1)]

/-- The stages of `doUNSHFL32`, narrowest first. -/
def unshfl32Stages : List (BitVec 32 × BitVec 32 × ℕ) :=
  [(0x44444444, 0x22222222, 1), (0x30303030, 0x0c0c0c0c, 2), (0x0f000f00, 0x00f000f0, 4),
    (0x00ff0000, 0x0000ff00, 8)]

/-- The stages of `doSHFL64`, widest first. -/
def shfl64Stages : List (BitVec 64 × BitVec 64 × ℕ) :=
  [(0x0000ffff00000000, 0x00000000ffff0000, 16), (0x00ff000000ff0000, 0x0000ff000000ff00, 8),
    (0x0f000f000f000f00, 0x00f000f000f000f0, 4), (0x3030303030303030, 0x0c0c0c0c0c0c0c0c, 2),
    (0x4444444444444444, 0x2222222222222222, 1)]

/-- The stages of `doUNSHFL64`, narrowest first. -/
def unshfl64Stages : List (BitVec 64 × BitVec 64 × ℕ) :=
  [(0x4444444444444444, 0x2222222222222222, 1), (0x3030303030303030, 0x0c0c0c0c0c0c0c0c, 2),
    (0x0f000f000f000f00, 0x00f000f000f000f0, 4), (0x00ff000000ff0000, 0x0000ff000000ff00, 8),
    (0x0000ffff00000000, 0x00000000ffff0000, 16)]

def doSHFL32 (rs1 rs2 : BitVec 32) : BitVec 32 :=
  shflStages doSHFL32Stage (rs2 &&& 15) shfl32Stages rs1

def doUNSHFL32 (rs1 rs2 : BitVec 32) : BitVec 32 :=
  shflStages doSHFL32Stage (rs2 &&& 15) unshfl32Stages rs1

def doSHFL64 (rs1 : BitVec 64) (rs2 : BitVec 32) : BitVec 64 :=
  shflStages doSHFL64Stage (rs2 &&& 31) shfl64Stages rs1

/-- `rs2` is a 64-bit argument here, and `Uns32 shamt = rs2 & 31` truncates
the masked value. -/
def doUNSHFL64 (rs1 rs2 : BitVec 64) : BitVec 64 :=
  shflStages doSHFL64Stage ((rs2 &&& 31).setWidth 32) unshfl64Stages rs1

def doBMATFLIP (rs1 : BitVec 64) : BitVec 64 :=
  let x := doSHFL64 rs1 31
  let x := doSHFL64 x 31
  doSHFL64 x 31

lemma unshfl32Stages_eq : unshfl32Stages = shfl32Stages.reverse := rfl

lemma unshfl64Stages_eq : unshfl64Stages = shfl64Stages.reverse := rfl

lemma shfl32Stages_swapMasks : ∀ st ∈ shfl32Stages, SwapMasks st.1 st.2.1 st.2.2 := by
  decide +kernel

lemma shfl64Stages_swapMasks : ∀ st ∈ shfl64Stages, SwapMasks st.1 st.2.1 st.2.2 := by
  decide +kernel

/-- **A shuffle stage moves bits by `swapIndex`.** -/
lemma shflStage_movesBits {L R : BitVec w} {N : ℕ} (h : SwapMasks L R N) :
    MovesBits (shflStage · L R N) (swapIndex L R N) :=
  movesBits_maskedSwap h

/-- A shuffle stage whose masks pair up is an involution. -/
lemma shflStage_shflStage {L R : BitVec w} {N : ℕ} (h : SwapMasks L R N) (x : BitVec w) :
    shflStage (shflStage x L R N) L R N = x :=
  (shflStage_movesBits h).apply_apply (swapIndex_swapIndex h) x

section Stages

variable {stage : BitVec w → BitVec w → BitVec w → ℕ → BitVec w} {shamt : BitVec v}

lemma shflStages_cons (L R : BitVec w) (N : ℕ) (l : List (BitVec w × BitVec w × ℕ))
    (x : BitVec w) :
    shflStages stage shamt ((L, R, N) :: l) x =
      shflStages stage shamt l (if shamt &&& BitVec.ofNat v N != 0 then stage x L R N else x) :=
  rfl

lemma shflStages_append (l₁ l₂ : List (BitVec w × BitVec w × ℕ)) (x : BitVec w) :
    shflStages stage shamt (l₁ ++ l₂) x = shflStages stage shamt l₂ (shflStages stage shamt l₁ x) := by
  induction l₁ generalizing x with
  | nil => rfl
  | cons st l₁ ih =>
      obtain ⟨L, R, N⟩ := st
      exact ih _

/-- **Stages that are involutions undo each other in reverse order.** -/
theorem shflStages_reverse {l : List (BitVec w × BitVec w × ℕ)}
    (hinv : ∀ st ∈ l, ∀ x, stage (stage x st.1 st.2.1 st.2.2) st.1 st.2.1 st.2.2 = x)
    (x : BitVec w) : shflStages stage shamt l.reverse (shflStages stage shamt l x) = x := by
  induction l generalizing x with
  | nil => rfl
  | cons st l ih =>
      obtain ⟨L, R, N⟩ := st
      -- the first stage is undone last, after the rest has undone itself
      rw [List.reverse_cons, shflStages_append, shflStages_cons L R N l,
        ih fun st hst => hinv st (List.mem_cons_of_mem _ hst)]
      have hst := hinv (L, R, N) List.mem_cons_self
      by_cases hc : (shamt &&& BitVec.ofNat v N != 0) = true
      · simp only [shflStages, hc, if_true]
        exact hst x
      · simp only [shflStages, hc, Bool.false_eq_true, if_false]

/-- The position `shflStages stage shamt stages` reads bit `i` from. -/
def shflIndex (shamt : BitVec v) : List (BitVec w × BitVec w × ℕ) → ℕ → ℕ
  | [], i => i
  | (L, R, N) :: stages, i =>
      let j := shflIndex shamt stages i
      if shamt &&& BitVec.ofNat v N != 0 then swapIndex L R N j else j

/-- **Shuffle stages move bits by `shflIndex`**, within the word. -/
theorem shflStages_movesBits
    (hstage : ∀ L R N, SwapMasks L R N → MovesBits (stage · L R N) (swapIndex L R N)) :
    ∀ {l : List (BitVec w × BitVec w × ℕ)}, (∀ st ∈ l, SwapMasks st.1 st.2.1 st.2.2) →
      MovesBits (shflStages stage shamt l) (shflIndex shamt l) ∧
        ∀ i < w, shflIndex shamt l i < w
  | [], _ => ⟨fun _ _ _ => rfl, fun _ hi => hi⟩
  | (L, R, N) :: l, h => by
      have hLR := h (L, R, N) List.mem_cons_self
      obtain ⟨ih, ihlt⟩ := shflStages_movesBits hstage (l := l)
        fun st hst => h st (List.mem_cons_of_mem _ hst)
      have hfirst := (hstage L R N hLR).ite (shamt &&& BitVec.ofNat v N != 0)
      refine ⟨hfirst.comp ih ihlt, fun i hi => ?_⟩
      show (if _ then _ else _) < w
      split_ifs
      · exact (swapIndex_swapIndex hLR _ (ihlt i hi)).1
      · exact ihlt i hi

end Stages

lemma shflStage_shflStage_of_mem {l : List (BitVec w × BitVec w × ℕ)}
    (h : ∀ st ∈ l, SwapMasks st.1 st.2.1 st.2.2) :
    ∀ st ∈ l, ∀ x, shflStage (shflStage x st.1 st.2.1 st.2.2) st.1 st.2.1 st.2.2 = x :=
  fun st hst x => shflStage_shflStage (h st hst) x

/-- **`doUNSHFL32` inverts `doSHFL32`, both ways.** -/
theorem doUNSHFL32_doSHFL32 (x rs2 : BitVec 32) :
    doUNSHFL32 (doSHFL32 x rs2) rs2 = x ∧ doSHFL32 (doUNSHFL32 x rs2) rs2 = x := by
  have hinv : ∀ st ∈ shfl32Stages, ∀ x,
      doSHFL32Stage (doSHFL32Stage x st.1 st.2.1 st.2.2) st.1 st.2.1 st.2.2 = x :=
    shflStage_shflStage_of_mem shfl32Stages_swapMasks
  rw [doUNSHFL32, doSHFL32, doUNSHFL32, doSHFL32, unshfl32Stages_eq]
  refine ⟨shflStages_reverse hinv x, ?_⟩
  -- the other way round is the same law for the reversed stages
  have hrev : shflStages doSHFL32Stage (rs2 &&& 15) shfl32Stages.reverse.reverse
      (shflStages doSHFL32Stage (rs2 &&& 15) shfl32Stages.reverse x) = x :=
    shflStages_reverse (fun st hst => hinv st (List.mem_reverse.mp hst)) x
  rwa [List.reverse_reverse] at hrev

/-- **`doUNSHFL64` inverts `doSHFL64`, both ways**, for the control passed to
both (truncated to 32 bits for `doSHFL64`). -/
theorem doUNSHFL64_doSHFL64 (x rs2 : BitVec 64) :
    doUNSHFL64 (doSHFL64 x (rs2.setWidth 32)) rs2 = x ∧
      doSHFL64 (doUNSHFL64 x rs2) (rs2.setWidth 32) = x := by
  have hinv : ∀ st ∈ shfl64Stages, ∀ x,
      doSHFL64Stage (doSHFL64Stage x st.1 st.2.1 st.2.2) st.1 st.2.1 st.2.2 = x :=
    shflStage_shflStage_of_mem shfl64Stages_swapMasks
  have hshamt : (rs2 &&& 31).setWidth 32 = rs2.setWidth 32 &&& 31 := by
    rw [setWidth_and]
    rfl
  rw [doUNSHFL64, doSHFL64, doUNSHFL64, doSHFL64, unshfl64Stages_eq, hshamt]
  refine ⟨shflStages_reverse hinv x, ?_⟩
  have hrev : shflStages doSHFL64Stage (rs2.setWidth 32 &&& 31) shfl64Stages.reverse.reverse
      (shflStages doSHFL64Stage (rs2.setWidth 32 &&& 31) shfl64Stages.reverse x) = x :=
    shflStages_reverse (fun st hst => hinv st (List.mem_reverse.mp hst)) x
  rwa [List.reverse_reverse] at hrev

/-- A shuffle of 64 bits moves bits by the shuffle index of its stages. -/
lemma doSHFL64_movesBits (rs2 : BitVec 32) :
    MovesBits (doSHFL64 · rs2) (shflIndex (rs2 &&& 31) shfl64Stages) ∧
      ∀ i < 64, shflIndex (rs2 &&& 31) shfl64Stages i < 64 :=
  shflStages_movesBits (fun _ _ _ h => shflStage_movesBits h) shfl64Stages_swapMasks

/-- **`doBMATFLIP` moves bit `i` to the transposed position**: three full
shuffles rotate the six bits of a bit's index by three places, swapping its
row and column. -/
theorem doBMATFLIP_movesBits : MovesBits doBMATFLIP (fun i => 8 * (i % 8) + i / 8) := by
  obtain ⟨h, hlt⟩ := doSHFL64_movesBits 31
  refine ((h.comp h hlt).comp h hlt).congr ?_
  decide +kernel

/-- **Shuffle and unshuffle are inverse, and `doBMATFLIP` is the 8x8
bit-matrix transpose**, hence an involution. -/
theorem shfl_unshfl_inverse :
    (∀ x rs2 : BitVec 32, doUNSHFL32 (doSHFL32 x rs2) rs2 = x ∧
      doSHFL32 (doUNSHFL32 x rs2) rs2 = x) ∧
    (∀ x rs2 : BitVec 64, doUNSHFL64 (doSHFL64 x (rs2.setWidth 32)) rs2 = x ∧
      doSHFL64 (doUNSHFL64 x rs2) (rs2.setWidth 32) = x) ∧
    (∀ (x : BitVec 64) (i j : Fin 8),
      (doBMATFLIP x).getLsbD (8 * i + j) = x.getLsbD (8 * j + i)) ∧
    (∀ x : BitVec 64, doBMATFLIP (doBMATFLIP x) = x) := by
  refine ⟨doUNSHFL32_doSHFL32, doUNSHFL64_doSHFL64, fun x i j => ?_, fun x => ?_⟩
  · rw [doBMATFLIP_movesBits x _ (by omega)]
    congr 1
    dsimp only
    omega
  · -- the transpose of the positions is an involution
    refine doBMATFLIP_movesBits.apply_apply (fun i hi => ⟨by omega, by omega⟩) x

end RiscvOvpsim
