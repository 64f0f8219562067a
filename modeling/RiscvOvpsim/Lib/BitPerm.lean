import Mathlib.Tactic

/-!
Bit permutations of fixed-width words, as bit-manipulation code builds them
from masked swap stages `x & ~(L | R) | ((x << n) & L) | ((x >> n) & R)`.

* `BitVec.MovesBits f p`: bit `i` of `f x` is bit `p i` of `x`; such maps
  compose (`MovesBits.comp`), may be applied under a condition
  (`MovesBits.ite`), are equal when their index maps agree
  (`MovesBits.eq_of_index`), and are involutions when the index map is
  (`MovesBits.apply_apply`);
* `BitVec.movesBits_maskedSwap`: a masked swap stage moves bits by
  `swapIndex`, which is an involution for masks that pair up
  (`SwapMasks`, `swapIndex_swapIndex`);
* `BitVec.and_shiftLeft_or_and_ushiftRight`: the swap of two complementary
  halves `((x & M) << n) | ((x & M') >> n)` is a masked swap stage;
* `Nat.and_two_pow_succ_sub_one`, `Nat.xor_and_two_pow`: the low `s + 1`
  bits of `t` are its low `s` bits with bit `s` added, so conditional stages
  `i ↦ i ^ 2 ^ s` compose to `i ↦ i ^ (t & (2 ^ k - 1))`;
* `BitVec.AnySubmask`, `BitVec.anySubmask_or_movesBits`: or-ing a word with
  its stage `i ↦ i ^ 2 ^ s` widens the set of xor offsets by bit `s`; doing
  it again adds nothing (`anySubmask_anySubmask`);
* `BitVec.getLsbD_foldl_or`, `BitVec.getLsbD_orSubmasks`: the bits of an
  or over a list of words, and over the submasks of a mask;
* `BitVec.bne_and_ofNat_two_pow`: the test `x & (1 << s) != 0` reads bit
  `s`.
-/

namespace Nat

/-- The low `s + 1` bits of `t` are its low `s` bits and bit `s`, which
share no bit. -/
lemma and_two_pow_succ_sub_one (t s : ℕ) :
    t &&& (2 ^ (s + 1) - 1) = (t &&& (2 ^ s - 1)) ^^^ (t &&& 2 ^ s) := by
  apply Nat.eq_of_testBit_eq
  intro j
  simp only [Nat.testBit_and, Nat.testBit_xor, Nat.testBit_two_pow_sub_one, Nat.testBit_two_pow]
  by_cases hj : j < s
  · simp [hj, show j < s + 1 by omega, show s ≠ j by omega]
  · by_cases hjs : s = j
    · subst hjs
      simp
    · simp [hj, show ¬ j < s + 1 by omega, hjs]

/-- Bit `s` of `t`, in its place. -/
lemma and_two_pow_eq_ite (t s : ℕ) : t &&& 2 ^ s = if t.testBit s then 2 ^ s else 0 := by
  apply Nat.eq_of_testBit_eq
  intro j
  by_cases hj : s = j
  · subst hj
    by_cases h : t.testBit s <;> simp [Nat.testBit_and, h]
  · by_cases h : t.testBit s <;> simp [Nat.testBit_and, hj, h]

/-- The low `s + 1` bits of `t` are its low `s` bits or bit `s`. -/
lemma and_two_pow_succ_sub_one_or (t s : ℕ) :
    t &&& (2 ^ (s + 1) - 1) = (t &&& (2 ^ s - 1)) ||| (t &&& 2 ^ s) := by
  apply Nat.eq_of_testBit_eq
  intro j
  simp only [Nat.testBit_and, Nat.testBit_or, Nat.testBit_two_pow_sub_one, Nat.testBit_two_pow]
  by_cases hj : j < s
  · simp [hj, show j < s + 1 by omega, show s ≠ j by omega]
  · by_cases hjs : s = j
    · subst hjs
      simp
    · simp [hj, show ¬ j < s + 1 by omega, hjs]

/-- Xor with bit `s` of `t` is xor with `2 ^ s` when that bit is set. -/
lemma xor_and_two_pow (i t s : ℕ) :
    i ^^^ (t &&& 2 ^ s) = if t.testBit s then i ^^^ 2 ^ s else i := by
  rw [and_two_pow_eq_ite]
  split_ifs <;> simp

/-- Submasks of `T` are closed under xor. -/
lemma xor_and_eq_of_and_eq {j j' T : ℕ} (hj : j &&& T = j) (hj' : j' &&& T = j') :
    (j ^^^ j') &&& T = j ^^^ j' := by
  apply Nat.eq_of_testBit_eq
  intro k
  have hk := congrArg (Nat.testBit · k) hj
  have hk' := congrArg (Nat.testBit · k) hj'
  simp only [Nat.testBit_and] at hk hk'
  simp only [Nat.testBit_and, Nat.testBit_xor]
  cases hT : T.testBit k <;> simp_all

/-- The submasks of `T ||| 2 ^ s`, for `T` without bit `s`, are the submasks
of `T` and those with bit `s` added. -/
lemma exists_submask_or_two_pow {T s : ℕ} (hT : T.testBit s = false) (P : ℕ → Prop) :
    (∃ j, j &&& (T ||| 2 ^ s) = j ∧ P j) ↔
      ∃ j, j &&& T = j ∧ (P j ∨ P (j ^^^ 2 ^ s)) := by
  constructor
  · rintro ⟨j, hj, hP⟩
    by_cases hs : j.testBit s
    · -- drop bit `s`: `j ^ 2 ^ s` is a submask of `T`
      refine ⟨j ^^^ 2 ^ s, ?_, Or.inr ?_⟩
      · apply Nat.eq_of_testBit_eq
        intro k
        have hk := congrArg (Nat.testBit · k) hj
        simp only [Nat.testBit_and, Nat.testBit_or, Nat.testBit_two_pow] at hk
        by_cases hsk : s = k
        · subst hsk
          simp [Nat.testBit_and, Nat.testBit_xor, hs]
        · simp only [Nat.testBit_and, Nat.testBit_xor, Nat.testBit_two_pow, hsk, decide_false,
            Bool.xor_false, Bool.or_false] at hk ⊢
          exact hk
      · rwa [Nat.xor_assoc, Nat.xor_self, Nat.xor_zero]
    · refine ⟨j, ?_, Or.inl hP⟩
      apply Nat.eq_of_testBit_eq
      intro k
      have hk := congrArg (Nat.testBit · k) hj
      simp only [Nat.testBit_and, Nat.testBit_or, Nat.testBit_two_pow] at hk
      by_cases hsk : s = k
      · subst hsk
        simp [Nat.testBit_and, hs]
      · simpa [Nat.testBit_and, hsk] using hk
  · rintro ⟨j, hj, hP | hP⟩
    · refine ⟨j, ?_, hP⟩
      apply Nat.eq_of_testBit_eq
      intro k
      have hk := congrArg (Nat.testBit · k) hj
      simp only [Nat.testBit_and] at hk
      simp only [Nat.testBit_and, Nat.testBit_or]
      cases hjk : j.testBit k <;> simp_all
    · -- add bit `s`, which `j` lacks because `T` does
      refine ⟨j ^^^ 2 ^ s, ?_, hP⟩
      apply Nat.eq_of_testBit_eq
      intro k
      have hk := congrArg (Nat.testBit · k) hj
      simp only [Nat.testBit_and] at hk
      by_cases hsk : s = k
      · subst hsk
        have hjs : j.testBit s = false := by
          rw [hT, Bool.and_false] at hk
          exact hk.symm
        simp [Nat.testBit_and, Nat.testBit_xor, Nat.testBit_or, hjs]
      · simp only [Nat.testBit_and, Nat.testBit_xor, Nat.testBit_or, Nat.testBit_two_pow, hsk,
          decide_false, Bool.xor_false, Bool.or_false]
        exact hk

/-- Xor with a field of the low `n` bits stays below `2 ^ n`. -/
lemma xor_and_lt {i t n : ℕ} (hi : i < 2 ^ n) : i ^^^ (t &&& (2 ^ n - 1)) < 2 ^ n :=
  Nat.xor_lt_two_pow hi (lt_of_le_of_lt Nat.and_le_right (Nat.sub_lt (Nat.two_pow_pos n) one_pos))

/-- A submask of `t & m` is at most `m`. -/
lemma le_of_and_and_eq {j t m : ℕ} (hj : j &&& (t &&& m) = j) : j ≤ m := by
  rw [← hj]
  exact Nat.and_le_right.trans Nat.and_le_right

end Nat

namespace BitVec

variable {w : ℕ}

/-- `f` moves bits by the index map `p`: bit `i` of `f x` is bit `p i` of
`x`. -/
def MovesBits (f : BitVec w → BitVec w) (p : ℕ → ℕ) : Prop :=
  ∀ x i, i < w → (f x).getLsbD i = x.getLsbD (p i)

namespace MovesBits

variable {f g : BitVec w → BitVec w} {p q : ℕ → ℕ}

/-- Applying `f` and then `g` reads bit `i` from `p (q i)`. -/
lemma comp (hf : MovesBits f p) (hg : MovesBits g q) (hq : ∀ i < w, q i < w) :
    MovesBits (fun x => g (f x)) (fun i => p (q i)) := by
  intro x i hi
  rw [hg _ _ hi, hf _ _ (hq i hi)]

/-- A stage applied under a condition moves bits under the same condition. -/
lemma ite (b : Bool) (hf : MovesBits f p) :
    MovesBits (fun x => if b then f x else x) (fun i => if b then p i else i) := by
  intro x i hi
  cases b
  · rfl
  · exact hf x i hi

/-- Index maps that agree below the width may replace each other. -/
lemma congr (hf : MovesBits f p) (h : ∀ i < w, p i = q i) : MovesBits f q := by
  intro x i hi
  rw [hf x i hi, h i hi]

/-- Two maps that move bits by the same indices are equal. -/
lemma eq_of_index (hf : MovesBits f p) (hg : MovesBits g q) (h : ∀ i < w, p i = q i)
    (x : BitVec w) : f x = g x := by
  apply BitVec.eq_of_getLsbD_eq
  intro i hi
  rw [hf x i hi, hg x i hi, h i hi]

/-- A map whose index map is an involution of the positions is an
involution. -/
lemma apply_apply (hf : MovesBits f p) (hp : ∀ i < w, p i < w ∧ p (p i) = i)
    (x : BitVec w) : f (f x) = x := by
  have hff := hf.comp hf fun i hi => (hp i hi).1
  exact hff.eq_of_index (g := fun x => x) (fun _ _ _ => rfl) (fun i hi => (hp i hi).2) x

end MovesBits

/-! ### Masked swap stages -/

/-- The bit that a masked swap by `n` reads into position `i`: `L` marks the
positions that take the bit `n` below, `R` those that take the bit `n`
above, the others keep their own. -/
def swapIndex (L R : BitVec w) (n i : ℕ) : ℕ :=
  if L.getLsbD i then i - n else if R.getLsbD i then i + n else i

/-- Masks of a swap by `n` that pair up: each position of `L` has its partner
`n` below in `R`, each position of `R` has its partner `n` above in `L`, and
no position is in both. -/
def SwapMasks (L R : BitVec w) (n : ℕ) : Prop :=
  ∀ i < w, (L.getLsbD i = true → n ≤ i ∧ R.getLsbD (i - n) = true) ∧
    (R.getLsbD i = true → i + n < w ∧ L.getLsbD (i + n) = true) ∧
    ¬ (L.getLsbD i = true ∧ R.getLsbD i = true)

instance (L R : BitVec w) (n : ℕ) : Decidable (SwapMasks L R n) :=
  inferInstanceAs (Decidable (∀ i < w, _))

/-- Bit `i` of a masked swap stage. -/
lemma getLsbD_maskedSwap {L R : BitVec w} {n : ℕ} (h : SwapMasks L R n) (x : BitVec w)
    {i : ℕ} (hi : i < w) :
    (x &&& ~~~(L ||| R) ||| ((x <<< n) &&& L ||| (x >>> n) &&& R)).getLsbD i =
      x.getLsbD (swapIndex L R n i) := by
  obtain ⟨hL, -, hLR⟩ := h i hi
  simp only [getLsbD_or, getLsbD_and, getLsbD_not, getLsbD_shiftLeft, getLsbD_ushiftRight,
    swapIndex, hi, decide_true, Bool.true_and]
  cases hLi : L.getLsbD i <;> cases hRi : R.getLsbD i
  · simp
  · simp [Nat.add_comm n i]
  · have hn := (hL hLi).1
    simp [show ¬ i < n by omega]
  · exact absurd ⟨hLi, hRi⟩ hLR

/-- **A masked swap stage moves bits by `swapIndex`.** -/
theorem movesBits_maskedSwap {L R : BitVec w} {n : ℕ} (h : SwapMasks L R n) :
    MovesBits (fun x => x &&& ~~~(L ||| R) ||| ((x <<< n) &&& L ||| (x >>> n) &&& R))
      (swapIndex L R n) :=
  fun x _ hi => getLsbD_maskedSwap h x hi

lemma swapIndex_of_left {L R : BitVec w} {n i : ℕ} (hL : L.getLsbD i = true) :
    swapIndex L R n i = i - n := by
  rw [swapIndex, if_pos hL]

lemma swapIndex_of_right {L R : BitVec w} {n i : ℕ} (hL : L.getLsbD i = false)
    (hR : R.getLsbD i = true) : swapIndex L R n i = i + n := by
  rw [swapIndex, if_neg (by simp [hL]), if_pos hR]

lemma swapIndex_of_neither {L R : BitVec w} {n i : ℕ} (hL : L.getLsbD i = false)
    (hR : R.getLsbD i = false) : swapIndex L R n i = i := by
  rw [swapIndex, if_neg (by simp [hL]), if_neg (by simp [hR])]

/-- For paired masks, `swapIndex` is an involution of the positions. -/
lemma swapIndex_swapIndex {L R : BitVec w} {n : ℕ} (h : SwapMasks L R n) :
    ∀ i < w, swapIndex L R n i < w ∧ swapIndex L R n (swapIndex L R n i) = i := by
  intro i hi
  obtain ⟨hL, hR, -⟩ := h i hi
  cases hLi : L.getLsbD i
  · cases hRi : R.getLsbD i
    · rw [swapIndex_of_neither hLi hRi, swapIndex_of_neither hLi hRi]
      exact ⟨hi, rfl⟩
    · -- `i` takes the bit above, whose position takes the bit below
      obtain ⟨hin, hLn⟩ := hR hRi
      rw [swapIndex_of_right hLi hRi, swapIndex_of_left hLn, Nat.add_sub_cancel]
      exact ⟨hin, rfl⟩
  · obtain ⟨hni, hRn⟩ := hL hLi
    have hlt : i - n < w := by omega
    have hLn : L.getLsbD (i - n) = false := by
      have hnot := (h (i - n) hlt).2.2
      cases hL' : L.getLsbD (i - n)
      · rfl
      · exact absurd ⟨hL', hRn⟩ hnot
    rw [swapIndex_of_left hLi, swapIndex_of_right hLn hRn, Nat.sub_add_cancel hni]
    exact ⟨hlt, rfl⟩

/-- Swapping two complementary halves is a masked swap stage whose masks are
the halves moved into place. -/
lemma and_shiftLeft_or_and_ushiftRight (x M M' : BitVec w) (n : ℕ)
    (h : M <<< n ||| M' >>> n = allOnes w) :
    (x &&& M) <<< n ||| (x &&& M') >>> n =
      x &&& ~~~(M <<< n ||| M' >>> n) ||| ((x <<< n) &&& (M <<< n) ||| (x >>> n) &&& (M' >>> n)) := by
  rw [h, not_allOnes, and_zero, zero_or, shiftLeft_and_distrib, ushiftRight_and_distrib]

/-- A stage under bit `s` of a control word moves bit `i` by `t & 2 ^ s`. -/
lemma MovesBits.ite_xor {f : BitVec w → BitVec w} (hf : MovesBits f (· ^^^ 2 ^ s)) (t : ℕ) :
    MovesBits (fun x => if t.testBit s then f x else x) (· ^^^ (t &&& 2 ^ s)) := by
  refine (hf.ite (t.testBit s)).congr fun i _ => ?_
  rw [Nat.xor_and_two_pow]

/-! ### Or-combining with a stage -/

/-- Some xor offset `j`, a submask of `T`, reads a set bit of `x` into
position `i`. -/
def AnySubmask (x : BitVec w) (T i : ℕ) : Prop :=
  ∃ j, j &&& T = j ∧ x.getLsbD (i ^^^ j) = true

/-- The only submask of `0` is `0`. -/
lemma anySubmask_zero (x : BitVec w) (i : ℕ) : AnySubmask x 0 i ↔ x.getLsbD i = true := by
  constructor
  · rintro ⟨j, hj, hx⟩
    rw [Nat.and_zero] at hj
    rwa [← hj, Nat.xor_zero] at hx
  · intro hx
    exact ⟨0, Nat.zero_and _, by rwa [Nat.xor_zero]⟩

/-- **Or-ing a word with its stage `i ↦ i ^ 2 ^ s` adds bit `s` to the xor
offsets** of the set bits it collects. -/
theorem anySubmask_or_movesBits {g : BitVec w → BitVec w} {s : ℕ}
    (hg : MovesBits g (· ^^^ 2 ^ s)) {x y : BitVec w} {T : ℕ} (hT : T.testBit s = false)
    (hy : ∀ i < w, y.getLsbD i = true ↔ AnySubmask x T i) {i : ℕ} (hi : i < w)
    (hs : i ^^^ 2 ^ s < w) :
    (y ||| g y).getLsbD i = true ↔ AnySubmask x (T ||| 2 ^ s) i := by
  rw [getLsbD_or, hg y i hi, Bool.or_eq_true, hy i hi, hy _ hs]
  unfold AnySubmask
  rw [Nat.exists_submask_or_two_pow hT]
  constructor
  · rintro (⟨j, hj, hx⟩ | ⟨j, hj, hx⟩)
    · exact ⟨j, hj, Or.inl hx⟩
    · refine ⟨j, hj, Or.inr ?_⟩
      rwa [Nat.xor_assoc, Nat.xor_comm (2 ^ s) j] at hx
  · rintro ⟨j, hj, hx | hx⟩
    · exact Or.inl ⟨j, hj, hx⟩
    · refine Or.inr ⟨j, hj, ?_⟩
      rwa [Nat.xor_assoc, Nat.xor_comm (2 ^ s) j]

/-- More set bits give more submask offsets. -/
lemma AnySubmask.mono {x y : BitVec w} {T i : ℕ} (hxy : ∀ m, x.getLsbD m = true → y.getLsbD m = true)
    (h : AnySubmask x T i) : AnySubmask y T i := by
  obtain ⟨j, hj, hx⟩ := h
  exact ⟨j, hj, hxy _ hx⟩

/-- Collecting submask offsets twice collects nothing new, since submasks
are closed under xor. -/
lemma anySubmask_anySubmask {x y : BitVec w} {T : ℕ}
    (hy : ∀ i < w, y.getLsbD i = true ↔ AnySubmask x T i)
    (hT : ∀ i < w, ∀ j, j &&& T = j → i ^^^ j < w) {i : ℕ} (hi : i < w) :
    AnySubmask y T i ↔ AnySubmask x T i := by
  constructor
  · rintro ⟨j, hj, hyj⟩
    obtain ⟨j', hj', hx⟩ := (hy _ (hT i hi j hj)).mp hyj
    refine ⟨j ^^^ j', Nat.xor_and_eq_of_and_eq hj hj', ?_⟩
    rwa [← Nat.xor_assoc]
  · intro h
    refine ⟨0, Nat.zero_and _, ?_⟩
    rw [Nat.xor_zero]
    exact (hy i hi).mpr h

/-- The bits of an or over a list of words. -/
lemma getLsbD_foldl_or {α : Type*} (f : α → BitVec w) (l : List α) (a : BitVec w) (i : ℕ) :
    (l.foldl (fun acc j => acc ||| f j) a).getLsbD i = true ↔
      a.getLsbD i = true ∨ ∃ j ∈ l, (f j).getLsbD i = true := by
  induction l generalizing a with
  | nil => simp
  | cons j l ih =>
      rw [List.foldl_cons, ih, getLsbD_or, Bool.or_eq_true]
      simp only [List.mem_cons, exists_eq_or_imp]
      tauto

/-- The or of `f j` over the submasks `j` of `T`. -/
def orSubmasks (f : ℕ → BitVec w) (T : ℕ) : BitVec w :=
  ((List.range (T + 1)).filter (fun j => j &&& T = j)).foldl (fun acc j => acc ||| f j) 0#w

/-- A bit of `orSubmasks f T` is set when it is set in `f j` for some
submask `j` of `T`. -/
lemma getLsbD_orSubmasks (f : ℕ → BitVec w) (T i : ℕ) :
    (orSubmasks f T).getLsbD i = true ↔ ∃ j, j &&& T = j ∧ (f j).getLsbD i = true := by
  rw [orSubmasks, getLsbD_foldl_or, getLsbD_zero]
  simp only [Bool.false_eq_true, false_or, List.mem_filter, List.mem_range, decide_eq_true_eq]
  constructor
  · rintro ⟨j, ⟨-, hj⟩, hf⟩
    exact ⟨j, hj, hf⟩
  · rintro ⟨j, hj, hf⟩
    have hle : j ≤ T := by
      rw [← hj]
      exact Nat.and_le_right
    exact ⟨j, ⟨by omega, hj⟩, hf⟩

/-- Bit `s` of a word decides the test `x & (1 << s) != 0`. -/
lemma bne_and_ofNat_two_pow (x : BitVec w) {s : ℕ} (hs : s < w) :
    (x &&& BitVec.ofNat w (2 ^ s) != 0) = x.toNat.testBit s := by
  have hpow : 2 ^ s < 2 ^ w := Nat.pow_lt_pow_right (by norm_num) hs
  have htwo : BitVec.ofNat w (2 ^ s) = twoPow w s := by
    apply eq_of_toNat_eq
    rw [toNat_ofNat, toNat_twoPow_of_lt hs, Nat.mod_eq_of_lt hpow]
  have hne : twoPow w s ≠ 0#w := by
    intro h
    have h0 := congrArg BitVec.toNat h
    rw [toNat_twoPow_of_lt hs, toNat_ofNat, Nat.zero_mod] at h0
    exact (Nat.two_pow_pos s).ne' h0
  rw [htwo, and_twoPow, testBit_toNat]
  by_cases h : x.getLsbD s
  · simp [h, hne]
  · simp [h]

end BitVec
