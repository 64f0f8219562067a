import Mathlib.Tactic
import RiscvOvpsim.Lib.Bits

/-!
The loop by which C code visits the set bits of a word, least first:

    do { if (x & 1) acc = f(acc, i); x >>= 1; i++; } while (x);

* `BitScan.loop`: the loop, with a bound `fuel` on its rounds;
* `loop_eq_foldl`: with enough rounds for the bits of `x`, the loop is a left
  fold of `f` over the indices of the set bits, offset by the first index.
-/

namespace BitScan

variable {β : Type*} (f : β → ℕ → β)

/-- The loop, for at most `fuel` rounds. -/
def loop : ℕ → ℕ → ℕ → β → β
  | 0, _, _, acc => acc
  | fuel + 1, x, i, acc =>
      let acc := if x % 2 = 1 then f acc i else acc
      if x / 2 = 0 then acc else loop fuel (x / 2) (i + 1) acc

/-- **The loop is a fold** over the set bits, from bit 0 up. -/
theorem loop_eq_foldl (fuel : ℕ) :
    ∀ (x i : ℕ) (acc : β), x < 2 ^ fuel →
      loop f fuel x i acc = (x.bitIndices.map (· + i)).foldl f acc := by
  induction fuel with
  | zero =>
      intro x i acc hx
      have hzero : x = 0 := by simpa using hx
      subst hzero
      rfl
  | succ fuel ih =>
      intro x i acc hx
      -- one round handles bit 0; the rest is the loop on `x / 2` from `i + 1`
      rw [loop, Nat.bitIndices_map_add, List.foldl_append]
      have hbit : List.foldl f acc (if x % 2 = 1 then [i] else []) =
          if x % 2 = 1 then f acc i else acc := by
        split_ifs <;> rfl
      rw [hbit]
      by_cases hq : x / 2 = 0
      · rw [if_pos hq, hq, Nat.bitIndices_zero, List.map_nil, List.foldl_nil]
      · rw [if_neg hq, ih (x / 2) (i + 1) _ (by rw [pow_succ] at hx; omega)]

end BitScan
