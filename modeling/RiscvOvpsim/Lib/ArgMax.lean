import Mathlib.Tactic

/-!
Selecting an element of greatest key in one scan, as priority arbiters do: a
running selection, empty at the start, is replaced by each element whose key
is at least the selection's, so on a tie the later element wins.

* `ArgMax.step`: one step of the scan;
* `foldl_step_isSome`: a scan selects something exactly when it starts from a
  selection or the list is not empty;
* `foldl_step_mem`: what it selects is the start or a member of the list;
* `le_foldl_step`: no member of the list, and not the start, has a greater
  key than what it selects;
* `foldl_step_lex`: over a list in increasing order, the later element
  winning a tie is the lexicographic order of the key and the element.
-/

namespace ArgMax

variable {α β : Type*} [LinearOrder β] (key : α → β)

/-- Keep the element of greatest key seen so far, the later one on a tie. -/
def step : Option α → α → Option α
  | none, a => some a
  | some s, a => if key s ≤ key a then some a else some s

/-- A step selects something, whose key is at least the new element's and the
old selection's. -/
lemma le_step (o : Option α) (a : α) :
    ∃ t, step key o a = some t ∧ key a ≤ key t ∧ ∀ s ∈ o, key s ≤ key t := by
  cases o with
  | none => exact ⟨a, rfl, le_rfl, fun _ hs => absurd hs (by simp)⟩
  | some s =>
      by_cases h : key s ≤ key a
      · refine ⟨a, if_pos h, le_rfl, ?_⟩
        rintro s' ⟨⟩
        exact h
      · refine ⟨s, if_neg h, le_of_lt (not_le.mp h), ?_⟩
        rintro s' ⟨⟩
        exact le_rfl

/-- A step selects the new element or keeps the old selection. -/
lemma step_eq_or (o : Option α) (a : α) : step key o a = some a ∨ step key o a = o := by
  cases o with
  | none => exact Or.inl rfl
  | some s =>
      by_cases h : key s ≤ key a
      · exact Or.inl (if_pos h)
      · exact Or.inr (if_neg h)

variable {key}

lemma foldl_step_isSome (o : Option α) (l : List α) :
    (l.foldl (step key) o).isSome ↔ o.isSome ∨ l ≠ [] := by
  induction l generalizing o with
  | nil => simp
  | cons a l ih =>
      obtain ⟨t, ht, -⟩ := le_step key o a
      rw [List.foldl_cons, ih, ht]
      simp

lemma foldl_step_mem {o : Option α} {l : List α} {a : α} (h : l.foldl (step key) o = some a) :
    o = some a ∨ a ∈ l := by
  induction l generalizing o with
  | nil => exact Or.inl h
  | cons b l ih =>
      rcases ih h with h' | h'
      · rcases step_eq_or key o b with hb | hb
        · rw [hb] at h'
          cases h'
          exact Or.inr List.mem_cons_self
        · exact Or.inl (hb ▸ h')
      · exact Or.inr (List.mem_cons_of_mem _ h')

/-- **The scan selects a maximum**: neither the start nor a member of the list
has a greater key than the selection. -/
lemma le_foldl_step {o : Option α} {l : List α} {a : α} (h : l.foldl (step key) o = some a) :
    (∀ s ∈ o, key s ≤ key a) ∧ ∀ b ∈ l, key b ≤ key a := by
  induction l generalizing o with
  | nil =>
      rw [List.foldl_nil] at h
      subst h
      refine ⟨?_, fun _ hb => absurd hb List.not_mem_nil⟩
      rintro s ⟨⟩
      exact le_rfl
  | cons b l ih =>
      obtain ⟨t, ht, hbt, hst⟩ := le_step key o b
      rw [List.foldl_cons, ht] at h
      obtain ⟨hto, hl⟩ := ih h
      have hta : key t ≤ key a := hto t rfl
      refine ⟨fun s hs => (hst s hs).trans hta, ?_⟩
      rintro c (_ | ⟨_, hc⟩)
      · exact hbt.trans hta
      · exact hl c hc

/-- **On a list in increasing order, the tie-break is by the element**: a
later element wins a tie exactly when it is the greater, so the scan by `key`
is the scan by the pair of the key and the element, compared
lexicographically. -/
lemma foldl_step_lex [LinearOrder α] {o : Option α} {l : List α} (hl : l.Pairwise (· < ·))
    (ho : ∀ s ∈ o, ∀ a ∈ l, s < a) :
    l.foldl (step key) o = l.foldl (step fun a => toLex (key a, a)) o := by
  induction l generalizing o with
  | nil => rfl
  | cons b l ih =>
      obtain ⟨hb, hl⟩ := List.pairwise_cons.mp hl
      have hstep : step key o b = step (fun a => toLex (key a, a)) o b := by
        cases o with
        | none => rfl
        | some s =>
            have hsb : s < b := ho s rfl b List.mem_cons_self
            have hiff : key s ≤ key b ↔ toLex (key s, s) ≤ toLex (key b, b) := by
              rw [Prod.Lex.toLex_le_toLex, le_iff_lt_or_eq]
              simp [hsb.le]
            simp only [step, hiff]
      rw [List.foldl_cons, List.foldl_cons, ← hstep]
      refine ih hl fun t ht c hc => ?_
      -- the new selection is `b`, below the rest of the list, or the old one
      rcases step_eq_or key o b with h | h
      · rw [h] at ht
        cases ht
        exact hb c hc
      · rw [h] at ht
        exact ho t ht c (List.mem_cons_of_mem _ hc)

end ArgMax
