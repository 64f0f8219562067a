import RiscvOvpsim.Pmp.Cache
import RiscvOvpsim.Lib.Bits

/-!
The range `mapPMP` maps around a physical address (`riscvVM.c`:
`getPMPEntryBounds`, `refinePMPRegionRange`, `mapPMP`).

The loop of `mapPMP` visits the entries from the lowest priority (the highest
number) to the highest.  An entry that contains the address replaces the
range and the privilege by its own; an entry above or below the address cuts
the range short of it.  The cuts compare strictly (`lowPAEntry < *highPAP`,
`highPAEntry > *lowPAP`), which is enough because every bound is aligned to a
four-byte word: an entry's low bound cannot be the range's high bound, nor its
high bound the range's low one.

* `getPMPEntryBounds_aligned`: the low bound of every entry is a multiple of
  four and the high bound three more, in every mode, for every register value
  and grain;
* `pmpRefPrivFrom`: the reference privilege from the entries `i`, ...,
  `numRegs - 1` alone;
* `PmpRangeInv`: the invariant of the loop; `PmpRangeInv.refine`: one entry
  keeps it; `mapPMPLoop_inv`: the loop does;
* `mapPMP_region_exact`: the range contains the address, and every address in
  it has the reference privilege the loop records.
-/

namespace RiscvOvpsim

variable (cfg : PmpConfig)

/-! ### Word alignment of the bounds -/

/-- **Every entry's bounds are word-aligned**: a shifted address register is a
multiple of four, the `NAPOT` mask has its two low bits set, and the `TOR`
low bound is masked by `-4 << G`. -/
theorem getPMPEntryBounds_aligned (s : PmpState) (index : ℕ) :
    (getPMPEntryBounds cfg s index).1.toNat % 4 = 0 ∧
      (getPMPEntryBounds cfg s index).2.toNat % 4 = 3 := by
  unfold getPMPEntryBounds
  dsimp only
  set low := getEffectivePMPAddr cfg s index <<< 2
  have hlow : low.toNat % 4 = 0 := UInt64.shiftLeft_two_mod_four _
  split
  · exact ⟨hlow, UInt64.add_three_mod_four hlow⟩
  · -- `~(low + 3)` is a multiple of four, so is its lowest set bit, and the
    -- mask, twice that bit less one, has its two low bits set
    set notLow := ~~~(low + 3)
    set mask := ((notLow &&& (0 - notLow)) <<< 1) - 1
    have hnot : notLow.toNat % 4 = 0 := UInt64.not_mod_four_of_three (UInt64.add_three_mod_four hlow)
    have hbit : (notLow &&& (0 - notLow)).toNat % 4 = 0 :=
      UInt64.and_mod_four_of_right _ (UInt64.neg_mod_four hnot)
    have hmask : mask.toNat % 4 = 3 := UInt64.sub_one_mod_four (UInt64.shiftLeft_one_mod_four (by omega))
    have hlow' : (low &&& ~~~mask).toNat % 4 = 0 :=
      UInt64.and_mod_four_of_right _ (UInt64.not_mod_four_of_three hmask)
    exact ⟨hlow', UInt64.or_mod_four hlow' hmask⟩
  · exact ⟨UInt64.and_mod_four_of_right _ (UInt64.shiftLeft_mod_four (by decide) _),
      UInt64.sub_one_mod_four hlow⟩

/-! ### The reference privilege from an entry on -/

section From

variable (s : PmpState) (mode : RiscvMode) (a : UInt64)

/-- The privilege a matching entry gives mode `mode`, as `pmpRefPriv` has it:
full access to Machine mode when the entry is unlocked, its own otherwise. -/
def pmpEntryPriv (e : PmpcfgElem) : MemPriv :=
  if mode = .machine ∧ e.L = false then MemPriv.RWX else e.priv

/-- The privilege the entries `i`, ..., `numRegs - 1` alone give mode `mode`
at `a`: the lowest-numbered of them that matches decides. -/
def pmpRefPrivFrom (i : ℕ) : MemPriv :=
  match (List.range' i (cfg.numRegs - i)).find? (pmpEntryMatches cfg s a) with
  | some j => pmpEntryPriv mode (getPMPCFGElem s j)
  | none => if mode = .machine then MemPriv.RWX else MemPriv.none

/-- From the first entry on, it is the reference privilege. -/
lemma pmpRefPrivFrom_zero : pmpRefPrivFrom cfg s mode a 0 = pmpRefPriv cfg s mode a := by
  rw [pmpRefPrivFrom, pmpRefPriv, pmpMatch, List.range_eq_range', Nat.sub_zero]
  cases (List.range' 0 cfg.numRegs).find? (pmpEntryMatches cfg s a) <;> rfl

/-- Past the last entry, no entry matches. -/
lemma pmpRefPrivFrom_numRegs :
    pmpRefPrivFrom cfg s mode a cfg.numRegs = if mode = .machine then MemPriv.RWX else MemPriv.none := by
  rw [pmpRefPrivFrom, Nat.sub_self]
  rfl

/-- Entry `i` decides when it matches, and the entries after it when not. -/
lemma pmpRefPrivFrom_of_lt {i : ℕ} (hi : i < cfg.numRegs) :
    pmpRefPrivFrom cfg s mode a i =
      if pmpEntryMatches cfg s a i then pmpEntryPriv mode (getPMPCFGElem s i)
      else pmpRefPrivFrom cfg s mode a (i + 1) := by
  have hn : cfg.numRegs - i = cfg.numRegs - (i + 1) + 1 := by omega
  rw [pmpRefPrivFrom, hn, List.range'_succ, List.find?_cons]
  cases pmpEntryMatches cfg s a i <;> rfl

end From

/-- `refinePMPRegionRange`'s privilege of a matching entry is the
reference's. -/
lemma refine_priv_eq (mode : RiscvMode) (e : PmpcfgElem) :
    (if mode ≠ .machine ∨ e.L = true then e.priv else MemPriv.RWX) = pmpEntryPriv mode e := by
  unfold pmpEntryPriv
  by_cases hm : mode = .machine <;> cases e.L <;> simp [hm]

/-! ### The loop invariant -/

/-- The invariant of the loop of `mapPMP` at `PA` after the entries `i`, ...,
`numRegs - 1`: the range contains `PA`, its low bound is a multiple of four
and its high bound three more or below four, and every address in it has,
from those entries alone, the privilege the loop records. -/
structure PmpRangeInv (s : PmpState) (mode : RiscvMode) (PA : UInt64) (i : ℕ) (r : PmpRange) :
    Prop where
  low_le : r.low ≤ PA
  le_high : PA ≤ r.high
  low_aligned : r.low.toNat % 4 = 0
  high_aligned : r.high.toNat % 4 = 3 ∨ r.high.toNat < 4
  priv_eq : ∀ a, r.low ≤ a → a ≤ r.high → pmpRefPrivFrom cfg s mode a i = r.priv

section Loop

variable {s : PmpState} {mode : RiscvMode} {PA : UInt64}

lemma pmpEntryMatches_eq_true {a : UInt64} {i : ℕ} :
    pmpEntryMatches cfg s a i = true ↔
      getPMPRegionActive cfg s (getPMPCFGElem s i) i = true ∧
        (getPMPEntryBounds cfg s i).1 ≤ a ∧ a ≤ (getPMPEntryBounds cfg s i).2 := by
  simp [pmpEntryMatches]

/-- **One entry keeps the invariant.**  A match replaces the range by the
entry's, all of which it matches; an entry above or below `PA` cuts the range
short of it; and the range does not reach any other entry, since an aligned
bound of the entry cannot meet the range's end of the other alignment. -/
lemma PmpRangeInv.refine {i : ℕ} {r : PmpRange} (hi : i < cfg.numRegs)
    (h : PmpRangeInv cfg s mode PA (i + 1) r) :
    PmpRangeInv cfg s mode PA i (refinePMPRegionRange cfg s mode PA r i) := by
  obtain ⟨hL, hH⟩ := getPMPEntryBounds_aligned cfg s i
  -- an address entry `i` does not match has the privilege of the entries after it
  have hskip : ∀ a, pmpEntryMatches cfg s a i = false →
      pmpRefPrivFrom cfg s mode a i = pmpRefPrivFrom cfg s mode a (i + 1) := fun a ha => by
    rw [pmpRefPrivFrom_of_lt cfg s mode a hi, ha, if_neg Bool.false_ne_true]
  have hskip' : ∀ a, ¬ ((getPMPEntryBounds cfg s i).1 ≤ a ∧ a ≤ (getPMPEntryBounds cfg s i).2) →
      pmpRefPrivFrom cfg s mode a i = pmpRefPrivFrom cfg s mode a (i + 1) := fun a ha =>
    hskip a (Bool.eq_false_iff.mpr fun hm => ha ((pmpEntryMatches_eq_true cfg).mp hm).2)
  have hlt := PA.toNat_lt
  obtain ⟨hlo, hhi, hloA, hhiA, hpriv⟩ := h
  simp only [UInt64.le_iff_toNat_le] at hlo hhi hpriv hskip'
  unfold refinePMPRegionRange
  dsimp only
  rw [refine_priv_eq]
  split_ifs with hact hempty hin habove hbelow
  · -- an empty `TOR` entry matches nothing
    refine ⟨hlo, hhi, hloA, hhiA, fun a ha1 ha2 => ?_⟩
    rw [hskip' a (by rw [UInt64.lt_iff_toNat_lt] at hempty; omega)]
    exact hpriv a ha1 ha2
  · -- a match: the entry's range and privilege
    refine ⟨hin.1, hin.2, hL, Or.inl hH, fun a ha1 ha2 => ?_⟩
    rw [pmpRefPrivFrom_of_lt cfg s mode a hi,
      if_pos ((pmpEntryMatches_eq_true cfg).mpr ⟨hact, ha1, ha2⟩)]
  · -- an entry above `PA`: the range ends just below it
    obtain ⟨hPA, hLh⟩ := habove
    rw [UInt64.lt_iff_toNat_lt] at hPA hLh
    have hsub : ((getPMPEntryBounds cfg s i).1 - 1).toNat = (getPMPEntryBounds cfg s i).1.toNat - 1 :=
      UInt64.toNat_sub_of_le _ _ (by rw [UInt64.le_iff_toNat_le, UInt64.toNat_one]; omega)
    refine ⟨hlo, ?_, hloA, Or.inl (UInt64.sub_one_mod_four hL), fun a ha1 ha2 => ?_⟩
    · rw [UInt64.le_iff_toNat_le, hsub]
      omega
    · rw [UInt64.le_iff_toNat_le] at ha1 ha2
      rw [hsub] at ha2
      rw [hskip' a (by omega)]
      exact hpriv a ha1 (by omega)
  · -- an entry below `PA`: the range starts just above it
    obtain ⟨hPA, hHl⟩ := hbelow
    rw [UInt64.lt_iff_toNat_lt] at hPA hHl
    have hadd : ((getPMPEntryBounds cfg s i).2 + 1).toNat = (getPMPEntryBounds cfg s i).2.toNat + 1 := by
      rw [UInt64.toNat_add, UInt64.toNat_one]
      omega
    refine ⟨?_, hhi, UInt64.add_one_mod_four hH, hhiA, fun a ha1 ha2 => ?_⟩
    · rw [UInt64.le_iff_toNat_le, hadd]
      omega
    · rw [UInt64.le_iff_toNat_le] at ha1 ha2
      rw [hadd] at ha1
      rw [hskip' a (by omega)]
      exact hpriv a (by omega) ha2
  · -- an entry the range does not reach: it would have to meet the range at
    -- one end, where the alignments differ
    refine ⟨hlo, hhi, hloA, hhiA, fun a ha1 ha2 => ?_⟩
    simp only [UInt64.le_iff_toNat_le, UInt64.lt_iff_toNat_lt, not_and, not_lt,
      not_le] at hempty hin habove hbelow ha1 ha2
    rw [hskip' a (by omega)]
    exact hpriv a ha1 ha2
  · -- an inactive entry matches nothing
    refine ⟨hlo, hhi, hloA, hhiA, fun a ha1 ha2 => ?_⟩
    rw [hskip a (Bool.eq_false_iff.mpr fun hm => hact ((pmpEntryMatches_eq_true cfg).mp hm).1)]
    exact hpriv a ha1 ha2

/-- **The loop keeps the invariant**, from the entries it starts after down
to the first. -/
lemma mapPMPLoop_inv : ∀ (i : ℕ) (r : PmpRange), i ≤ cfg.numRegs →
    PmpRangeInv cfg s mode PA i r → PmpRangeInv cfg s mode PA 0 (mapPMPLoop cfg s mode PA i r)
  | 0, _, _, h => h
  | i + 1, _, hi, h => mapPMPLoop_inv i _ (by omega) (h.refine cfg (by omega))

end Loop

/-- The top of the address space is `2 ^ j - 1` for the shift `j` the machine
takes: three more than a multiple of four, or below four. -/
lemma getAddressMask_mod_four (bits : ℕ) :
    (getAddressMask bits).toNat % 4 = 3 ∨ (getAddressMask bits).toNat < 4 := by
  unfold getAddressMask
  split_ifs
  · exact Or.inl (by decide)
  · have hj : bits.toUInt64.toNat % 64 < 64 := Nat.mod_lt _ (by norm_num)
    have hpow : ((1 : UInt64) <<< bits.toUInt64).toNat = 2 ^ (bits.toUInt64.toNat % 64) := by
      rw [UInt64.toNat_shiftLeft, UInt64.toNat_one, Nat.one_shiftLeft,
        Nat.mod_eq_of_lt (Nat.pow_lt_pow_right (by norm_num) hj)]
    have hone : (1 : UInt64) ≤ (1 : UInt64) <<< bits.toUInt64 := by
      rw [UInt64.le_iff_toNat_le, hpow, UInt64.toNat_one]
      exact Nat.one_le_two_pow
    rw [UInt64.toNat_sub_of_le _ _ hone, hpow, UInt64.toNat_one]
    generalize bits.toUInt64.toNat % 64 = j
    rcases Nat.lt_or_ge j 2 with hj2 | hj2
    · right
      interval_cases j <;> norm_num
    · -- `2 ^ j` is a multiple of four
      left
      obtain ⟨k, rfl⟩ := Nat.exists_eq_add_of_le hj2
      have hk := Nat.one_le_two_pow (n := k)
      rw [pow_add]
      omega

/-- The loop starts from the whole address space with the privilege of no
match, which holds from past the last entry. -/
lemma pmpRangeInv_init (s : PmpState) (mode : RiscvMode) {PA : UInt64}
    (hPA : PA ≤ getAddressMask cfg.extBits) :
    PmpRangeInv cfg s mode PA cfg.numRegs
      ⟨0, getAddressMask cfg.extBits, if mode = .machine then MemPriv.RWX else MemPriv.none⟩ :=
  ⟨UInt64.zero_le, hPA, rfl, getAddressMask_mod_four cfg.extBits,
    fun a _ _ => pmpRefPrivFrom_numRegs cfg s mode a⟩

/-- **The range `mapPMP` maps is exact and homogeneous**: for every address
below the top of the address space, the loop's range contains it, and every
address of the range has the reference privilege of the registers, which is
the privilege the loop records. -/
theorem mapPMP_region_exact (s : PmpState) (mode : RiscvMode) (PA : UInt64)
    (hPA : PA ≤ getAddressMask cfg.extBits) :
    let r := mapPMPLoop cfg s mode PA cfg.numRegs
      ⟨0, getAddressMask cfg.extBits, if mode = .machine then MemPriv.RWX else MemPriv.none⟩
    r.low ≤ PA ∧ PA ≤ r.high ∧ r.priv = pmpRefPriv cfg s mode PA ∧
      ∀ a, r.low ≤ a → a ≤ r.high → pmpRefPriv cfg s mode a = r.priv := by
  intro r
  have h := mapPMPLoop_inv cfg cfg.numRegs _ le_rfl (pmpRangeInv_init cfg s mode hPA)
  refine ⟨h.low_le, h.le_high, ?_, fun a ha1 ha2 => ?_⟩
  · rw [← pmpRefPrivFrom_zero, h.priv_eq PA h.low_le h.le_high]
  · rw [← pmpRefPrivFrom_zero, h.priv_eq a ha1 ha2]

/-- Machine mode at address `0x1000`, between an `NA4` entry below it and one
above it where a locked `TOR` entry up to `0x2000` starts, with a grain of one
word. -/
theorem mapPMP_region_exact_machine_tor :
    let cfg : PmpConfig := ⟨3, 0, 34, false, 64, 64, true⟩
    let s : PmpState :=
      ⟨fun i => if i = 2 then ⟨MemPriv.R, .tor, 0, true⟩ else ⟨MemPriv.RW, .na4, 0, false⟩,
        fun i => if i = 0 then 0x3F0 else if i = 1 then 0x410 else 0x800, fun _ _ _ => MemPriv.none⟩
    let r := mapPMPLoop cfg s .machine 0x1000 cfg.numRegs
      ⟨0, getAddressMask cfg.extBits, if RiscvMode.machine = .machine then MemPriv.RWX else MemPriv.none⟩
    (0x1000 : UInt64) ≤ getAddressMask cfg.extBits ∧
      r.low ≤ 0x1000 ∧ 0x1000 ≤ r.high ∧ r.priv = pmpRefPriv cfg s .machine 0x1000 ∧
      ∀ a, r.low ≤ a → a ≤ r.high → pmpRefPriv cfg s .machine a = r.priv :=
  ⟨by decide, mapPMP_region_exact _ _ _ _ (by decide)⟩

end RiscvOvpsim
