import RiscvOvpsim.Vm.Translate
import RiscvOvpsim.Lib.Bits

/-!
The TLB miss handler of `riscvVM.c` on an access to a virtually mapped
domain.  `riscvVMMiss` walks the access `[address, address + bytes - 1]`,
which may wrap past the top of the address space; each pass of its do-while
loop maps, through `tlbMiss` and `mapTLBEntry`, the entry the lookup finds
for the first address not yet mapped, until a range reaches the last byte.

* `mapTLBEntry_range`: for an entry of `2 ^ p` bytes naturally aligned
  around the queried address, the range mapped is the naturally aligned
  block of `2 ^ min p 32` bytes around it;
* `mapTLBEntry_sound`: that range lies inside the entry, spans at most
  4 GiB, and is aliased at the entry's VA-to-PA offset;
* `vmMissPass`: one pass, read on the access counted without wrapping: the
  range covers the bytes from the query to the end of its block, a 4 KiB
  boundary, and the loop's exit test holds exactly when the range reaches
  the last byte; `vmMissLoop_succ_spec` is that pass as a step of the loop;
* `vmMissLoop_isSome`, `vmMissLoop_sound`, `vmMissLoop_covers`: the loop
  ends within the pages left, every mapping it makes is sound, and an exit
  without a miss has mapped every byte left, for a lookup that returns such
  entries from the states of an invariant it keeps;
* `riscvVMMiss_maps_access`: the handler on a whole access; `Vm.Tlb`
  instantiates it with the lookup of the TLB (`riscvVMMiss_maps_access_tlb`).
-/

namespace RiscvOvpsim

/-! ### The miss handler -/

/-- `tlbMapInfo`: the virtual range a pass asks for, and after `mapTLBEntry`
the range it mapped. -/
structure TlbMapInfo where
  lowVA : UInt64
  highVA : UInt64
  deriving DecidableEq, Repr

/-- The range holds the address; both bounds are inclusive. -/
def TlbMapInfo.Contains (mi : TlbMapInfo) (va : UInt64) : Prop :=
  mi.lowVA ≤ va ∧ va ≤ mi.highVA

instance (mi : TlbMapInfo) (va : UInt64) : Decidable (mi.Contains va) :=
  inferInstanceAs (Decidable (_ ∧ _))

/-- The call `vmirtAliasMemoryVM(domainP, domainV, lowPA, highPA, lowVA, ...)`:
the physical range `[lowPA, highPA]` appears in the virtual domain at
`lowVA`. -/
structure VmAlias where
  lowPA : UInt64
  highPA : UInt64
  lowVA : UInt64
  deriving DecidableEq, Repr

/-- A pass that found an entry: the entry, the range mapped and the alias
made. -/
structure TlbMapping where
  entry : TlbEntry
  range : TlbMapInfo
  vmAlias : VmAlias
  deriving DecidableEq, Repr

/-- `getEntryHighPA`. -/
def getEntryHighPA (entry : TlbEntry) : UInt64 := entry.PA + entry.highVA - entry.lowVA

/-- The largest mapping the simulator makes, 4 GiB. -/
def vmiPageMax : UInt64 := 0x100000000

/-- `mapTLBEntry`: alias the entry in the virtual domain, restricted to the
`vmiPageMax` block around the queried address `mi.lowVA` when it is larger,
and return the range mapped.  The PMP and PMA updates for the access are not
modelled. -/
def mapTLBEntry (entry : TlbEntry) (mi : TlbMapInfo) : TlbMapInfo × VmAlias :=
  let lowPA := entry.PA
  let highPA := getEntryHighPA entry
  let size := highPA - lowPA + 1
  let VAtoPA := lowPA - entry.lowVA
  if size > vmiPageMax then
    -- restrict mapping size to VMI maximum (4Gb)
    let lowVA := mi.lowVA &&& -vmiPageMax
    let lowPA := lowVA + VAtoPA
    (⟨lowVA, lowVA + vmiPageMax - 1⟩, ⟨lowPA, lowPA + vmiPageMax - 1, lowVA⟩)
  else
    (⟨entry.lowVA, entry.lowVA + size - 1⟩, ⟨lowPA, highPA, entry.lowVA⟩)

variable {σ : Type*}

/-- `tlbMiss`: map the entry that `findOrCreateTLBEntry` (the parameter
`find`, over the TLB state `σ`) returns for `mi.lowVA`; no entry is a
miss. -/
def tlbMiss (find : σ → UInt64 → Option TlbEntry × σ) (s : σ) (mi : TlbMapInfo) :
    Option TlbMapping × σ :=
  match find s mi.lowVA with
  | (none, s') => (none, s')
  | (some entry, s') =>
    let mapped := mapTLBEntry entry mi
    (some ⟨entry, mapped.1, mapped.2⟩, s')

/-- The do-while loop of `riscvVMMiss`, from the range mapped last (its
`highVA`) and with at most `fuel` passes: `none` when the fuel runs out,
else whether the last pass missed, with the mappings made in order. -/
def vmMissLoop (find : σ → UInt64 → Option TlbEntry × σ) (lastVA : UInt64) :
    ℕ → σ → UInt64 → Option (Bool × List TlbMapping)
  | 0, _, _ => none
  | fuel + 1, s, highVA =>
    match tlbMiss find s ⟨highVA + 1, lastVA⟩ with
    | (none, _) => some (true, [])
    | (some m, s') =>
      if lastVA < m.range.lowVA || lastVA > m.range.highVA then
        (vmMissLoop find lastVA fuel s' m.range.highVA).map fun r => (r.1, m :: r.2)
      else some (false, [m])

/-- `riscvVMMiss` on a virtually mapped domain, with at most `fuel`
passes. -/
def riscvVMMiss (find : σ → UInt64 → Option TlbEntry × σ) (s : σ) (address : UInt64)
    (bytes : UInt32) (fuel : ℕ) : Option (Bool × List TlbMapping) :=
  let lastVA := address + bytes.toUInt64 - 1
  -- the first pass asks for `mi.highVA + 1`, which is `address`
  vmMissLoop find lastVA fuel s (address - 1)

/-- The 4 KiB pages the access touches, counted on past the top of the
address space. -/
def pagesTouched (address : UInt64) (bytes : UInt32) : ℕ :=
  (address.toNat + bytes.toNat - 1) / 4096 - address.toNat / 4096 + 1

/-! ### What a lookup gives and what a mapping must be -/

/-- An entry of `2 ^ p` bytes, at least a 4 KiB page, naturally aligned and
holding `va`: what `findOrCreateTLBEntry` is taken to return for `va`. -/
structure TlbEntry.CoversAligned (e : TlbEntry) (va : UInt64) (p : ℕ) : Prop where
  page_le : 12 ≤ p
  aligned : e.lowVA.toNat % 2 ^ p = 0
  highVA_eq : e.highVA.toNat = e.lowVA.toNat + 2 ^ p - 1
  lowVA_le : e.lowVA ≤ va
  le_highVA : va ≤ e.highVA

/-- A mapping made from an entry: its range lies inside the entry and spans
at most 4 GiB, and the alias maps both ends at the entry's VA-to-PA
offset. -/
structure TlbMapping.Sound (m : TlbMapping) : Prop where
  inside : m.entry.lowVA ≤ m.range.lowVA ∧ m.range.highVA ≤ m.entry.highVA
  ordered : m.range.lowVA ≤ m.range.highVA
  span_lt : m.range.highVA.toNat - m.range.lowVA.toNat < 2 ^ 32
  alias_lowVA : m.vmAlias.lowVA = m.range.lowVA
  alias_lowPA : m.vmAlias.lowPA = m.range.lowVA + (m.entry.PA - m.entry.lowVA)
  alias_highPA : m.vmAlias.highPA = m.range.highVA + (m.entry.PA - m.entry.lowVA)

/-! ### One pass -/

section Pass

variable {e : TlbEntry} {mi : TlbMapInfo} {p : ℕ}

lemma neg_vmiPageMax : -vmiPageMax = 0 - UInt64.ofNat (2 ^ 32) := by decide

lemma toNat_vmiPageMax : vmiPageMax.toNat = 2 ^ 32 := rfl

/-- The alias maps both ends of the range at the entry's VA-to-PA offset,
for every entry. -/
lemma mapTLBEntry_vmAlias (e : TlbEntry) (mi : TlbMapInfo) :
    (mapTLBEntry e mi).2 =
      ⟨(mapTLBEntry e mi).1.lowVA + (e.PA - e.lowVA),
        (mapTLBEntry e mi).1.highVA + (e.PA - e.lowVA), (mapTLBEntry e mi).1.lowVA⟩ := by
  by_cases h : getEntryHighPA e - e.PA + 1 > vmiPageMax
  · simp only [mapTLBEntry, if_pos h, VmAlias.mk.injEq, and_true, true_and]
    grind
  · simp only [mapTLBEntry, if_neg h, VmAlias.mk.injEq, and_true]
    unfold getEntryHighPA
    constructor <;> grind

/-- The entry holds `2 ^ p` bytes, so `size` is `2 ^ p`. -/
lemma toNat_entrySize (he : e.CoversAligned mi.lowVA p) (hp : p < 64) :
    (getEntryHighPA e - e.PA + 1).toNat = 2 ^ p := by
  have hpow : 2 ^ p ≤ 2 ^ 63 := Nat.pow_le_pow_right (by norm_num) (by omega)
  have hone : 1 ≤ 2 ^ p := Nat.one_le_two_pow
  have hsub : getEntryHighPA e - e.PA = e.highVA - e.lowVA := by
    unfold getEntryHighPA
    grind
  have hle : e.lowVA ≤ e.highVA := UInt64.le_trans he.lowVA_le he.le_highVA
  rw [hsub, UInt64.toNat_add, UInt64.toNat_sub_of_le _ _ hle, UInt64.toNat_one, he.highVA_eq]
  omega

/-- The entry is the aligned block of `2 ^ p` bytes around the address it
holds. -/
lemma TlbEntry.CoversAligned.lowVA_eq {va : UInt64} (he : e.CoversAligned va p) :
    e.lowVA.toNat = va.toNat / 2 ^ p * 2 ^ p := by
  have hle := UInt64.le_iff_toNat_le.mp he.lowVA_le
  have hhi := UInt64.le_iff_toNat_le.mp he.le_highVA
  have hone : 1 ≤ 2 ^ p := Nat.one_le_two_pow
  rw [he.highVA_eq] at hhi
  exact Nat.eq_div_two_pow_mul_of_mod he.aligned hle (by omega)

/-- The range mapped is the naturally aligned block of `2 ^ min p 32` bytes
around the queried address. -/
lemma mapTLBEntry_range (he : e.CoversAligned mi.lowVA p) (hp : p < 64) :
    (mapTLBEntry e mi).1.lowVA.toNat = mi.lowVA.toNat / 2 ^ min p 32 * 2 ^ min p 32 ∧
      (mapTLBEntry e mi).1.highVA.toNat = (mapTLBEntry e mi).1.lowVA.toNat + 2 ^ min p 32 - 1 := by
  have hsize := toNat_entrySize he hp
  by_cases hp32 : p ≤ 32
  · -- the entry fits, and is mapped whole
    have hle : ¬ getEntryHighPA e - e.PA + 1 > vmiPageMax := by
      rw [gt_iff_lt, UInt64.lt_iff_toNat_lt, hsize, toNat_vmiPageMax, not_lt]
      exact Nat.pow_le_pow_right (by norm_num) hp32
    have hhigh := he.highVA_eq
    have hpos : 0 < 2 ^ p := Nat.two_pow_pos p
    have hlt := e.highVA.toNat_lt
    simp only [mapTLBEntry, if_neg hle, min_eq_left hp32]
    refine ⟨he.lowVA_eq, ?_⟩
    rw [UInt64.toNat_sub, UInt64.toNat_add, hsize, UInt64.toNat_one]
    -- the entry may end at the top of the address space, where the sum wraps to zero
    omega
  · -- the 4 GiB block around the queried address
    have hgt : getEntryHighPA e - e.PA + 1 > vmiPageMax := by
      rw [gt_iff_lt, UInt64.lt_iff_toNat_lt, hsize, toNat_vmiPageMax]
      exact Nat.pow_lt_pow_right (by norm_num) (by omega)
    have hlow : (mi.lowVA &&& -vmiPageMax).toNat = mi.lowVA.toNat / 2 ^ 32 * 2 ^ 32 := by
      rw [neg_vmiPageMax, UInt64.toNat_and_neg_two_pow _ (by norm_num)]
    have hend := Nat.div_two_pow_mul_add_two_pow_le mi.lowVA.toNat_lt (show 32 ≤ 64 by norm_num)
    simp only [mapTLBEntry, if_pos hgt, min_eq_right (show 32 ≤ p by omega)]
    refine ⟨hlow, ?_⟩
    rw [UInt64.toNat_sub, UInt64.toNat_add, hlow, toNat_vmiPageMax, UInt64.toNat_one]
    omega

/-- Every mapping made from an entry of the kind the loop assumes is
sound. -/
lemma mapTLBEntry_sound (he : e.CoversAligned mi.lowVA p) (hp : p < 64) :
    TlbMapping.Sound ⟨e, (mapTLBEntry e mi).1, (mapTLBEntry e mi).2⟩ := by
  obtain ⟨hlow, hhigh⟩ := mapTLBEntry_range he hp
  have hq : min p 32 ≤ p := min_le_left p 32
  have hpos : 0 < 2 ^ min p 32 := Nat.two_pow_pos _
  have hQ : 2 ^ min p 32 ≤ 2 ^ 32 := Nat.pow_le_pow_right (by norm_num) (min_le_right p 32)
  -- the block of `2 ^ min p 32` bytes lies in the entry's block of `2 ^ p`
  have hstart := Nat.div_two_pow_mul_le_of_le (x := mi.lowVA.toNat) hq
  have hend := Nat.div_two_pow_mul_add_le_of_le (x := mi.lowVA.toNat) hq
  have helow := he.lowVA_eq
  have hehigh := he.highVA_eq
  refine ⟨⟨?_, ?_⟩, ?_, ?_, ?_, ?_, ?_⟩
  · rw [UInt64.le_iff_toNat_le, hlow, helow]
    exact hstart
  · rw [UInt64.le_iff_toNat_le, hhigh, hlow, hehigh, helow]
    omega
  · dsimp only
    rw [UInt64.le_iff_toNat_le, hhigh]
    omega
  · dsimp only
    rw [hhigh]
    omega
  all_goals
    dsimp only
    rw [mapTLBEntry_vmAlias]

/-- One pass, on the access counted without wrapping: with the query `va` at
position `u` of the access and its last byte at position `L`, each read
modulo `2 ^ 64`, the range `r` mapped holds the positions `[u, u')`, the
next query is at `u'`, past `u` on a 4 KiB boundary, and the exit test of
the loop holds exactly when `L < u'`. -/
lemma vmMissPass {va lastVA : UInt64} {u L : ℕ} (he : e.CoversAligned va p) (hp : p < 64)
    (hva : va.toNat = u % 2 ^ 64) (hlast : lastVA.toNat = L % 2 ^ 64) (huL : u ≤ L)
    (hL : L < u + 2 ^ 32) {r : TlbMapInfo} (hr : r = (mapTLBEntry e ⟨va, lastVA⟩).1) :
    ∃ u', u < u' ∧ u' % 4096 = 0 ∧ (r.highVA + 1).toNat = u' % 2 ^ 64 ∧
      ((lastVA < r.lowVA || lastVA > r.highVA) = false ↔ L < u') ∧
      ∀ x, u ≤ x → x < u' → r.Contains (UInt64.ofNat x) := by
  obtain ⟨hlow, hhigh⟩ := @mapTLBEntry_range e ⟨va, lastVA⟩ p he hp
  rw [← hr] at hlow hhigh
  -- the block is of `2 ^ q` bytes, `q = min p 32`, between a page and 4 GiB
  have hq12 : 12 ≤ min p 32 := le_min he.page_le (by norm_num)
  have hpage : 4096 ∣ 2 ^ min p 32 := by
    rw [show 4096 = 2 ^ 12 by norm_num]
    exact Nat.pow_dvd_pow 2 hq12
  have hQ : 2 ^ min p 32 ≤ 2 ^ 32 := Nat.pow_le_pow_right (by norm_num) (min_le_right p 32)
  have hpos : 0 < 2 ^ min p 32 := Nat.two_pow_pos _
  have hQ4 : 2 ^ min p 32 % 4096 = 0 := Nat.mod_eq_zero_of_dvd hpage
  have hlo4 : r.lowVA.toNat % 4096 = 0 := by
    rw [hlow]
    exact Nat.mod_eq_zero_of_dvd (Dvd.dvd.mul_left hpage _)
  have hle : r.lowVA.toNat ≤ va.toNat := by
    rw [hlow]
    exact Nat.div_mul_le_self _ _
  have hlt : va.toNat < r.lowVA.toNat + 2 ^ min p 32 := by
    rw [hlow]
    exact Nat.lt_div_mul_add hpos
  have hhi := r.highVA.toNat_lt
  refine ⟨u + (r.highVA.toNat - va.toNat) + 1, by omega, by omega, ?_, ?_, ?_⟩
  · rw [UInt64.toNat_add, UInt64.toNat_one]
    omega
  · -- the access ends inside the block, or past it (then, wrapped, below it)
    simp only [Bool.or_eq_false_iff, decide_eq_false_iff_not, gt_iff_lt, UInt64.lt_iff_toNat_lt]
    omega
  · intro x hx hx'
    simp only [TlbMapInfo.Contains, UInt64.le_iff_toNat_le, UInt64.toNat_ofNat']
    omega

end Pass

/-! ### The loop -/

section Loop

variable (find : σ → UInt64 → Option TlbEntry × σ) {lastVA : UInt64}

/-- A pass whose lookup finds no entry ends the loop with a miss. -/
lemma vmMissLoop_succ_of_none {fuel : ℕ} {s s' : σ} {highVA : UInt64}
    (h : find s (highVA + 1) = (none, s')) :
    vmMissLoop find lastVA (fuel + 1) s highVA = some (true, []) := by
  simp only [vmMissLoop, tlbMiss, h]

/-- A pass whose lookup finds `e` maps it, then stops, or goes on from the
range mapped when that misses the last byte. -/
lemma vmMissLoop_succ_of_some {fuel : ℕ} {s s' : σ} {highVA : UInt64} {e : TlbEntry}
    (h : find s (highVA + 1) = (some e, s')) :
    vmMissLoop find lastVA (fuel + 1) s highVA =
      let m : TlbMapping := ⟨e, (mapTLBEntry e ⟨highVA + 1, lastVA⟩).1,
        (mapTLBEntry e ⟨highVA + 1, lastVA⟩).2⟩
      if lastVA < m.range.lowVA || lastVA > m.range.highVA then
        (vmMissLoop find lastVA fuel s' m.range.highVA).map fun r => (r.1, m :: r.2)
      else some (false, [m]) := by
  simp only [vmMissLoop, tlbMiss, h]

variable {find} {I : σ → Prop} {P : UInt64 → Prop}
  (hI : ∀ s va r s', I s → find s va = (r, s') → I s')
  (hfind : ∀ s va e s', I s → P va → find s va = (some e, s') → ∃ p < 64, e.CoversAligned va p)
include hI hfind

/-- One pass of the loop from position `u`, from a state of the invariant
`I` and with every position left an address `P` holds of: a miss, or a sound
mapping `m` whose range holds the positions `[u, u')`, after which the loop
stops when the last byte `L` lies below `u'`, and otherwise goes on from
`u'`, on a later page, from a state of `I`. -/
lemma vmMissLoop_succ_spec {L u fuel : ℕ} {s : σ} {highVA : UInt64} (hs : I s)
    (hlast : lastVA.toNat = L % 2 ^ 64) (hu : (highVA + 1).toNat = u % 2 ^ 64) (huL : u ≤ L)
    (hL : L < u + 2 ^ 32) (hP : ∀ x, u ≤ x → x ≤ L → P (UInt64.ofNat x)) :
    vmMissLoop find lastVA (fuel + 1) s highVA = some (true, []) ∨
      ∃ (m : TlbMapping) (s' : σ) (u' : ℕ), I s' ∧ m.Sound ∧ u < u' ∧ u' % 4096 = 0 ∧
        (m.range.highVA + 1).toNat = u' % 2 ^ 64 ∧
        (∀ x, u ≤ x → x < u' → m.range.Contains (UInt64.ofNat x)) ∧
        (L < u' ∧ vmMissLoop find lastVA (fuel + 1) s highVA = some (false, [m]) ∨
          u' ≤ L ∧ vmMissLoop find lastVA (fuel + 1) s highVA =
            (vmMissLoop find lastVA fuel s' m.range.highVA).map fun r => (r.1, m :: r.2)) := by
  rcases hf : find s (highVA + 1) with ⟨_ | e, s'⟩
  · exact .inl (vmMissLoop_succ_of_none find hf)
  · -- the query is the address at position `u`
    have hq : highVA + 1 = UInt64.ofNat u := by
      apply UInt64.toNat_inj.mp
      rw [hu, UInt64.toNat_ofNat']
    obtain ⟨p, hp, he⟩ := hfind _ _ _ _ hs (hq ▸ hP u le_rfl huL) hf
    obtain ⟨u', hlt, hpage, hnext, hexit, hcov⟩ := vmMissPass he hp hu hlast huL hL rfl
    refine .inr ⟨⟨e, (mapTLBEntry e ⟨highVA + 1, lastVA⟩).1,
      (mapTLBEntry e ⟨highVA + 1, lastVA⟩).2⟩, s', u', hI _ _ _ _ hs hf,
      @mapTLBEntry_sound e ⟨highVA + 1, lastVA⟩ p he hp, hlt, hpage, hnext, hcov, ?_⟩
    rw [vmMissLoop_succ_of_some find hf]
    dsimp only
    -- the exit test of the source is `L < u'` on the positions
    by_cases hLu : L < u'
    · exact .inl ⟨hLu, by rw [if_neg (by simp [hexit.mpr hLu])]⟩
    · exact .inr ⟨by omega, by rw [if_pos (Bool.eq_true_of_not_eq_false (mt hexit.mp hLu))]⟩

/-- The loop ends without running out of fuel when the fuel covers the pages
left, from the next query at position `u` to the last byte at `L`. -/
theorem vmMissLoop_isSome {L : ℕ} (hlast : lastVA.toNat = L % 2 ^ 64) (fuel : ℕ) :
    ∀ (s : σ) (highVA : UInt64) (u : ℕ), I s → (highVA + 1).toNat = u % 2 ^ 64 → u ≤ L →
      L < u + 2 ^ 32 → (∀ x, u ≤ x → x ≤ L → P (UInt64.ofNat x)) →
      L / 4096 - u / 4096 + 1 ≤ fuel → (vmMissLoop find lastVA fuel s highVA).isSome := by
  -- on the fuel; each pass that goes on moves the query to a later page
  induction fuel with
  | zero =>
    intro s highVA u _ _ _ _ _ hfuel
    omega
  | succ fuel ih =>
    intro s highVA u hs hu huL hL hP hfuel
    rcases vmMissLoop_succ_spec hI hfind hs hlast hu huL hL hP with
      h | ⟨m, s', u', hs', -, hlt, hpage, hnext, -, ⟨-, h⟩ | ⟨hu', h⟩⟩
    · rw [h]
      rfl
    · rw [h]
      rfl
    · rw [h, Option.isSome_map]
      exact ih s' _ u' hs' hnext hu' (by omega) (fun x hx hxL => hP x (by omega) hxL) (by omega)

/-- Every mapping the loop makes is sound. -/
theorem vmMissLoop_sound {L : ℕ} (hlast : lastVA.toNat = L % 2 ^ 64) (fuel : ℕ) :
    ∀ (s : σ) (highVA : UInt64) (u : ℕ), I s → (highVA + 1).toNat = u % 2 ^ 64 → u ≤ L →
      L < u + 2 ^ 32 → (∀ x, u ≤ x → x ≤ L → P (UInt64.ofNat x)) → ∀ {miss maps},
      vmMissLoop find lastVA fuel s highVA = some (miss, maps) → ∀ m ∈ maps, m.Sound := by
  induction fuel with
  | zero =>
    intro s highVA u _ _ _ _ _ miss maps h
    simp [vmMissLoop] at h
  | succ fuel ih =>
    intro s highVA u hs hu huL hL hP miss maps h
    rcases vmMissLoop_succ_spec hI hfind hs hlast hu huL hL hP with
      h' | ⟨m, s', u', hs', hm, hlt, -, hnext, -, ⟨-, h'⟩ | ⟨hu', h'⟩⟩ <;> rw [h'] at h
    · cases h
      simp
    · cases h
      intro m' hmem
      rw [List.mem_singleton.mp hmem]
      exact hm
    · -- this pass's mapping, then those of the passes after it
      obtain ⟨⟨miss', rest⟩, hrest, heq⟩ := Option.map_eq_some_iff.mp h
      cases heq
      intro m' hmem
      rcases List.mem_cons.mp hmem with rfl | hin
      · exact hm
      · exact ih s' _ u' hs' hnext hu' (by omega) (fun x hx hxL => hP x (by omega) hxL) hrest m' hin

/-- An exit without a miss has mapped every position left, from the next
query at `u` to the last byte at `L`. -/
theorem vmMissLoop_covers {L : ℕ} (hlast : lastVA.toNat = L % 2 ^ 64) (fuel : ℕ) :
    ∀ (s : σ) (highVA : UInt64) (u : ℕ), I s → (highVA + 1).toNat = u % 2 ^ 64 → u ≤ L →
      L < u + 2 ^ 32 → (∀ x, u ≤ x → x ≤ L → P (UInt64.ofNat x)) → ∀ {maps : List TlbMapping},
      vmMissLoop find lastVA fuel s highVA = some (false, maps) →
      ∀ x, u ≤ x → x ≤ L → ∃ m ∈ maps, m.range.Contains (UInt64.ofNat x) := by
  induction fuel with
  | zero =>
    intro s highVA u _ _ _ _ _ maps h
    simp [vmMissLoop] at h
  | succ fuel ih =>
    intro s highVA u hs hu huL hL hP maps h x hx hxL
    rcases vmMissLoop_succ_spec hI hfind hs hlast hu huL hL hP with
      h' | ⟨m, s', u', hs', -, hlt, -, hnext, hcov, ⟨hLu, h'⟩ | ⟨hu', h'⟩⟩ <;> rw [h'] at h
    · simp at h
    · -- the last pass reached the last byte
      cases h
      exact ⟨m, List.mem_singleton_self _, hcov x hx (by omega)⟩
    · -- the loop went on from `u'`: `x` is in this pass's range or in a later one
      obtain ⟨⟨miss', rest⟩, hrest, heq⟩ := Option.map_eq_some_iff.mp h
      cases heq
      by_cases hxu : x < u'
      · exact ⟨m, List.mem_cons_self, hcov x hx hxu⟩
      · obtain ⟨m', hm', hc⟩ := ih s' _ u' hs' hnext hu' (by omega)
          (fun y hy hyL => hP y (by omega) hyL) hrest x (by omega) hxL
        exact ⟨m', List.mem_cons_of_mem _ hm', hc⟩

end Loop

/-! ### The entries of the page table walk -/

/-- An entry that is the aligned block of `2 ^ k` bytes around `va`, at
least a page, is of the kind the loop assumes. -/
lemma TlbEntry.coversAligned_of_block {e : TlbEntry} {va : UInt64} {k : ℕ} (hk : 12 ≤ k)
    (hlow : e.lowVA.toNat = va.toNat / 2 ^ k * 2 ^ k)
    (hhigh : e.highVA.toNat = e.lowVA.toNat + 2 ^ k - 1) : e.CoversAligned va k := by
  have hpos := Nat.two_pow_pos k
  have hle := Nat.div_mul_le_self va.toNat (2 ^ k)
  have hlt := Nat.lt_div_mul_add (a := va.toNat) hpos
  refine ⟨hk, ?_, hhigh, ?_, ?_⟩
  · rw [hlow]
    exact Nat.mul_mod_left _ _
  · rw [UInt64.le_iff_toNat_le, hlow]
    exact hle
  · rw [UInt64.le_iff_toNat_le, hhigh, hlow]
    omega

/-! ### The miss handler on an access -/

/-- The last byte of the access, counted without wrapping. -/
lemma toNat_lastVA (address : UInt64) {bytes : UInt32} (hbytes : 0 < bytes.toNat) :
    (address + bytes.toUInt64 - 1).toNat = (address.toNat + bytes.toNat - 1) % 2 ^ 64 := by
  rw [UInt64.toNat_sub, UInt64.toNat_add, UInt32.toNat_toUInt64, UInt64.toNat_one]
  omega

/-- The byte at position `address + i` of the access, read modulo `2 ^ 64`. -/
lemma ofNat_add_eq (address : UInt64) (i : ℕ) :
    UInt64.ofNat (address.toNat + i) = address + UInt64.ofNat i := by
  apply UInt64.toNat_inj.mp
  rw [UInt64.toNat_add, UInt64.toNat_ofNat', UInt64.toNat_ofNat']
  omega

/-- **The miss handler maps the access.**  When the lookup, from the states
of an invariant `I` that it keeps, returns for every byte address of the
access that `P` holds of a naturally aligned entry of `2 ^ p` bytes with
`12 ≤ p < 64` holding it, the loop of `riscvVMMiss` ends within as many
passes as the access touches 4 KiB pages (counted past the top of the
address space), every mapping it makes is sound (`TlbMapping.Sound`), and
when it ends without a miss the ranges mapped hold every byte of the
access. -/
theorem riscvVMMiss_maps_access (find : σ → UInt64 → Option TlbEntry × σ) {I : σ → Prop}
    {P : UInt64 → Prop} (hI : ∀ s va r s', I s → find s va = (r, s') → I s')
    (hfind : ∀ s va e s', I s → P va → find s va = (some e, s') → ∃ p < 64, e.CoversAligned va p)
    {s : σ} (hs : I s) (address : UInt64) (bytes : UInt32) (hbytes : 0 < bytes.toNat)
    (hP : ∀ i < bytes.toNat, P (address + UInt64.ofNat i)) :
    (riscvVMMiss find s address bytes (pagesTouched address bytes)).isSome ∧
      ∀ fuel miss maps, riscvVMMiss find s address bytes fuel = some (miss, maps) →
        (∀ m ∈ maps, m.Sound) ∧
        (miss = false → ∀ i < bytes.toNat,
          ∃ m ∈ maps, m.range.Contains (address + UInt64.ofNat i)) := by
  -- the positions of the access run from `address.toNat` to `address.toNat + bytes - 1`
  have hlast := toNat_lastVA address hbytes
  have hfirst : (address - 1 + 1).toNat = address.toNat % 2 ^ 64 := by
    rw [UInt64.sub_add_cancel, Nat.mod_eq_of_lt address.toNat_lt]
  have hn := bytes.toNat_lt
  have hPx : ∀ x, address.toNat ≤ x → x ≤ address.toNat + bytes.toNat - 1 →
      P (UInt64.ofNat x) := by
    intro x hx hxL
    have h := hP (x - address.toNat) (by omega)
    rwa [← ofNat_add_eq, Nat.add_sub_cancel' hx] at h
  refine ⟨vmMissLoop_isSome hI hfind hlast _ s _ _ hs hfirst (by omega) (by omega) hPx le_rfl, ?_⟩
  intro fuel miss maps h
  refine ⟨vmMissLoop_sound hI hfind hlast fuel s _ _ hs hfirst (by omega) (by omega) hPx h, ?_⟩
  rintro rfl i hi
  obtain ⟨m, hm, hc⟩ := vmMissLoop_covers hI hfind hlast fuel s _ _ hs hfirst (by omega) (by omega)
    hPx h (address.toNat + i) (by omega) (by omega)
  rw [ofNat_add_eq] at hc
  exact ⟨m, hm, hc⟩

end RiscvOvpsim
