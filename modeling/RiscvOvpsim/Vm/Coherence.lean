import RiscvOvpsim.Vm.Tlb

/-!
The TLB of `riscvVM.c` against the page tables it caches.  In one address
space, with the page tables changed only by the walks' own A/D updates,
every entry the TLB serves is what a walk of the current page tables gives:
the TLB refines the walk.

The invariant is `TlbCoherent`: every entry a lookup may serve, one not made
by an artifact access and matching the active ASID, satisfies `EntryWalks`.
That says that for every address the entry holds, the walk reaches a leaf
(`WalkLeaf`) whose PTE fills the entry up to `A` and `D`, has `A` set, and
has `D` set when the entry has.

* `tlbLookup_ok_walkLeaf`: what a walk that succeeds does, in full: its
  leaf, the PTE its A/D update leaves (`PteUpdate`), the entry of that PTE
  and the write of it;
* `tlbLookup_of_walkLeaf`: from a leaf with `A` set the walk returns the
  leaf's entry and writes nothing;
* `tlbLookup_rewalk`: a walk is idempotent: after its own write, the walk
  of any address of the page it filled returns the same entry and writes
  nothing;
* `entryWalks_of_tlbLookup`, `EntryWalks.applyPTEWrite`: the entry of a walk
  is coherent in the memory its own write leaves, and that write keeps every
  other entry coherent (`ptwLoop_writePageTableEntry`);
* `tlbMissLookup_mem`: the lookup writes the page tables only to set `A`
  and `D` of the leaf PTE it read, and an artifact access never writes them;
* `vmStep_coherent`, `run_tlbCoherent`: every access in the address space,
  whatever its other context, and every `sfence.vma` keep the invariant;
* `tlbMissLookup_refines_walk`: so after any run of them from the empty
  TLB, the lookup of `tlbMiss` serves what the walk of the current page
  tables gives.
-/

namespace RiscvOvpsim

/-! ### The A/D update of a PTE -/

/-- `PTE'` is `PTE` after an A/D update: the same bits but `A` and `D`,
which may only be set. -/
structure PteUpdate (PTE PTE' : UInt64) : Prop where
  testBit_eq : ∀ j, j ≠ 6 → j ≠ 7 → PTE'.toNat.testBit j = PTE.toNat.testBit j
  A_mono : pteA PTE = true → pteA PTE' = true
  D_mono : pteD PTE = true → pteD PTE' = true

namespace PteUpdate

lemma refl (PTE : UInt64) : PteUpdate PTE PTE := ⟨fun _ _ _ => rfl, id, id⟩

lemma trans {P₁ P₂ P₃ : UInt64} (h₁ : PteUpdate P₁ P₂) (h₂ : PteUpdate P₂ P₃) :
    PteUpdate P₁ P₃ :=
  ⟨fun j h6 h7 => (h₂.testBit_eq j h6 h7).trans (h₁.testBit_eq j h6 h7),
    h₂.A_mono ∘ h₁.A_mono, h₂.D_mono ∘ h₁.D_mono⟩

variable {PTE PTE' : UInt64} (h : PteUpdate PTE PTE')
include h

lemma pteV_eq : pteV PTE' = pteV PTE := h.testBit_eq 0 (by decide) (by decide)

lemma ptePriv_eq : ptePriv PTE' = ptePriv PTE := by
  simp only [ptePriv, MemPriv.ofBits, Nat.testBit_div_two]
  rw [h.testBit_eq 1 (by decide) (by decide), h.testBit_eq 2 (by decide) (by decide),
    h.testBit_eq 3 (by decide) (by decide)]

lemma pteU_eq : pteU PTE' = pteU PTE := h.testBit_eq 4 (by decide) (by decide)

lemma pteG_eq : pteG PTE' = pteG PTE := h.testBit_eq 5 (by decide) (by decide)

lemma ptePPN_eq (sv : SvMode) : ptePPN sv PTE' = ptePPN sv PTE := by
  unfold ptePPN
  congr 1
  apply Nat.eq_of_testBit_eq
  intro j
  simp only [Nat.testBit_mod_two_pow, Nat.testBit_div_two_pow]
  rw [h.testBit_eq (j + 10) (by omega) (by omega)]

/-- An update keeps a four-byte PTE within four bytes. -/
lemma toNat_lt (hlt : PTE.toNat < 2 ^ 32) : PTE'.toNat < 2 ^ 32 := by
  apply Nat.lt_pow_two_of_testBit
  intro j hj
  rw [h.testBit_eq j (by omega) (by omega)]
  exact Nat.testBit_eq_false_of_lt (lt_of_lt_of_le hlt (Nat.pow_le_pow_right (by norm_num) hj))

/-- The entry of an updated PTE differs only in `A` and `D`. -/
lemma fillEntry_eq (sv : SvMode) (ctx : PtwContext) (VA : UInt64) (i : ℕ) :
    fillEntry sv ctx VA i PTE' =
      { fillEntry sv ctx VA i PTE with A := pteA PTE', D := pteD PTE' } := by
  simp only [fillEntry, h.ptePPN_eq, h.ptePriv_eq, h.pteU_eq, h.pteG_eq]

end PteUpdate

lemma testBit_toNat_pteSetA (PTE : UInt64) (j : ℕ) :
    (pteSetA PTE).toNat.testBit j = (PTE.toNat.testBit j || decide (j = 6)) := by
  rw [pteSetA, UInt64.toNat_or, show (0x40 : UInt64).toNat = 2 ^ 6 from rfl, Nat.testBit_or,
    Nat.testBit_two_pow]
  simp [eq_comm]

lemma testBit_toNat_pteSetD (PTE : UInt64) (j : ℕ) :
    (pteSetD PTE).toNat.testBit j = (PTE.toNat.testBit j || decide (j = 7)) := by
  rw [pteSetD, UInt64.toNat_or, show (0x80 : UInt64).toNat = 2 ^ 7 from rfl, Nat.testBit_or,
    Nat.testBit_two_pow]
  simp [eq_comm]

lemma pteA_pteSetA (PTE : UInt64) : pteA (pteSetA PTE) = true := by
  simp [pteA, testBit_toNat_pteSetA]

lemma pteD_pteSetD (PTE : UInt64) : pteD (pteSetD PTE) = true := by
  simp [pteD, testBit_toNat_pteSetD]

lemma pteUpdate_pteSetA (PTE : UInt64) : PteUpdate PTE (pteSetA PTE) :=
  ⟨fun j h6 _ => by simp [testBit_toNat_pteSetA, h6], fun _ => pteA_pteSetA PTE,
    fun hD => by simpa [pteD, testBit_toNat_pteSetA] using hD⟩

lemma pteUpdate_pteSetD (PTE : UInt64) : PteUpdate PTE (pteSetD PTE) :=
  ⟨fun j _ h7 => by simp [testBit_toNat_pteSetD, h7],
    fun hA => by simpa [pteA, testBit_toNat_pteSetD] using hA, fun _ => pteD_pteSetD PTE⟩

lemma pteA_pteSetD (PTE : UInt64) : pteA (pteSetD PTE) = pteA PTE := by
  simp [pteA, testBit_toNat_pteSetD]

/-! ### A walk that succeeds -/

/-- The address the walk indexes the tables with: `VA` cut to the
translated width, its page offset cleared. -/
def pageVA (sv : SvMode) (VA : UInt64) : UInt64 :=
  UInt64.ofNat (VA.toNat % 2 ^ sv.vaBits) &&& ~~~0xFFF

/-- The address check of the walk: `VA`, cut to the translated width, does
not extend the sign of its translated bits. -/
def vaExtendFault (sv : SvMode) (VA : UInt64) : Bool :=
  let VA := UInt64.ofNat (VA.toNat % 2 ^ sv.vaBits)
  sv.extend && !validVA (signedField VA 12 (sv.levels * sv.vpnShift))
    (signedField VA (12 + sv.levels * sv.vpnShift) (64 - 12 - sv.levels * sv.vpnShift))

/-- The walk of `VA` in `mem` passes the address check and its loop reaches,
at level `i`, the leaf `PTE` at `PTEAddr`, which maps a page aligned to its
size. -/
structure WalkLeaf (sv : SvMode) (ctx : PtwContext) (mem : PtwMemory) (VA : UInt64) (i : ℕ)
    (PTEAddr PTE : UInt64) : Prop where
  extend : vaExtendFault sv VA = false
  loop : ptwLoop sv mem (pageVA sv VA) sv.levels (getRootTableAddress sv ctx.satp) =
    .ok (i, PTEAddr, PTE)
  align : ptePPN sv PTE <<< 12 &&& ((1 : UInt64) <<< UInt64.ofNat (i * sv.vpnShift + 12) - 1) = 0

section WalkSpec

variable {sv : SvMode} {ctx : PtwContext} {mem : PtwMemory} {mode : RiscvMode} {req : MemPriv}

/-- The walk, with its address check and the address it indexes with
named. -/
lemma tlbLookupPTE_eq (VA : UInt64) :
    tlbLookupPTE sv ctx mem mode VA req =
      if vaExtendFault sv VA then .error .vaExtend
      else (do
        let (i, PTEAddr, PTE) ←
          ptwLoop sv mem (pageVA sv VA) sv.levels (getRootTableAddress sv ctx.satp)
        let entry ← ptwLeaf sv ctx mode (pageVA sv VA) req i PTE
        let updated ← setPTEA ctx entry PTE >>= setPTED ctx req
        writeBack ctx mem PTEAddr updated) :=
  rfl

lemma tlbLookupPTE_of_tlbLookup {VA : UInt64} {r : TlbEntry × Option (UInt64 × UInt64)}
    (h : tlbLookup sv ctx mem mode VA req = .ok r) : tlbLookupPTE sv ctx mem mode VA req = .ok r := by
  unfold tlbLookup at h
  rcases hp : tlbLookupPTE sv ctx mem mode VA req with _ | r' <;> rw [hp] at h <;>
    simp_all [Except.mapError]

lemma ptwLeaf_align {VA : UInt64} {i : ℕ} {PTE : UInt64} {e : TlbEntry}
    (h : ptwLeaf sv ctx mode VA req i PTE = .ok e) :
    ptePPN sv PTE <<< 12 &&& ((1 : UInt64) <<< UInt64.ofNat (i * sv.vpnShift + 12) - 1) = 0 := by
  unfold ptwLeaf at h
  dsimp only at h
  split_ifs at h with h1
  exact not_not.mp h1

/-- The A update of a leaf's entry leaves the entry of the PTE it leaves,
which has `A` set; the PTE changes only when it is to be written. -/
lemma setPTEA_fillEntry {VA : UInt64} {i : ℕ} {PTE PTE' : UInt64} {e : TlbEntry} {b : Bool}
    (h : setPTEA ctx (fillEntry sv ctx VA i PTE) PTE = .ok (e, PTE', b)) :
    e = fillEntry sv ctx VA i PTE' ∧ PteUpdate PTE PTE' ∧ pteA PTE' = true ∧
      (b = false → PTE' = PTE) := by
  unfold setPTEA at h
  split_ifs at h with hA
  · -- `A` is set already
    cases h
    exact ⟨rfl, PteUpdate.refl PTE, hA, fun _ => rfl⟩
  · cases h
    refine ⟨?_, pteUpdate_pteSetA PTE, pteA_pteSetA PTE, fun h => absurd h (by decide)⟩
    rw [(pteUpdate_pteSetA PTE).fillEntry_eq, pteA_pteSetA, pteD_pteSetA]
    rfl

/-- The D update likewise, with `D` set for a write. -/
lemma setPTED_fillEntry {VA : UInt64} {i : ℕ} {PTE PTE' : UInt64} {e : TlbEntry} {b b' : Bool}
    (h : setPTED ctx req (fillEntry sv ctx VA i PTE, PTE, b) = .ok (e, PTE', b')) :
    e = fillEntry sv ctx VA i PTE' ∧ PteUpdate PTE PTE' ∧ (req.w = true → pteD PTE' = true) ∧
      (b' = false → PTE' = PTE ∧ b = false) := by
  simp only [setPTED] at h
  split_ifs at h with hD
  · -- `D` is set already, or the access does not write
    cases h
    refine ⟨rfl, PteUpdate.refl PTE, fun hw => ?_, fun hb => ⟨rfl, hb⟩⟩
    have hD' : (fillEntry sv ctx VA i PTE).D = true := by simpa [hw] using hD
    exact hD'
  · cases h
    refine ⟨?_, pteUpdate_pteSetD PTE, fun _ => pteD_pteSetD PTE, fun h => absurd h (by decide)⟩
    rw [(pteUpdate_pteSetD PTE).fillEntry_eq, pteD_pteSetD, pteA_pteSetD]
    rfl

lemma writeBack_spec {PTEAddr PTE : UInt64} {e' e : TlbEntry} {b : Bool}
    {w : Option (UInt64 × UInt64)} (h : writeBack ctx mem PTEAddr (e', PTE, b) = .ok (e, w)) :
    e = e' ∧ (w = none ∧ (b = false ∨ ctx.artifactAccess = true) ∨
      w = some (PTEAddr, PTE) ∧ ctx.artifactAccess = false) := by
  simp only [writeBack] at h
  split_ifs at h with hb hart <;> cases h
  · exact ⟨rfl, .inl ⟨rfl, .inr hart⟩⟩
  · exact ⟨rfl, .inr ⟨rfl, by simpa using hart⟩⟩
  · exact ⟨rfl, .inl ⟨rfl, .inl (by simpa using hb)⟩⟩

/-- **What a walk that succeeds does**: it reaches a leaf, updates the
leaf's PTE (`A` set, and `D` for a write) and returns the entry of the
updated PTE; it writes the updated PTE back at the leaf's address, unless
the PTE is unchanged or the access is an artifact one. -/
lemma tlbLookup_ok_walkLeaf {VA : UInt64} {e : TlbEntry} {w : Option (UInt64 × UInt64)}
    (h : tlbLookup sv ctx mem mode VA req = .ok (e, w)) :
    ∃ i PTEAddr PTE PTE', WalkLeaf sv ctx mem VA i PTEAddr PTE ∧ PteUpdate PTE PTE' ∧
      pteA PTE' = true ∧ (req.w = true → pteD PTE' = true) ∧
      e = fillEntry sv ctx (pageVA sv VA) i PTE' ∧
      (w = none ∧ (PTE' = PTE ∨ ctx.artifactAccess = true) ∨
        w = some (PTEAddr, PTE') ∧ ctx.artifactAccess = false) := by
  have hp := tlbLookupPTE_of_tlbLookup h
  rw [tlbLookupPTE_eq] at hp
  split_ifs at hp with hext
  -- the stages of the walk, in order
  obtain ⟨⟨i, PTEAddr, PTE⟩, hloop, hp⟩ := except_bind_eq_ok hp
  obtain ⟨e0, hleaf, hp⟩ := except_bind_eq_ok hp
  obtain ⟨⟨e2, PTE2, b2⟩, hAD, hwb⟩ := except_bind_eq_ok hp
  obtain ⟨⟨e1, PTE1, b1⟩, hA, hD⟩ := except_bind_eq_ok hAD
  have halign := ptwLeaf_align hleaf
  obtain ⟨rfl, -⟩ := ptwLeaf_ok hleaf
  obtain ⟨rfl, hu1, hA1, hb1⟩ := setPTEA_fillEntry hA
  obtain ⟨rfl, hu2, hDw, hb2⟩ := setPTED_fillEntry hD
  obtain ⟨rfl, hw⟩ := writeBack_spec hwb
  refine ⟨i, PTEAddr, PTE, PTE2, ⟨by simpa using hext, hloop, halign⟩, hu1.trans hu2,
    hu2.A_mono hA1, hDw, rfl, ?_⟩
  rcases hw with ⟨rfl, hb | hart⟩ | hw
  · -- nothing to write: neither update changed the PTE
    obtain ⟨rfl, rfl⟩ := hb2 hb
    exact .inl ⟨rfl, .inl (hb1 rfl)⟩
  · exact .inl ⟨rfl, .inr hart⟩
  · exact .inr hw

/-- **The walk of a leaf with `A` set** returns the leaf's entry and writes
nothing, when that entry gives the access and, for a write, `D` is set. -/
lemma tlbLookup_of_walkLeaf {VA : UInt64} {i : ℕ} {PTEAddr PTE : UInt64}
    (hl : WalkLeaf sv ctx mem VA i PTEAddr PTE) (hA : pteA PTE = true)
    (hperm : checkEntryPermission ctx mode (fillEntry sv ctx (pageVA sv VA) i PTE) req ≠
      MemPriv.none)
    (hD : req.w = true → pteD PTE = true) :
    tlbLookup sv ctx mem mode VA req = .ok (fillEntry sv ctx (pageVA sv VA) i PTE, none) := by
  have hleaf : ptwLeaf sv ctx mode (pageVA sv VA) req i PTE =
      .ok (fillEntry sv ctx (pageVA sv VA) i PTE) := by
    unfold ptwLeaf
    simp only [hl.align, ne_eq, not_true_eq_false, if_false]
    rw [if_neg hperm]
  have hsetA : setPTEA ctx (fillEntry sv ctx (pageVA sv VA) i PTE) PTE =
      .ok (fillEntry sv ctx (pageVA sv VA) i PTE, PTE, false) := by
    unfold setPTEA
    rw [if_pos (show (fillEntry sv ctx (pageVA sv VA) i PTE).A = true from hA)]
  have hsetD : setPTED ctx req (fillEntry sv ctx (pageVA sv VA) i PTE, PTE, false) =
      .ok (fillEntry sv ctx (pageVA sv VA) i PTE, PTE, false) := by
    simp only [setPTED]
    rw [if_pos]
    cases hw : req.w
    · simp
    · simp [fillEntry, hD hw]
  unfold tlbLookup
  rw [tlbLookupPTE_eq, if_neg (by simp [hl.extend]), hl.loop]
  simp [bind, Except.bind, hleaf, hsetA, hsetD, writeBack, Except.mapError]

end WalkSpec

/-! ### The addresses of one page -/

/-- `VA` and `VA'` lie in one page of level `i`: cut to the translated
width, they agree above the page's offset. -/
def SamePage (sv : SvMode) (i : ℕ) (VA VA' : UInt64) : Prop :=
  VA.toNat % 2 ^ sv.vaBits / 2 ^ (12 + i * sv.vpnShift) =
    VA'.toNat % 2 ^ sv.vaBits / 2 ^ (12 + i * sv.vpnShift)

section Page

variable {sv : SvMode} (hsv : sv.WF) {i : ℕ} {VA VA' : UInt64}
include hsv

lemma toNat_cutVA (VA : UInt64) :
    (UInt64.ofNat (VA.toNat % 2 ^ sv.vaBits)).toNat = VA.toNat % 2 ^ sv.vaBits := by
  have hlt : VA.toNat % 2 ^ sv.vaBits < 2 ^ 64 :=
    lt_of_lt_of_le (Nat.mod_lt _ (Nat.two_pow_pos _))
      (Nat.pow_le_pow_right (by norm_num) hsv.vaBits_le)
  rw [UInt64.toNat_ofNat', Nat.mod_eq_of_lt hlt]

/-- The VPN fields from the page's level up are those of every address of
the page. -/
lemma getVPNi_pageVA_congr (h : SamePage sv i VA VA') {j : ℕ} (hij : i ≤ j)
    (hj : j < sv.levels) : getVPNi sv (pageVA sv VA) j = getVPNi sv (pageVA sv VA') j := by
  unfold pageVA
  rw [getVPNi_eq_vpn sv _ hj, getVPNi_eq_vpn sv _ hj, toNat_cutVA hsv, toNat_cutVA hsv]
  unfold vpn
  have hk : 12 + j * sv.vpnShift = (12 + i * sv.vpnShift) + (j - i) * sv.vpnShift := by
    rw [Nat.sub_mul]
    have := Nat.mul_le_mul_right sv.vpnShift hij
    omega
  rw [hk, pow_add, ← Nat.div_div_eq_div_mul, ← Nat.div_div_eq_div_mul, h]

/-- The canonical address test looks only at the bits from the highest
translated one up, none of them in the offset of a page. -/
lemma vaCanonical_congr (hs : 0 < sv.vpnShift) (hi : i < sv.levels) {x x' : ℕ}
    (h : x / 2 ^ (12 + i * sv.vpnShift) = x' / 2 ^ (12 + i * sv.vpnShift)) :
    vaCanonical sv x = vaCanonical sv x' := by
  set k := 12 + i * sv.vpnShift
  set m := 12 + sv.levels * sv.vpnShift - 1
  -- the page's offset lies below the highest translated bit
  have hkm : k ≤ m := by
    have := Nat.mul_le_mul_right sv.vpnShift (Nat.succ_le_of_lt hi)
    rw [Nat.succ_mul] at this
    omega
  have hmv : m ≤ sv.vaBits := by
    have := hsv.levelBits_le
    omega
  have hpos := Nat.two_pow_pos k
  have hlow : 2 ^ m = 2 ^ (m - k) * 2 ^ k := by rw [← pow_add, Nat.sub_add_cancel hkm]
  have hhigh : 2 ^ sv.vaBits - 2 ^ m = (2 ^ (sv.vaBits - k) - 2 ^ (m - k)) * 2 ^ k := by
    rw [Nat.sub_mul, ← pow_add, ← pow_add, Nat.sub_add_cancel hkm,
      Nat.sub_add_cancel (hkm.trans hmv)]
  unfold vaCanonical
  rw [decide_eq_decide, show 12 + sv.levels * sv.vpnShift - 1 = m from rfl, hhigh, hlow,
    ← Nat.div_lt_iff_lt_mul hpos, ← Nat.div_lt_iff_lt_mul hpos, ← Nat.le_div_iff_mul_le hpos,
    ← Nat.le_div_iff_mul_le hpos, h]

/-- The address check passes for every address of a page or for none. -/
lemma vaExtendFault_congr (hi : i < sv.levels) (h : SamePage sv i VA VA') :
    vaExtendFault sv VA = vaExtendFault sv VA' := by
  rcases Nat.eq_zero_or_pos sv.vpnShift with hs | hs
  · -- without VPN bits both fields of the check lie above the page's offset
    unfold SamePage at h
    unfold vaExtendFault signedField
    simp only [toNat_cutVA hsv, hs, mul_zero, add_zero] at h ⊢
    rw [h]
  · -- otherwise the check is the canonical address test
    have hlt : ∀ VA : UInt64, (UInt64.ofNat (VA.toNat % 2 ^ sv.vaBits)).toNat < 2 ^ sv.vaBits :=
      fun VA => by rw [toNat_cutVA hsv]; exact Nat.mod_lt _ (Nat.two_pow_pos _)
    unfold vaExtendFault
    rw [hsv.validVA_iff _ (hlt VA), hsv.validVA_iff _ (hlt VA'), toNat_cutVA hsv,
      toNat_cutVA hsv, vaCanonical_congr hsv hs hi h]

/-- The entry of a leaf is the same for every address of its page. -/
lemma fillEntry_pageVA_congr (hi : i < sv.levels) (h : SamePage sv i VA VA') (ctx : PtwContext)
    (PTE : UInt64) :
    fillEntry sv ctx (pageVA sv VA') i PTE = fillEntry sv ctx (pageVA sv VA) i PTE := by
  have hlow : (fillEntry sv ctx (pageVA sv VA') i PTE).lowVA =
      (fillEntry sv ctx (pageVA sv VA) i PTE).lowVA := by
    apply UInt64.toNat_inj.mp
    unfold pageVA
    rw [toNat_fillEntry_lowVA hsv hi, toNat_fillEntry_lowVA hsv hi, toNat_cutVA hsv,
      toNat_cutVA hsv, h]
  simp only [fillEntry] at hlow ⊢
  rw [hlow]

/-- Every address of the page the entry of a leaf maps lies in one page with
the address the leaf was found for. -/
lemma samePage_of_fillEntry (hi : i < sv.levels) {ctx : PtwContext} {PTE : UInt64}
    (hlo : (fillEntry sv ctx (pageVA sv VA) i PTE).lowVA ≤ VA')
    (hhi : VA' ≤ (fillEntry sv ctx (pageVA sv VA) i PTE).highVA) : SamePage sv i VA VA' := by
  have hlow := toNat_fillEntry_lowVA hsv hi ctx (UInt64.ofNat (VA.toNat % 2 ^ sv.vaBits)) PTE
  have hhigh := toNat_fillEntry_highVA hsv hi ctx (UInt64.ofNat (VA.toNat % 2 ^ sv.vaBits)) PTE
  rw [toNat_cutVA hsv] at hlow
  rw [UInt64.le_iff_toNat_le] at hlo hhi
  unfold pageVA at hlo hhi
  have hk : 12 + i * sv.vpnShift ≤ sv.vaBits := by
    have := Nat.mul_le_mul_right sv.vpnShift hi.le
    have := hsv.levelBits_le
    omega
  have hend := Nat.div_two_pow_mul_add_two_pow_le
    (Nat.mod_lt VA.toNat (Nat.two_pow_pos sv.vaBits)) hk
  have hpos := Nat.two_pow_pos (12 + i * sv.vpnShift)
  -- the page ends within the translated width, so `VA'` is its own cut
  have hlt : VA'.toNat < 2 ^ sv.vaBits := by omega
  unfold SamePage
  rw [Nat.mod_eq_of_lt hlt]
  symm
  apply Nat.div_eq_of_lt_le
  · omega
  · rw [Nat.succ_mul]
    omega

end Page

/-! ### The loop over a page and over a written table -/

section Loop

variable (sv : SvMode) (mem : PtwMemory)

/-- At each level the loop reads the table entry the address's VPN field
of that level indexes: two addresses whose fields agree from the leaf's
level up reach the same leaf. -/
lemma ptwLoop_congr_VA {VA VA' : UInt64} {i : ℕ} {PTEAddr PTE : UInt64} :
    ∀ {n : ℕ} {a : UInt64}, (∀ j, i ≤ j → j < n → getVPNi sv VA j = getVPNi sv VA' j) →
      ptwLoop sv mem VA n a = .ok (i, PTEAddr, PTE) →
        ptwLoop sv mem VA' n a = .ok (i, PTEAddr, PTE)
  | 0, _, _, h => by simp [ptwLoop] at h
  | n + 1, a, hvpn, h => by
      have hin : i ≤ n := Nat.lt_succ_iff.mp (ptwLoop_level_lt sv mem VA h)
      simp only [ptwLoop] at h ⊢
      rw [← hvpn n hin (Nat.lt_succ_self n)]
      split_ifs at h ⊢
      · exact h
      · exact ptwLoop_congr_VA (fun j hij hjn => hvpn j hij (by omega)) h

/-- The leaf the loop returns is the entry read at its address. -/
lemma ptwLoop_read (VA : UInt64) :
    ∀ {n : ℕ} {a : UInt64} {i : ℕ} {PTEAddr PTE : UInt64},
      ptwLoop sv mem VA n a = .ok (i, PTEAddr, PTE) →
        readPageTableEntry mem PTEAddr sv.entryBytes = PTE
  | 0, _, _, _, _, h => by simp [ptwLoop] at h
  | n + 1, a, i, PTEAddr, PTE, h => by
      simp only [ptwLoop] at h
      split_ifs at h
      · cases h
        rfl
      · exact ptwLoop_read VA h

@[simp] lemma readFault_writePageTableEntry (x v : UInt64) :
    (writePageTableEntry mem x v).readFault = mem.readFault := rfl

lemma readPageTableEntry_writePageTableEntry_of_ne {x y : UInt64} (v : UInt64) (h : y ≠ x)
    (n : ℕ) : readPageTableEntry (writePageTableEntry mem x v) y n = readPageTableEntry mem y n := by
  simp [readPageTableEntry, writePageTableEntry, Function.update_of_ne h]

variable {sv mem}

/-- The entry written back reads back as written; a four-byte entry stays
within four bytes. -/
lemma readPageTableEntry_writePageTableEntry_self {x PTE PTE' : UInt64}
    (hx : readPageTableEntry mem x sv.entryBytes = PTE) (hu : PteUpdate PTE PTE') :
    readPageTableEntry (writePageTableEntry mem x PTE') x sv.entryBytes = PTE' := by
  unfold readPageTableEntry at hx ⊢
  simp only [writePageTableEntry, Function.update_self]
  split_ifs at hx ⊢ with h4
  · have hlt : PTE'.toNat < 2 ^ 32 := hu.toNat_lt (by
      rw [← hx, UInt32.toNat_toUInt64]
      exact UInt32.toNat_lt _)
    apply UInt64.toNat_inj.mp
    rw [UInt32.toNat_toUInt64, UInt64.toNat_toUInt32, Nat.mod_eq_of_lt hlt]
  · rfl

/-- **An A/D write changes no walk but at the PTE it updates**: the loop
reaches the leaf it reached before, reading the updated PTE where it read
the old one. -/
lemma ptwLoop_writePageTableEntry {x PTE PTE' : UInt64}
    (hx : readPageTableEntry mem x sv.entryBytes = PTE) (hu : PteUpdate PTE PTE') (VA : UInt64) :
    ∀ {n : ℕ} {a : UInt64} {i : ℕ} {PTEAddr P : UInt64},
      ptwLoop sv mem VA n a = .ok (i, PTEAddr, P) →
        ptwLoop sv (writePageTableEntry mem x PTE') VA n a =
          .ok (i, PTEAddr, if PTEAddr = x then PTE' else P)
  | 0, _, _, _, _, h => by simp [ptwLoop] at h
  | n + 1, a, i, PTEAddr, P, h => by
      simp only [ptwLoop, readFault_writePageTableEntry] at h ⊢
      generalize a + UInt64.ofNat (getVPNi sv VA n * sv.entryBytes) = z at h ⊢
      -- the entry read at this level, after the write
      have hread : readPageTableEntry (writePageTableEntry mem x PTE') z sv.entryBytes =
          if z = x then PTE' else readPageTableEntry mem z sv.entryBytes := by
        split_ifs with hz
        · subst hz
          exact readPageTableEntry_writePageTableEntry_self hx hu
        · exact readPageTableEntry_writePageTableEntry_of_ne mem _ hz _
      -- has the `V` bit, privilege and PPN of the one read before
      have hu' : PteUpdate (readPageTableEntry mem z sv.entryBytes)
          (readPageTableEntry (writePageTableEntry mem x PTE') z sv.entryBytes) := by
        rw [hread]
        split_ifs with hz
        · rw [hz, hx]
          exact hu
        · exact PteUpdate.refl _
      rw [hu'.pteV_eq, hu'.ptePriv_eq, hu'.ptePPN_eq]
      split_ifs at h with h1 h2 h3 h4
      · cases h
        simp [h1, h2, h3, h4, hread]
      · simp only [h1, h2, h3, h4, if_false]
        exact ptwLoop_writePageTableEntry hx hu VA h

end Loop

/-! ### Leaves -/

/-- Two contexts of one address space: the same `satp`, so the same root
table and ASID, and the same implemented ASID bits. -/
def PtwContext.SameSpace (ctx ctx' : PtwContext) : Prop :=
  ctx'.satp = ctx.satp ∧ ctx'.ASIDMask = ctx.ASIDMask

namespace WalkLeaf

variable {sv : SvMode} {ctx : PtwContext} {mem : PtwMemory} {VA : UInt64} {i : ℕ}
  {PTEAddr PTE : UInt64} (hl : WalkLeaf sv ctx mem VA i PTEAddr PTE)
include hl

lemma level_lt : i < sv.levels := ptwLoop_level_lt sv mem _ hl.loop

lemma read : readPageTableEntry mem PTEAddr sv.entryBytes = PTE := ptwLoop_read sv mem _ hl.loop

/-- The leaf of an address is the leaf of every address of its page. -/
lemma congr (hsv : sv.WF) {VA' : UInt64} (h : SamePage sv i VA VA') :
    WalkLeaf sv ctx mem VA' i PTEAddr PTE :=
  ⟨(vaExtendFault_congr hsv hl.level_lt h) ▸ hl.extend,
    ptwLoop_congr_VA sv mem (fun _ hij hj => getVPNi_pageVA_congr hsv h hij hj) hl.loop, hl.align⟩

/-- After an A/D write the walk reaches the same leaf, updated if it is the
one written. -/
lemma write {x P P' : UInt64} (hx : readPageTableEntry mem x sv.entryBytes = P)
    (hu : PteUpdate P P') :
    WalkLeaf sv ctx (writePageTableEntry mem x P') VA i PTEAddr
      (if PTEAddr = x then P' else PTE) := by
  refine ⟨hl.extend, ptwLoop_writePageTableEntry hx hu _ hl.loop, ?_⟩
  split_ifs with hPx
  · -- the updated PTE has the PPN of the old one
    have hP : PTE = P := hl.read.symm.trans (hPx ▸ hx)
    rw [hu.ptePPN_eq, ← hP]
    exact hl.align
  · exact hl.align

lemma of_sameSpace {ctx' : PtwContext} (h : ctx.SameSpace ctx') :
    WalkLeaf sv ctx' mem VA i PTEAddr PTE :=
  ⟨hl.extend, by rw [h.1]; exact hl.loop, hl.align⟩

end WalkLeaf

/-! ### Coherent entries -/

lemma PtwContext.SameSpace.symm {ctx ctx' : PtwContext} (h : ctx.SameSpace ctx') :
    ctx'.SameSpace ctx :=
  ⟨h.1.symm, h.2.symm⟩

/-- The entry of a leaf depends on the context only through its ASID bits. -/
lemma fillEntry_sameSpace {ctx ctx' : PtwContext} (h : ctx.SameSpace ctx') (sv : SvMode)
    (VA : UInt64) (i : ℕ) (PTE : UInt64) : fillEntry sv ctx' VA i PTE = fillEntry sv ctx VA i PTE := by
  simp [fillEntry, getG, h.2]

/-- **The entry is what the walk gives**: for every address it holds, the
walk of `mem` reaches a leaf whose PTE fills the entry, up to `A` and `D`,
has `A` set, and has `D` set when the entry has. -/
def EntryWalks (sv : SvMode) (ctx : PtwContext) (mem : PtwMemory) (e : TlbEntry) : Prop :=
  ∀ VA, e.lowVA ≤ VA → VA ≤ e.highVA → ∃ i PTEAddr PTE, WalkLeaf sv ctx mem VA i PTEAddr PTE ∧
    { fillEntry sv ctx (pageVA sv VA) i PTE with A := e.A, D := e.D } = e ∧
    pteA PTE = true ∧ (e.D = true → pteD PTE = true)

section EntryWalks

variable {sv : SvMode} {ctx : PtwContext} {mem : PtwMemory} {mode : RiscvMode} {req : MemPriv}

/-- **The walk of an address of a coherent entry returns the entry**, with
`A` set, and writes nothing, for every access the entry gives. -/
lemma tlbLookup_of_entryWalks {e : TlbEntry} (he : EntryWalks sv ctx mem e) {VA : UInt64}
    (hlo : e.lowVA ≤ VA) (hhi : VA ≤ e.highVA)
    (hperm : checkEntryPermission ctx mode e req ≠ MemPriv.none) (hD : req.w = true → e.D = true) :
    ∃ D, tlbLookup sv ctx mem mode VA req = .ok ({ e with A := true, D := D }, none) := by
  obtain ⟨i, PTEAddr, PTE, hl, hfill, hA, hDm⟩ := he VA hlo hhi
  have hperm' : checkEntryPermission ctx mode (fillEntry sv ctx (pageVA sv VA) i PTE) req ≠
      MemPriv.none := by
    rwa [← checkEntryPermission_setAD _ e.A e.D, hfill]
  have hentry : fillEntry sv ctx (pageVA sv VA) i PTE = { e with A := true, D := pteD PTE } := by
    rw [← hfill]
    simp [fillEntry, hA]
  exact ⟨pteD PTE, by rw [tlbLookup_of_walkLeaf hl hA hperm' (fun hw => hDm (hD hw)), hentry]⟩

/-- After its own write, the leaf of a real walk is the leaf of every
address of the page it filled, and fills the entry the walk returned. -/
lemma tlbLookup_leaf_after_write (hsv : sv.WF) (hart : ctx.artifactAccess = false) {VA : UInt64}
    {e : TlbEntry} {w : Option (UInt64 × UInt64)} (h : tlbLookup sv ctx mem mode VA req = .ok (e, w)) :
    ∃ i PTEAddr PTE', pteA PTE' = true ∧ e = fillEntry sv ctx (pageVA sv VA) i PTE' ∧
      ∀ VA', e.lowVA ≤ VA' → VA' ≤ e.highVA →
        WalkLeaf sv ctx (applyPTEWrite mem w) VA' i PTEAddr PTE' ∧
          fillEntry sv ctx (pageVA sv VA') i PTE' = e := by
  obtain ⟨i, PTEAddr, PTE, PTE', hl, hu, hA, -, rfl, hw⟩ := tlbLookup_ok_walkLeaf h
  -- the walk's own leaf, in the memory its write leaves
  have hl' : WalkLeaf sv ctx (applyPTEWrite mem w) VA i PTEAddr PTE' := by
    rcases hw with ⟨rfl, rfl | hart'⟩ | ⟨rfl, -⟩
    · exact hl
    · simp [hart] at hart'
    · simpa [applyPTEWrite] using hl.write hl.read hu
  refine ⟨i, PTEAddr, PTE', hA, rfl, fun VA' hlo hhi => ?_⟩
  have hsame := samePage_of_fillEntry hsv hl.level_lt hlo hhi
  exact ⟨hl'.congr hsv hsame, fillEntry_pageVA_congr hsv hl.level_lt hsame ctx PTE'⟩

/-- **The entry of a real walk is coherent** in the memory its write
leaves. -/
lemma entryWalks_of_tlbLookup (hsv : sv.WF) (hart : ctx.artifactAccess = false) {VA : UInt64}
    {e : TlbEntry} {w : Option (UInt64 × UInt64)} (h : tlbLookup sv ctx mem mode VA req = .ok (e, w)) :
    EntryWalks sv ctx (applyPTEWrite mem w) e := by
  obtain ⟨i, PTEAddr, PTE', hA, rfl, hall⟩ := tlbLookup_leaf_after_write hsv hart h
  intro VA' hlo hhi
  obtain ⟨hl', hfill⟩ := hall VA' hlo hhi
  refine ⟨i, PTEAddr, PTE', hl', ?_, hA, fun hD => hD⟩
  rw [hfill]

/-- **A walk is idempotent**: after a real walk's own write, the walk of
any address of the page it filled, for any access the entry gives, returns
the same entry and writes nothing. -/
theorem tlbLookup_rewalk (hsv : sv.WF) (hart : ctx.artifactAccess = false) {VA : UInt64}
    {e : TlbEntry} {w : Option (UInt64 × UInt64)} (h : tlbLookup sv ctx mem mode VA req = .ok (e, w))
    {VA' : UInt64} {mode' : RiscvMode} {req' : MemPriv} (hlo : e.lowVA ≤ VA') (hhi : VA' ≤ e.highVA)
    (hperm : checkEntryPermission ctx mode' e req' ≠ MemPriv.none)
    (hD : req'.w = true → e.D = true) :
    tlbLookup sv ctx (applyPTEWrite mem w) mode' VA' req' = .ok (e, none) := by
  obtain ⟨i, PTEAddr, PTE', hA, rfl, hall⟩ := tlbLookup_leaf_after_write hsv hart h
  obtain ⟨hl', hfill⟩ := hall VA' hlo hhi
  rw [← hfill] at hperm hD ⊢
  exact tlbLookup_of_walkLeaf hl' hA hperm hD

/-- A page table memory whose every PTE is a valid leaf with full access,
`A` and `D` clear, mapping page 0. -/
def cleanTable : PtwMemory := ⟨fun _ => 0x0F, fun _ => false, fun _ => false⟩

/-- A write at `0x1234` over that table walks and writes the root PTE back
with `A` and `D` set; a later write anywhere in the gigapage walks to the
same entry and writes nothing. -/
theorem tlbLookup_rewalk_clean_table :
    tlbLookup Sv39 flatHart cleanTable .supervisor 0x1234 MemPriv.W =
        .ok (⟨0, 0x3FFFFFFF, 0, MemPriv.RWX, false, true, true, true⟩, some (0x1000, 0xCF)) ∧
      tlbLookup Sv39 flatHart (applyPTEWrite cleanTable (some (0x1000, 0xCF))) .supervisor 0x5678
        MemPriv.W = .ok (⟨0, 0x3FFFFFFF, 0, MemPriv.RWX, false, true, true, true⟩, none) := by
  have h : tlbLookup Sv39 flatHart cleanTable .supervisor 0x1234 MemPriv.W =
      .ok (⟨0, 0x3FFFFFFF, 0, MemPriv.RWX, false, true, true, true⟩, some (0x1000, 0xCF)) := by
    decide
  exact ⟨h, tlbLookup_rewalk Sv39_WF rfl h (by decide) (by decide) (by decide) (fun _ => rfl)⟩

/-- **A walk's A/D write keeps every coherent entry coherent**: a walk that
reaches the PTE it updated reads it with the same mapping, `A` still set and
`D` set if it was. -/
lemma EntryWalks.applyPTEWrite {e' : TlbEntry} (he : EntryWalks sv ctx mem e')
    {ctx' : PtwContext} {VA : UInt64} {e : TlbEntry} {w : Option (UInt64 × UInt64)}
    (h : tlbLookup sv ctx' mem mode VA req = .ok (e, w)) :
    EntryWalks sv ctx (applyPTEWrite mem w) e' := by
  obtain ⟨i, PTEAddr, P, P', hl, hu, -, -, -, hw⟩ := tlbLookup_ok_walkLeaf h
  rcases hw with ⟨rfl, -⟩ | ⟨rfl, -⟩
  · exact he
  intro VA' hlo hhi
  obtain ⟨j, y, Q, hlQ, hfill, hA, hD⟩ := he VA' hlo hhi
  have hl' := hlQ.write hl.read hu
  by_cases hy : y = PTEAddr
  · -- the entry's leaf is the PTE the walk updated
    subst hy
    obtain rfl : Q = P := hlQ.read.symm.trans hl.read
    rw [if_pos rfl] at hl'
    refine ⟨j, y, P', hl', ?_, hu.A_mono hA, fun hD' => hu.D_mono (hD hD')⟩
    rw [hu.fillEntry_eq]
    exact hfill
  · rw [if_neg hy] at hl'
    exact ⟨j, y, Q, hl', hfill, hA, hD⟩

lemma EntryWalks.of_sameSpace {ctx' : PtwContext} (hsp : ctx.SameSpace ctx') {e : TlbEntry}
    (he : EntryWalks sv ctx' mem e) : EntryWalks sv ctx mem e := by
  intro VA hlo hhi
  obtain ⟨i, PTEAddr, PTE, hl, hfill, hA, hD⟩ := he VA hlo hhi
  rw [fillEntry_sameSpace hsp] at hfill
  exact ⟨i, PTEAddr, PTE, hl.of_sameSpace hsp.symm, hfill, hA, hD⟩

end EntryWalks

/-! ### Coherent tables -/

/-- **The TLB is coherent with the page tables**: every entry a lookup in
the address space of `ctx` may serve, one not made by an artifact access
that matches the active ASID, is what the walk gives. -/
def TlbCoherent (sv : SvMode) (xlen : ℕ) (ctx : PtwContext) (mem : PtwMemory)
    (tlb : List TlbSlot) : Prop :=
  ∀ slot ∈ tlb, slot.artifact = false → matchASID (getActiveASID xlen ctx.satp) slot = true →
    EntryWalks sv ctx mem slot.entry

section Coherent

variable {sv : SvMode} {xlen : ℕ} {ctx : PtwContext} {mem : PtwMemory}

lemma TlbCoherent.sublist {tlb tlb' : List TlbSlot} (h : TlbCoherent sv xlen ctx mem tlb)
    (hs : List.Sublist tlb' tlb) : TlbCoherent sv xlen ctx mem tlb' :=
  fun slot hslot => h slot (hs.subset hslot)

lemma TlbCoherent.applyPTEWrite {tlb : List TlbSlot} (h : TlbCoherent sv xlen ctx mem tlb)
    {ctx' : PtwContext} {mode : RiscvMode} {req : MemPriv} {VA : UInt64} {e : TlbEntry}
    {w : Option (UInt64 × UInt64)} (hw : tlbLookup sv ctx' mem mode VA req = .ok (e, w)) :
    TlbCoherent sv xlen ctx (applyPTEWrite mem w) tlb :=
  fun slot hslot hreal hmatch => (h slot hslot hreal hmatch).applyPTEWrite hw

/-- The entry validation passes gives the access. -/
lemma validateTLBEntryPriv_perm {mode : RiscvMode} {req : MemPriv} {r : TlbResult}
    {before after : List TlbSlot} {slot : TlbSlot} {p : Option MemPriv}
    (h : validateTLBEntryPriv ctx mode req r = (.entry before slot after, p)) :
    checkEntryPermission ctx mode slot.entry req ≠ MemPriv.none := by
  cases r with
  | null tlb => simp [validateTLBEntryPriv] at h
  | entry b s a =>
    simp only [validateTLBEntryPriv] at h
    by_cases hnone : checkEntryPermission ctx mode s.entry req = MemPriv.none
    · rw [if_pos hnone] at h
      cases h
    by_cases hwd : (req.w && !s.entry.D) = true
    · rw [if_neg hnone, if_pos hwd] at h
      cases h
    rw [if_neg hnone, if_neg hwd] at h
    cases h
    exact hnone

lemma tlbMissLookup_mem_eq (rt : RangeTable) (sv : SvMode) (xlen : ℕ) (ctx : PtwContext)
    (mode : RiscvMode) (attrs : MemAccessAttrs) (req : MemPriv) (s : VmState) (VA : UInt64) :
    (tlbMissLookup rt sv xlen ctx mode attrs req s VA).2.mem =
      applyPTEWrite s.mem (findOrCreateTLBEntry rt sv xlen ctx s.mem mode attrs req VA s.tlb).write := by
  unfold tlbMissLookup
  dsimp only
  split <;> rfl

/-- **The lookup writes the page tables only to set `A` and `D`**: it
leaves them as they are, or, for a real access, writes at one address the
PTE read there with `A` set and perhaps `D`. -/
theorem tlbMissLookup_mem (rt : RangeTable) (sv : SvMode) (xlen : ℕ) (ctx : PtwContext)
    (mode : RiscvMode) (attrs : MemAccessAttrs) (req : MemPriv) (s : VmState) (VA : UInt64) :
    (tlbMissLookup rt sv xlen ctx mode attrs req s VA).2.mem = s.mem ∨
      ctx.artifactAccess = false ∧ ∃ PTEAddr PTE',
        (tlbMissLookup rt sv xlen ctx mode attrs req s VA).2.mem =
          writePageTableEntry s.mem PTEAddr PTE' ∧
        PteUpdate (readPageTableEntry s.mem PTEAddr sv.entryBytes) PTE' := by
  rw [tlbMissLookup_mem_eq]
  rcases findOrCreateTLBEntry_cases rt sv xlen ctx s.mem mode attrs req VA s.tlb with
    ⟨before, slot, after, priv, -, hf⟩ | ⟨t, -, ⟨exception, -, hf⟩ | ⟨e, w, priv, hw, -, hf⟩⟩
  · -- a cached entry: no walk
    exact .inl (by rw [hf]; rfl)
  · exact .inl (by rw [hf]; rfl)
  · -- the walk's write, if any
    rw [hf]
    obtain ⟨i, PTEAddr, PTE, PTE', hl, hu, -, -, -, hw'⟩ := tlbLookup_ok_walkLeaf hw
    rcases hw' with ⟨rfl, -⟩ | ⟨rfl, hart⟩
    · exact .inl rfl
    · exact .inr ⟨hart, PTEAddr, PTE', rfl, hl.read ▸ hu⟩

/-- **A lookup in the address space keeps the TLB coherent**, whatever the
rest of its context: the entry it finds keeps its mapping, the entries it
deletes go, and the entry of its walk is coherent in the memory the walk's
write leaves, which keeps the others coherent. -/
lemma tlbMissLookup_coherent (rt : RangeTable) (hsv : sv.WF) {ctx' : PtwContext}
    (hsp : ctx.SameSpace ctx') (mode : RiscvMode) (attrs : MemAccessAttrs) (req : MemPriv)
    {s : VmState} (VA : UInt64) (hc : TlbCoherent sv xlen ctx s.mem s.tlb) :
    TlbCoherent sv xlen ctx (tlbMissLookup rt sv xlen ctx' mode attrs req s VA).2.mem
      (tlbMissLookup rt sv xlen ctx' mode attrs req s VA).2.tlb := by
  have hASID : getActiveASID xlen ctx'.satp = getActiveASID xlen ctx.satp := by rw [hsp.1]
  rw [tlbMissLookup_mem_eq]
  rcases findOrCreateTLBEntry_cases rt sv xlen ctx' s.mem mode attrs req VA s.tlb with
    ⟨before, slot, after, priv, hv, hf⟩ | ⟨t, ht, ⟨exception, -, hf⟩ | ⟨e, w, priv, hw, -, hf⟩⟩
  · -- a cached entry: what the scan left, the entry with its new ASID
    obtain ⟨hfind, -⟩ := validateTLBEntryPriv_eq_entry hv
    obtain ⟨-, hreal, hmatch, -⟩ := findTLBEntry_eq_entry _ _ hfind
    have hsub := findTLBEntry_sublist (getActiveASID xlen ctx'.satp) VA s.tlb
    rw [hfind] at hsub
    rw [tlbMissLookup_of_entry rt xlen ctx' mode attrs req hf, hf]
    intro x hx hxa hxm
    simp only [List.mem_append, List.mem_cons] at hx
    rcases hx with hx | rfl | hx
    · exact hc x (hsub.subset (by simp [TlbResult.tlb, hx])) hxa hxm
    · exact hc slot (hsub.subset (by simp [TlbResult.tlb])) hreal (by rwa [← hASID])
    · exact hc x (hsub.subset (by simp [TlbResult.tlb, hx])) hxa hxm
  all_goals
    -- the table validation left
    have hsub : List.Sublist t s.tlb := by
      have h1 : List.Sublist (validateTLBEntryPriv ctx' mode req
          (findTLBEntry (getActiveASID xlen ctx'.satp) VA s.tlb)).1.tlb
          (findTLBEntry (getActiveASID xlen ctx'.satp) VA s.tlb).tlb :=
        validateTLBEntryPriv_sublist _
      rw [ht] at h1
      exact h1.trans (findTLBEntry_sublist _ _ _)
    rw [hf]
  · rw [(tlbMissLookup_of_null rt xlen ctx' mode attrs req (congrArg TlbFill.result hf)).2]
    exact hc.sublist hsub
  · -- the entry of the walk joins that table where the range table puts it
    rw [tlbMissLookup_of_entry rt xlen ctx' mode attrs req hf]
    intro x hx hxa hxm
    simp only [List.mem_append, List.mem_cons] at hx
    rcases hx with hx | rfl | hx
    · exact (hc.sublist hsub).applyPTEWrite hw x (List.mem_of_mem_take hx) hxa hxm
    · have hart : ctx'.artifactAccess = false := hxa
      exact (entryWalks_of_tlbLookup hsv hart hw).of_sameSpace hsp
    · exact (hc.sublist hsub).applyPTEWrite hw x (List.mem_of_mem_drop hx) hxa hxm

/-- **On a coherent TLB the lookup of `tlbMiss` serves what the walk
gives**: the walk of the current page tables succeeds, with the entry
served up to `A` and `D`. -/
lemma tlbMissLookup_walk {rt : RangeTable} {s : VmState} (hc : TlbCoherent sv xlen ctx s.mem s.tlb)
    {mode : RiscvMode} {attrs : MemAccessAttrs} {req : MemPriv} {VA : UInt64} {e : TlbEntry}
    (h : (tlbMissLookup rt sv xlen ctx mode attrs req s VA).1 = some e) :
    ∃ e' w, tlbLookup sv ctx s.mem mode VA req = .ok (e', w) ∧ { e' with A := e.A, D := e.D } = e := by
  rcases findOrCreateTLBEntry_cases rt sv xlen ctx s.mem mode attrs req VA s.tlb with
    ⟨before, slot, after, priv, hv, hf⟩ | ⟨t, -, ⟨exception, -, hf⟩ | ⟨e', w, priv, hw, -, hf⟩⟩
  · -- a cached entry, which is coherent: the walk returns it
    rw [tlbMissLookup_of_entry rt xlen ctx mode attrs req hf] at h
    cases h
    obtain ⟨hfind, -, -, -, -, hD⟩ := validateTLBEntryPriv_eq_entry hv
    obtain ⟨hov, hreal, hmatch, -⟩ := findTLBEntry_eq_entry _ _ hfind
    obtain ⟨hlo, hhi⟩ : slot.entry.lowVA ≤ VA ∧ VA ≤ slot.entry.highVA := by
      simpa [TlbSlot.overlaps] using hov
    obtain ⟨D, hwalk⟩ := tlbLookup_of_entryWalks
      (hc slot (findTLBEntry_mem _ _ hfind) hreal hmatch) hlo hhi (validateTLBEntryPriv_perm hv) hD
    exact ⟨_, none, hwalk, rfl⟩
  · rw [(tlbMissLookup_of_null rt xlen ctx mode attrs req (congrArg TlbFill.result hf)).1] at h
    cases h
  · -- the entry of the walk itself
    rw [tlbMissLookup_of_entry rt xlen ctx mode attrs req hf] at h
    cases h
    exact ⟨e', w, hw, rfl⟩

end Coherent

/-! ### Runs in one address space -/

/-- What the hart does to its translation state: an access through the TLB
miss path, in the context of its time, or an operation of the TLB alone,
such as an `sfence.vma` form. -/
inductive VmOp where
  | access (ctx : PtwContext) (mode : RiscvMode) (attrs : MemAccessAttrs) (requiredPriv : MemPriv)
      (VA : UInt64)
  | tlbOp (op : TlbOp)

/-- One operation: an access is the lookup of `tlbMiss`; an operation of the
TLB alone leaves the page tables as they are. -/
def vmStep (rt : RangeTable) (sv : SvMode) (xlen : ℕ) (s : VmState) : VmOp → VmState
  | .access ctx mode attrs requiredPriv VA =>
    (tlbMissLookup rt sv xlen ctx mode attrs requiredPriv s VA).2
  | .tlbOp op => { s with tlb := tlbStep rt s.tlb op }

/-- The operations of the address space of `ctx`: every access is made in a
context of that address space, and the TLB alone is only invalidated, never
filled from other page tables. -/
def VmOp.InSpace (ctx : PtwContext) : VmOp → Prop
  | .access ctx' .. => ctx.SameSpace ctx'
  | .tlbOp (.lookup ..) => False
  | .tlbOp _ => True

section Run

variable {rt : RangeTable} {sv : SvMode} (hsv : sv.WF) {xlen : ℕ} {ctx : PtwContext}
include hsv

/-- Every operation of the address space keeps the TLB coherent. -/
lemma vmStep_coherent {s : VmState} {op : VmOp} (hop : op.InSpace ctx)
    (hc : TlbCoherent sv xlen ctx s.mem s.tlb) :
    TlbCoherent sv xlen ctx (vmStep rt sv xlen s op).mem (vmStep rt sv xlen s op).tlb := by
  cases op with
  | access ctx' mode attrs req VA => exact tlbMissLookup_coherent rt hsv hop mode attrs req VA hc
  | tlbOp op =>
    -- an invalidation only deletes entries
    cases op with
    | lookup => exact hop.elim
    | invalidateAll ASIDMask => exact hc.sublist (invalidateTLBEntriesRange_sublist ..)
    | invalidateAllASID xlen ASIDMask ASID =>
      exact hc.sublist (invalidateTLBEntriesRange_sublist ..)
    | invalidateVA ASIDMask VA => exact hc.sublist (invalidateTLBEntriesRange_sublist ..)
    | invalidateVAASID xlen ASIDMask VA ASID =>
      exact hc.sublist (invalidateTLBEntriesRange_sublist ..)

/-- Every run of the address space keeps the TLB coherent. -/
lemma run_tlbCoherent {s : VmState} (hc : TlbCoherent sv xlen ctx s.mem s.tlb) {ops : List VmOp}
    (hops : ∀ op ∈ ops, op.InSpace ctx) :
    TlbCoherent sv xlen ctx (StepSystem.run (vmStep rt sv xlen) s ops).mem
      (StepSystem.run (vmStep rt sv xlen) s ops).tlb := by
  refine StepSystem.run_invariant (I := fun s : VmState => TlbCoherent sv xlen ctx s.mem s.tlb)
    ?_ hc hops
  intro s op hop hs
  exact vmStep_coherent hsv hop hs

end Run

/-- **The TLB refines the page table walk**: from the empty TLB, whatever
order the range table keeps, after any run of accesses in one address space,
whatever the rest of their context, artifact accesses included, and of
`sfence.vma` forms, with the page tables changed only by the walks' own A/D
updates, every entry the lookup of `tlbMiss` serves is, up to `A` and `D`,
what the walk of the current page tables gives. -/
theorem tlbMissLookup_refines_walk (rt : RangeTable) {sv : SvMode} (hsv : sv.WF) (xlen : ℕ)
    (ctx : PtwContext) {s₀ : VmState} (h₀ : s₀.tlb = []) {ops : List VmOp}
    (hops : ∀ op ∈ ops, op.InSpace ctx) (mode : RiscvMode) (attrs : MemAccessAttrs) (req : MemPriv)
    (VA : UInt64) {e : TlbEntry}
    (h : (tlbMissLookup rt sv xlen ctx mode attrs req (StepSystem.run (vmStep rt sv xlen) s₀ ops)
      VA).1 = some e) :
    ∃ e' w, tlbLookup sv ctx (StepSystem.run (vmStep rt sv xlen) s₀ ops).mem mode VA req =
      .ok (e', w) ∧ { e' with A := e.A, D := e.D } = e := by
  -- the empty TLB is coherent, and every operation of the run keeps it so
  have hc₀ : TlbCoherent sv xlen ctx s₀.mem s₀.tlb := by
    rw [h₀]
    simp [TlbCoherent]
  exact tlbMissLookup_walk (run_tlbCoherent hsv hc₀ hops) h

/-- From the empty TLB over the flat table, a read at address `0x1000`
fills the gigapage entry, which then serves a read at `0x2000`. -/
theorem tlbMissLookup_refines_walk_flat_table :
    ∃ e' w, tlbLookup Sv39 flatHart (StepSystem.run (vmStep frontTable Sv39 64) ⟨[], flatTable⟩
        [VmOp.access flatHart .supervisor ⟨false⟩ MemPriv.R 0x1000]).mem .supervisor 0x2000
          MemPriv.R = .ok (e', w) ∧
      { e' with A := true, D := true } = ⟨0, 0x3FFFFFFF, 0, MemPriv.RWX, false, true, true, true⟩ :=
  @tlbMissLookup_refines_walk frontTable Sv39 Sv39_WF 64 flatHart ⟨[], flatTable⟩ rfl
    [VmOp.access flatHart .supervisor ⟨false⟩ MemPriv.R 0x1000]
    (by simp [VmOp.InSpace, PtwContext.SameSpace]) .supervisor ⟨false⟩ MemPriv.R 0x2000
    ⟨0, 0x3FFFFFFF, 0, MemPriv.RWX, false, true, true, true⟩ (by rfl)

end RiscvOvpsim
