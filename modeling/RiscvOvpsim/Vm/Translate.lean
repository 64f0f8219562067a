import RiscvOvpsim.Vm.PageWalk
import RiscvOvpsim.Lib.Bits

/-!
The virtual address translation process of the privileged architecture
(version 1.11, section 4.3.2), and that the page table walks of `riscvVM.c`
carry it out.

* `translate`: the algorithm in the order the architecture states it: the
  check of the bits above the translated ones, the walk to a leaf
  (`walkTable`, steps 2 to 4), the permission check (`leafAllows`, step 5),
  the superpage alignment check (step 6), the A/D update (`adUpdate`,
  step 7) and the physical address (step 8).  It raises a page fault or an
  access fault, each of the access type (`TranslationFault.exception`).
* `SvMode.WF`: the facts about the field widths the agreement needs; Sv32,
  Sv39 and Sv48 have them.
* `tlbLookup_agrees`: for every page table memory, `satp`, virtual address,
  mode, `MXR`, `SUM`, version, A/D option and access type, the walk returns
  the exception the algorithm raises, or the entry of the naturally aligned
  page of the leaf around the address, mapping it to the algorithm's physical
  address, with the PTE write the algorithm makes.  An artifact access
  (`riscv->artifactAccess`) makes no write: its walk is the real walk over
  the memory in which no write faults (`tlbLookupPTE_artifact`), so it agrees
  with the algorithm over that memory, and writes nothing.
* `tlbLookupSv_agrees`: the same for the three walkers of the source.
-/

namespace RiscvOvpsim

open RiscvException

/-! ### The translation algorithm -/

/-- The faults of the algorithm: a page fault, or an access fault when a PTE
cannot be read or written. -/
inductive TranslationFault where
  | page
  | access
  deriving DecidableEq, Repr

/-- The exception a fault raises: that of the access type. -/
def TranslationFault.exception (req : MemPriv) : TranslationFault → ℕ
  | .access =>
      if req.x then InstructionAccessFault else if req.w then StoreAMOAccessFault
      else LoadAccessFault
  | .page =>
      if req.x then InstructionPageFault else if req.w then StoreAMOPageFault
      else LoadPageFault

/-- A translation that succeeds: the level of the leaf PTE and its address,
the physical address, and the PTE written back, if any. -/
structure Translation where
  level : ℕ
  pteAddr : UInt64
  pa : ℕ
  update : Option UInt64

section Reference

variable (sv : SvMode) (ctx : PtwContext) (mem : PtwMemory)

/-- `va.vpn[i]`. -/
def vpn (va i : ℕ) : ℕ := va / 2 ^ (12 + i * sv.vpnShift) % 2 ^ sv.vpnShift

/-- `pte.ppn`, as a number. -/
def ppnOf (pte : UInt64) : ℕ := pte.toNat / 2 ^ 10 % 2 ^ sv.ppnBits

/-- The addresses the encoding translates: the bits above the translated ones
copy the highest of them, so the address lies in the lowest or the highest
`2 ^ (12 + levels * vpnShift - 1)` addresses of its `vaBits`-bit space. -/
def vaCanonical (va : ℕ) : Bool :=
  decide (va < 2 ^ (12 + sv.levels * sv.vpnShift - 1) ∨
    2 ^ sv.vaBits - 2 ^ (12 + sv.levels * sv.vpnShift - 1) ≤ va)

/-- Steps 2 to 4: from the table at `a`, with `n` levels left, read PTEs down
to a leaf, one with `R` or `X` set. -/
def walkTable (va : ℕ) : ℕ → ℕ → Except TranslationFault (ℕ × UInt64 × UInt64)
  | 0, _ => .error .page
  | i + 1, a =>
      let pteAddr := UInt64.ofNat (a + vpn sv va i * sv.entryBytes)
      if mem.readFault pteAddr then .error .access
      else
        let pte := readPageTableEntry mem pteAddr sv.entryBytes
        let p := ptePriv pte
        if !pteV pte || (!p.r && p.w) then .error .page
        else if p.r || p.x then .ok (i, pteAddr, pte)
        else walkTable va i (ppnOf sv pte * 2 ^ 12)

/-- Step 5: whether a leaf with privilege `p` and user bit `u` allows the
access `req`. -/
def leafAllows (mode : RiscvMode) (p : MemPriv) (u : Bool) (req : MemPriv) : Bool :=
  -- MXR makes executable pages readable
  let rwx := (!req.r || p.r || (ctx.MXR && p.x)) && (!req.w || p.w) && (!req.x || p.x)
  -- User mode needs U; a higher mode reaches a U page only with SUM, and from
  -- version 1.11 never to execute it
  let user :=
    if mode = .user then u
    else !u || (ctx.SUM && (!req.x || decide (ctx.privVersion < .v1_11)))
  rwx && user

/-- Step 7: `none` for a page fault, else the PTE to write back, if any: `A`
set and, for a store, `D` set, when they are not set already. -/
def adUpdate (pte : UInt64) (req : MemPriv) : Option (Option UInt64) :=
  let needA := !pteA pte
  let needD := req.w && !pteD pte
  if needA || needD then
    if (needA && !ctx.updatePTEA) || (needD && !ctx.updatePTED) then none
    else some (some (if req.w then pteSetD (pteSetA pte) else pteSetA pte))
  else some none

/-- The translation of `va` for an access `req` in mode `mode`. -/
def translate (mode : RiscvMode) (va : UInt64) (req : MemPriv) :
    Except TranslationFault Translation := do
  if !vaCanonical sv va.toNat then throw .page
  let (i, pteAddr, pte) ←
    walkTable sv mem va.toNat sv.levels (ctx.satp.toNat % 2 ^ sv.ppnBits * 2 ^ 12)
  if !leafAllows ctx mode (ptePriv pte) (pteU pte) req then throw .page
  -- step 6: a superpage must be aligned
  if ppnOf sv pte % 2 ^ (i * sv.vpnShift) ≠ 0 then throw .page
  -- step 8: the page number above the level from the PTE, below it from `va`
  let pa := ppnOf sv pte / 2 ^ (i * sv.vpnShift) * 2 ^ (12 + i * sv.vpnShift) +
    va.toNat % 2 ^ (12 + i * sv.vpnShift)
  match adUpdate ctx pte req with
  | none => throw .page
  | some none => return ⟨i, pteAddr, pa, none⟩
  | some (some pte') =>
      if mem.writeFault pteAddr then throw .access
      else return ⟨i, pteAddr, pa, some pte'⟩

end Reference

/-! ### Agreement -/

/-- The page table memory a walk is checked against: the memory itself, and
for an artifact access, which writes no PTE and so meets no write fault, the
memory in which no write faults. -/
def PtwContext.walkMemory (ctx : PtwContext) (mem : PtwMemory) : PtwMemory :=
  if ctx.artifactAccess then { mem with writeFault := fun _ => false } else mem

/-- A walk agrees with a translation of `va` when both raise related errors,
or when the walk's entry is the naturally aligned page of the leaf's level
around `va`, maps `va` to the translation's physical address, and the walk
writes back what the translation does when it `writes`, and nothing
otherwise. -/
def WalkAgrees {ε ε' : Type} (sv : SvMode) (writes : Bool) (sameError : ε → ε' → Prop)
    (va : UInt64) (walk : Except ε (TlbEntry × Option (UInt64 × UInt64)))
    (ref : Except ε' Translation) : Prop :=
  match walk, ref with
  | .ok (entry, w), .ok t =>
      entry.lowVA.toNat = va.toNat / 2 ^ (12 + t.level * sv.vpnShift) *
          2 ^ (12 + t.level * sv.vpnShift) ∧
        entry.highVA.toNat = entry.lowVA.toNat + 2 ^ (12 + t.level * sv.vpnShift) - 1 ∧
        (entry.PA + (va - entry.lowVA)).toNat = t.pa ∧
        w = if writes then t.update.map fun v => (t.pteAddr, v) else none
  | .error e, .error e' => sameError e e'
  | _, _ => False

/-- Dropping the write of a walk that agrees gives a walk that agrees and
writes nothing. -/
lemma WalkAgrees.erase_write {ε ε' : Type} {sv : SvMode} {sameError : ε → ε' → Prop}
    {va : UInt64} {walk : Except ε (TlbEntry × Option (UInt64 × UInt64))}
    {ref : Except ε' Translation} (h : WalkAgrees sv true sameError va walk ref) :
    WalkAgrees sv false sameError va ((fun r => (r.1, none)) <$> walk) ref := by
  rcases walk with e | ⟨entry, w⟩ <;> rcases ref with e' | t <;>
    simp only [WalkAgrees, Functor.map, Except.map] at h ⊢
  · exact h
  · exact ⟨h.1, h.2.1, h.2.2.1, rfl⟩

/-- The widths for which the walk carries out the algorithm: the physical
page numbers, the translated part of a virtual address and the pages of
every level fit in 64 bits, and `validVA` is the canonical address check. -/
structure SvMode.WF (sv : SvMode) : Prop where
  ppnBits_lt : sv.ppnBits + 12 < 64
  levelBits_le : 12 + sv.levels * sv.vpnShift ≤ sv.vaBits
  levelBits_lt : 12 + sv.levels * sv.vpnShift < 64
  vaBits_le : sv.vaBits ≤ 64
  validVA_iff : ∀ va : UInt64, va.toNat < 2 ^ sv.vaBits →
    (sv.extend && !validVA (signedField va 12 (sv.levels * sv.vpnShift))
      (signedField va (12 + sv.levels * sv.vpnShift) (64 - 12 - sv.levels * sv.vpnShift))) =
      !vaCanonical sv va.toNat

theorem Sv32_WF : Sv32.WF where
  ppnBits_lt := by decide
  levelBits_le := by decide
  levelBits_lt := by decide
  vaBits_le := by decide
  validVA_iff va hva := by
    have hc : vaCanonical Sv32 va.toNat = true := by
      unfold vaCanonical
      rw [decide_eq_true_iff]
      simp only [Sv32] at hva ⊢
      omega
    rw [hc]
    rfl

theorem Sv39_WF : Sv39.WF where
  ppnBits_lt := by decide
  levelBits_le := by decide
  levelBits_lt := by decide
  vaBits_le := by decide
  validVA_iff va hva := by
    have hlt := va.toNat_lt
    show (!validVA (signedField va 12 27) (signedField va 39 25)) =
      !decide (va.toNat < 2 ^ 38 ∨ 2 ^ 64 - 2 ^ 38 ≤ va.toNat)
    congr 1
    unfold validVA signedField
    norm_num
    split_ifs <;> simp only [← Bool.decide_or, decide_eq_decide] <;> omega

theorem Sv48_WF : Sv48.WF where
  ppnBits_lt := by decide
  levelBits_le := by decide
  levelBits_lt := by decide
  vaBits_le := by decide
  validVA_iff va hva := by
    have hlt := va.toNat_lt
    show (!validVA (signedField va 12 36) (signedField va 48 16)) =
      !decide (va.toNat < 2 ^ 47 ∨ 2 ^ 64 - 2 ^ 47 ≤ va.toNat)
    congr 1
    unfold validVA signedField
    norm_num
    split_ifs <;> simp only [← Bool.decide_or, decide_eq_decide] <;> omega

/-! ### Errors -/

/-- The fault of the algorithm a walk error stands for: a failed PTE read or
write is an access fault, every other error a page fault. -/
def PteError.fault : PteError → TranslationFault
  | .read | .write => .access
  | _ => .page

/-- For the access types the callers pass, `handlePTWException` raises the
exception of the fault. -/
lemma handlePTWException_eq {req : MemPriv}
    (hreq : req = MemPriv.R ∨ req = MemPriv.W ∨ req = MemPriv.X) (e : PteError) :
    handlePTWException req e = e.fault.exception req := by
  rcases hreq with rfl | rfl | rfl <;> cases e <;> decide

/-! ### The loop -/

lemma toNat_clearPageOffset (va : UInt64) :
    (va &&& ~~~0xFFF).toNat = va.toNat / 2 ^ 12 * 2 ^ 12 := by
  have h : (~~~0xFFF : UInt64) = 0 - UInt64.ofNat (2 ^ 12) := by decide
  rw [h, UInt64.toNat_and_neg_two_pow va (by norm_num)]

/-- The VPN field the walk indexes a table with is `va.vpn[i]`. -/
lemma getVPNi_eq_vpn (sv : SvMode) (va : UInt64) {i : ℕ} (hi : i < sv.levels) :
    getVPNi sv (va &&& ~~~0xFFF) i = vpn sv va.toNat i := by
  have hk : i * sv.vpnShift + sv.vpnShift ≤ sv.levels * sv.vpnShift := by
    rw [← Nat.succ_mul]
    exact Nat.mul_le_mul_right _ hi
  unfold getVPNi vpn
  rw [toNat_clearPageOffset, Nat.mul_div_cancel _ (Nat.two_pow_pos 12),
    Nat.div_two_pow_mod_two_pow_of_mod hk, Nat.div_div_eq_div_mul, ← pow_add]

lemma getPTETableAddress_ptePPN (sv : SvMode) (PTE : UInt64) :
    getPTETableAddress (ptePPN sv PTE) = UInt64.ofNat (ppnOf sv PTE * 2 ^ 12) :=
  UInt64.ofNat_shiftLeft_eq_mul _ (by decide)

/-- The checks of one level: `R=0, W=1` is reserved, and past it a PTE with
any of `R`, `W`, `X` has `R` or `X`. -/
lemma ptePriv_checks (p : MemPriv) :
    (p &&& MemPriv.RW = MemPriv.W ↔ (!p.r && p.w) = true) ∧
      ((!p.r && p.w) = false → (p ≠ MemPriv.none ↔ (p.r || p.x) = true)) := by
  obtain ⟨r, w, x⟩ := p
  cases r <;> cases w <;> cases x <;> decide

/-- The loop of the walk reads the PTEs the algorithm reads and ends where
it ends. -/
theorem ptwLoop_agrees (sv : SvMode) (mem : PtwMemory) (va : UInt64) :
    ∀ n, n ≤ sv.levels → ∀ a : ℕ,
      (ptwLoop sv mem (va &&& ~~~0xFFF) n (UInt64.ofNat a)).mapError PteError.fault =
        walkTable sv mem va.toNat n a
  | 0, _, _ => rfl
  | n + 1, hn, a => by
      have hvpn := getVPNi_eq_vpn sv va (show n < sv.levels by omega)
      simp only [ptwLoop, walkTable, hvpn, ← UInt64.ofNat_add]
      generalize UInt64.ofNat (a + vpn sv va.toNat n * sv.entryBytes) = pteAddr
      generalize readPageTableEntry mem pteAddr sv.entryBytes = PTE
      obtain ⟨hR0W1, hleaf⟩ := ptePriv_checks (ptePriv PTE)
      -- the checks of the level, in the order of the walk
      by_cases hr : mem.readFault pteAddr = true
      · simp [hr, Except.mapError, PteError.fault]
      by_cases hv : pteV PTE = true
      swap
      · simp [hr, hv, Except.mapError, PteError.fault]
      by_cases hw : (!(ptePriv PTE).r && (ptePriv PTE).w) = true
      · simp [hr, hv, hw, hR0W1.mpr hw, Except.mapError, PteError.fault]
      have hw' : (!(ptePriv PTE).r && (ptePriv PTE).w) = false := by simpa using hw
      have hnot : ¬ (ptePriv PTE &&& MemPriv.RW = MemPriv.W) := fun h => hw (hR0W1.mp h)
      by_cases hl : ((ptePriv PTE).r || (ptePriv PTE).x) = true
      · simp [hr, hv, hw', hnot, (hleaf hw').mpr hl, hl, Except.mapError]
      · -- a pointer to the next level
        have hnone : ¬ ptePriv PTE ≠ MemPriv.none := fun h => hl ((hleaf hw').mp h)
        simp only [hr, hv, hw', hnot, hnone, hl, Bool.not_true, Bool.false_or, Bool.false_eq_true,
          if_false]
        rw [getPTETableAddress_ptePPN]
        exact ptwLoop_agrees sv mem va n (by omega) _

/-! ### The leaf -/

section Leaf

variable {sv : SvMode} (hsv : sv.WF) {i : ℕ} (hi : i < sv.levels)
include hsv hi

lemma pageBits_lt : i * sv.vpnShift + 12 < 64 := by
  have := Nat.mul_le_mul_right sv.vpnShift hi.le
  have := hsv.levelBits_lt
  omega

lemma toNat_pageSize :
    ((1 : UInt64) <<< UInt64.ofNat (i * sv.vpnShift + 12)).toNat = 2 ^ (i * sv.vpnShift + 12) :=
  UInt64.toNat_one_shiftLeft (pageBits_lt hsv hi)

lemma pageSize_eq :
    (1 : UInt64) <<< UInt64.ofNat (i * sv.vpnShift + 12) =
      UInt64.ofNat (2 ^ (i * sv.vpnShift + 12)) := by
  have hlt : 2 ^ (i * sv.vpnShift + 12) < 2 ^ 64 :=
    Nat.pow_lt_pow_right (by norm_num) (pageBits_lt hsv hi)
  apply UInt64.toNat_inj.mp
  rw [toNat_pageSize hsv hi, UInt64.toNat_ofNat', Nat.mod_eq_of_lt hlt]

omit hi in
lemma toNat_leafPA (PTE : UInt64) : (ptePPN sv PTE <<< 12).toNat = ppnOf sv PTE * 2 ^ 12 := by
  have hppn : ppnOf sv PTE < 2 ^ sv.ppnBits := Nat.mod_lt _ (Nat.two_pow_pos _)
  have hlt : ppnOf sv PTE * 2 ^ 12 < 2 ^ 64 := by
    calc ppnOf sv PTE * 2 ^ 12 < 2 ^ sv.ppnBits * 2 ^ 12 :=
          Nat.mul_lt_mul_of_pos_right hppn (Nat.two_pow_pos 12)
      _ = 2 ^ (sv.ppnBits + 12) := (pow_add 2 _ _).symm
      _ ≤ 2 ^ 64 := Nat.pow_le_pow_right (by norm_num) hsv.ppnBits_lt.le
  change (getPTETableAddress (ptePPN sv PTE)).toNat = _
  rw [getPTETableAddress_ptePPN, UInt64.toNat_ofNat', Nat.mod_eq_of_lt hlt]

/-- The alignment check of the walk is step 6: the PPN of a superpage leaf
has no bits below its level. -/
lemma leafPA_align_iff (PTE : UInt64) :
    (ptePPN sv PTE <<< 12 &&& ((1 : UInt64) <<< UInt64.ofNat (i * sv.vpnShift + 12) - 1) ≠ 0) ↔
      ppnOf sv PTE % 2 ^ (i * sv.vpnShift) ≠ 0 := by
  have hone : (1 : UInt64) ≤ (1 : UInt64) <<< UInt64.ofNat (i * sv.vpnShift + 12) := by
    rw [UInt64.le_iff_toNat_le, toNat_pageSize hsv hi, UInt64.toNat_one]
    exact Nat.one_le_two_pow
  have hmask : ((1 : UInt64) <<< UInt64.ofNat (i * sv.vpnShift + 12) - 1).toNat =
      2 ^ (i * sv.vpnShift + 12) - 1 := by
    rw [UInt64.toNat_sub_of_le _ _ hone, toNat_pageSize hsv hi, UInt64.toNat_one]
  rw [Ne, Ne, ← UInt64.toNat_inj, UInt64.toNat_and, hmask, toNat_leafPA hsv,
    Nat.and_two_pow_sub_one_eq_mod, pow_add, Nat.mul_mod_mul_right, UInt64.toNat_zero]
  simp

/-- The entry starts at the page of the leaf's level around `va`. -/
lemma toNat_fillEntry_lowVA (ctx : PtwContext) (va PTE : UInt64) :
    (fillEntry sv ctx (va &&& ~~~0xFFF) i PTE).lowVA.toNat =
      va.toNat / 2 ^ (12 + i * sv.vpnShift) * 2 ^ (12 + i * sv.vpnShift) := by
  simp only [fillEntry]
  rw [pageSize_eq hsv hi, UInt64.toNat_and_neg_two_pow _ (pageBits_lt hsv hi),
    toNat_clearPageOffset, Nat.div_two_pow_mul_div_two_pow_mul (by omega), Nat.add_comm]

/-- The entry ends at the end of that page. -/
lemma toNat_fillEntry_highVA (ctx : PtwContext) (va PTE : UInt64) :
    (fillEntry sv ctx (va &&& ~~~0xFFF) i PTE).highVA.toNat =
      (fillEntry sv ctx (va &&& ~~~0xFFF) i PTE).lowVA.toNat + 2 ^ (12 + i * sv.vpnShift) - 1 := by
  have hend := Nat.div_two_pow_mul_add_two_pow_le va.toNat_lt
    (show 12 + i * sv.vpnShift ≤ 64 by have := pageBits_lt hsv hi; omega)
  have hpos := Nat.two_pow_pos (12 + i * sv.vpnShift)
  have hlow := toNat_fillEntry_lowVA hsv hi ctx va PTE
  simp only [fillEntry] at hlow ⊢
  rw [UInt64.toNat_sub, UInt64.toNat_add, toNat_pageSize hsv hi, hlow, UInt64.toNat_one,
    Nat.add_comm (i * sv.vpnShift)]
  -- the page may end at the top of the address space, where the sum wraps to zero
  omega

/-- The entry maps `va` where step 8 does. -/
lemma toNat_fillEntry_PA_add (ctx : PtwContext) (va PTE : UInt64)
    (halign : ppnOf sv PTE % 2 ^ (i * sv.vpnShift) = 0) :
    ((fillEntry sv ctx (va &&& ~~~0xFFF) i PTE).PA +
        (va - (fillEntry sv ctx (va &&& ~~~0xFFF) i PTE).lowVA)).toNat =
      ppnOf sv PTE / 2 ^ (i * sv.vpnShift) * 2 ^ (12 + i * sv.vpnShift) +
        va.toNat % 2 ^ (12 + i * sv.vpnShift) := by
  have hlow := toNat_fillEntry_lowVA hsv hi ctx va PTE
  have hle : (fillEntry sv ctx (va &&& ~~~0xFFF) i PTE).lowVA ≤ va := by
    rw [UInt64.le_iff_toNat_le, hlow]
    exact Nat.div_mul_le_self _ _
  have hoff : (va - (fillEntry sv ctx (va &&& ~~~0xFFF) i PTE).lowVA).toNat =
      va.toNat % 2 ^ (12 + i * sv.vpnShift) := by
    rw [UInt64.toNat_sub_of_le _ _ hle, hlow, Nat.mod_def, Nat.mul_comm]
  have hppn : ppnOf sv PTE * 2 ^ 12 < 2 ^ 63 := by
    have hb : ppnOf sv PTE < 2 ^ sv.ppnBits := Nat.mod_lt _ (Nat.two_pow_pos _)
    calc ppnOf sv PTE * 2 ^ 12 < 2 ^ sv.ppnBits * 2 ^ 12 :=
          Nat.mul_lt_mul_of_pos_right hb (Nat.two_pow_pos 12)
      _ = 2 ^ (sv.ppnBits + 12) := (pow_add 2 _ _).symm
      _ ≤ 2 ^ 63 := Nat.pow_le_pow_right (by norm_num) (by have := hsv.ppnBits_lt; omega)
  have hmod : va.toNat % 2 ^ (12 + i * sv.vpnShift) < 2 ^ 63 :=
    lt_of_lt_of_le (Nat.mod_lt _ (Nat.two_pow_pos _))
      (Nat.pow_le_pow_right (by norm_num) (by have := pageBits_lt hsv hi; omega))
  have hsum : ppnOf sv PTE * 2 ^ 12 + va.toNat % 2 ^ (12 + i * sv.vpnShift) < 2 ^ 64 := by
    have h63 : (2 : ℕ) ^ 64 = 2 ^ 63 + 2 ^ 63 := by norm_num
    rw [h63]
    exact Nat.add_lt_add hppn hmod
  -- the PPN is aligned to the level, so its low part is the page of `va`
  have hsplit : ppnOf sv PTE * 2 ^ 12 =
      ppnOf sv PTE / 2 ^ (i * sv.vpnShift) * 2 ^ (12 + i * sv.vpnShift) := by
    rw [pow_add, Nat.mul_comm (2 ^ 12), ← Nat.mul_assoc,
      Nat.div_mul_cancel (Nat.dvd_of_mod_eq_zero halign)]
  have hPA : (fillEntry sv ctx (va &&& ~~~0xFFF) i PTE).PA.toNat = ppnOf sv PTE * 2 ^ 12 :=
    toNat_leafPA hsv PTE
  rw [UInt64.toNat_add, hPA, hoff, Nat.mod_eq_of_lt hsum, hsplit]

end Leaf

/-! ### Permissions -/

/-- With `MXR` an executable page is also readable: the privilege
`checkEntryPermission` extends allows what the first part of step 5 does. -/
lemma le_mxr_iff (MXR : Bool) (p req : MemPriv) :
    req ≤ (if (p.x && MXR) = true then p ||| MemPriv.R else p) ↔
      ((!req.r || p.r || (MXR && p.x)) && (!req.w || p.w) && (!req.x || p.x)) = true := by
  have hr : (if (p.x && MXR) = true then p ||| MemPriv.R else p).r = (p.r || (MXR && p.x)) := by
    split_ifs with h <;> simp_all [MemPriv.R, Bool.and_comm]
  have hw : (if (p.x && MXR) = true then p ||| MemPriv.R else p).w = p.w := by
    split_ifs <;> simp [MemPriv.R]
  have hx : (if (p.x && MXR) = true then p ||| MemPriv.R else p).x = p.x := by
    split_ifs <;> simp [MemPriv.R]
  rw [MemPriv.le_def, hr, hw, hx]
  cases req.r <;> cases req.w <;> cases req.x <;> simp [and_assoc]

/-- For the access types the callers pass, `checkEntryPermission` refuses
exactly the accesses step 5 does not allow. -/
lemma checkEntryPermission_eq_none_iff {req : MemPriv}
    (hreq : req = MemPriv.R ∨ req = MemPriv.W ∨ req = MemPriv.X) (ctx : PtwContext)
    (mode : RiscvMode) (entry : TlbEntry) :
    checkEntryPermission ctx mode entry req = MemPriv.none ↔
      leafAllows ctx mode entry.priv entry.U req = false := by
  have hreq0 : req ≠ MemPriv.none := by
    rcases hreq with rfl | rfl | rfl <;> decide
  have hnone : ¬ req ≤ MemPriv.none := fun h => hreq0 (MemPriv.le_none_iff.mp h)
  -- the final test refuses exactly when the computed privilege lacks a bit of `req`
  have htest : ∀ P : MemPriv, (if P &&& req = req then P else MemPriv.none) = MemPriv.none ↔
      ¬ req ≤ P := by
    intro P
    by_cases h : req ≤ P
    · rw [if_pos (MemPriv.and_eq_right_iff_le.mpr h)]
      exact iff_of_false (fun hP => hnone (hP ▸ h)) (not_not.mpr h)
    · rw [if_neg (fun h' => h (MemPriv.and_eq_right_iff_le.mp h'))]
      exact iff_of_true rfl h
  have hv : RiscvPrivVer.v1_11 ≤ ctx.privVersion ↔ ¬ ctx.privVersion < .v1_11 := by
    show RiscvPrivVer.v1_11.toNat ≤ ctx.privVersion.toNat ↔
      ¬ ctx.privVersion.toNat < RiscvPrivVer.v1_11.toNat
    omega
  have hrwx := le_mxr_iff ctx.MXR entry.priv req
  unfold checkEntryPermission leafAllows
  dsimp only
  rw [htest, ← Bool.not_eq_true, not_iff_not]
  generalize (if (entry.priv.x && ctx.MXR) = true then entry.priv ||| MemPriv.R else entry.priv) = p1
    at hrwx ⊢
  rw [Bool.and_eq_true, ← hrwx]
  -- the branches of the mode check, as the source orders them
  by_cases hm : mode = .user
  · simp only [hm, if_true]
    cases entry.U
    · simpa using hnone
    · simp
  · simp only [hm, if_false]
    cases entry.U
    · simp
    · cases ctx.SUM
      · simpa using hnone
      · by_cases hver : ctx.privVersion < .v1_11
        · simp [hver, hv]
        · -- from version 1.11 the page is not executable
          simp only [hv, hver, not_false_eq_true, if_true, Bool.not_true, Bool.false_eq_true,
            if_false]
          rw [MemPriv.le_diff_X]
          cases req.x <;> simp

/-- The leaf phase refuses what steps 5 and 6 refuse, and otherwise fills the
entry of the leaf's page. -/
lemma ptwLeaf_eq {sv : SvMode} (hsv : sv.WF) {i : ℕ} (hi : i < sv.levels) {req : MemPriv}
    (hreq : req = MemPriv.R ∨ req = MemPriv.W ∨ req = MemPriv.X)
    (ctx : PtwContext) (mode : RiscvMode) (VA PTE : UInt64) :
    ptwLeaf sv ctx mode VA req i PTE =
      if ppnOf sv PTE % 2 ^ (i * sv.vpnShift) ≠ 0 then .error .align
      else if leafAllows ctx mode (ptePriv PTE) (pteU PTE) req = false then .error .priv
      else .ok (fillEntry sv ctx VA i PTE) := by
  have hperm := checkEntryPermission_eq_none_iff hreq ctx mode (fillEntry sv ctx VA i PTE)
  simp only [fillEntry] at hperm
  unfold ptwLeaf
  simp only [leafPA_align_iff hsv hi, fillEntry, hperm]

/-! ### The A/D update -/

lemma pteSetA_of_pteA {PTE : UInt64} (h : pteA PTE = true) : pteSetA PTE = PTE := by
  apply UInt64.toNat_inj.mp
  rw [pteSetA, UInt64.toNat_or, show (0x40 : UInt64).toNat = 2 ^ 6 from rfl]
  apply Nat.eq_of_testBit_eq
  intro j
  rw [Nat.testBit_or, Nat.testBit_two_pow]
  by_cases hj : j = 6
  · subst hj
    simp only [pteA] at h
    simp [h]
  · simp [Ne.symm hj]

lemma pteSetD_of_pteD {PTE : UInt64} (h : pteD PTE = true) : pteSetD PTE = PTE := by
  apply UInt64.toNat_inj.mp
  rw [pteSetD, UInt64.toNat_or, show (0x80 : UInt64).toNat = 2 ^ 7 from rfl]
  apply Nat.eq_of_testBit_eq
  intro j
  rw [Nat.testBit_or, Nat.testBit_two_pow]
  by_cases hj : j = 7
  · subst hj
    simp only [pteD] at h
    simp [h]
  · simp [Ne.symm hj]

lemma pteD_pteSetA (PTE : UInt64) : pteD (pteSetA PTE) = pteD PTE := by
  rw [pteD, pteD, pteSetA, UInt64.toNat_or, show (0x40 : UInt64).toNat = 2 ^ 6 from rfl,
    Nat.testBit_or, Nat.testBit_two_pow]
  simp

/-- Two entries that cover the same range at the same physical address. -/
def TlbEntry.SameMapping (e e' : TlbEntry) : Prop :=
  e.lowVA = e'.lowVA ∧ e.highVA = e'.highVA ∧ e.PA = e'.PA

/-- The A/D update and the write of the walk are step 7, for an entry whose
`A` and `D` are those of its PTE. -/
lemma updateWrite_agrees {ctx : PtwContext} (hart : ctx.artifactAccess = false) (mem : PtwMemory)
    {entry : TlbEntry} {PTE : UInt64} (hA : entry.A = pteA PTE) (hD : entry.D = pteD PTE)
    (PTEAddr : UInt64) (req : MemPriv) :
    match adUpdate ctx PTE req with
    | none => ∃ e, ((setPTEA ctx entry PTE >>= setPTED ctx req) >>= writeBack ctx mem PTEAddr) =
        .error e ∧ e.fault = .page
    | some none => ∃ e', ((setPTEA ctx entry PTE >>= setPTED ctx req) >>= writeBack ctx mem PTEAddr) =
        .ok (e', none) ∧ e'.SameMapping entry
    | some (some v) =>
        if mem.writeFault PTEAddr then
          ∃ e, ((setPTEA ctx entry PTE >>= setPTED ctx req) >>= writeBack ctx mem PTEAddr) =
            .error e ∧ e.fault = .access
        else ∃ e', ((setPTEA ctx entry PTE >>= setPTED ctx req) >>= writeBack ctx mem PTEAddr) =
            .ok (e', some (PTEAddr, v)) ∧ e'.SameMapping entry := by
  -- the cases of A, D, the access and the options, as the source tests them
  cases hAv : pteA PTE <;> cases hDv : pteD PTE <;> cases hw : req.w <;>
    cases hua : ctx.updatePTEA <;> cases hud : ctx.updatePTED <;>
    cases hwf : mem.writeFault PTEAddr <;>
    simp [adUpdate, setPTEA, setPTED, writeBack, hA, hD, hAv, hDv, hw, hua, hud, hwf, hart, bind,
      Except.bind, PteError.fault, TlbEntry.SameMapping, pteSetA_of_pteA, pteSetD_of_pteD,
      pteD_pteSetA]

/-! ### The walk -/

/-- A leaf found with `n` levels left is at a level below `n`. -/
lemma walkTable_level_lt (sv : SvMode) (mem : PtwMemory) (va : ℕ) :
    ∀ {n a i : ℕ} {pteAddr pte : UInt64}, walkTable sv mem va n a = .ok (i, pteAddr, pte) → i < n
  | 0, _, _, _, _, h => by simp [walkTable] at h
  | n + 1, a, i, pteAddr, pte, h => by
      simp only [walkTable] at h
      split_ifs at h with hr hv hl
      · cases h
        omega
      · have := walkTable_level_lt sv mem va h
        omega

/-- The translation ends at a level the walk reaches. -/
lemma translate_level_lt (sv : SvMode) (ctx : PtwContext) (mem : PtwMemory) {mode : RiscvMode}
    {va : UInt64} {req : MemPriv} {t : Translation}
    (h : translate sv ctx mem mode va req = .ok t) : t.level < sv.levels := by
  unfold translate at h
  rcases hw : walkTable sv mem va.toNat sv.levels (ctx.satp.toNat % 2 ^ sv.ppnBits * 2 ^ 12) with
    e | ⟨i, pteAddr, pte⟩ <;> simp only [hw, bind, Except.bind] at h <;> revert h
  · -- the walk's error is the translation's
    split_ifs <;> simp
  · -- every result of the translation is at the leaf's level `i`
    have hi := walkTable_level_lt sv mem va.toNat hw
    split_ifs <;> rcases adUpdate ctx pte req with _ | _ | pte' <;>
      simp [throw, throwThe, MonadExceptOf.throw, pure, Except.pure] <;>
      rintro rfl <;> exact hi

lemma getRootTableAddress_eq (sv : SvMode) (satp : UInt64) :
    getRootTableAddress sv satp = UInt64.ofNat (satp.toNat % 2 ^ sv.ppnBits * 2 ^ 12) :=
  UInt64.ofNat_shiftLeft_eq_mul _ (by decide)

variable {sv : SvMode} {ctx : PtwContext} (mem : PtwMemory)

/-- The walk of a real access carries out the translation algorithm, up to
the error, with the PTE write the algorithm makes. -/
lemma tlbLookupPTE_agrees_real (hsv : sv.WF) (hart : ctx.artifactAccess = false)
    (mode : RiscvMode) {va : UInt64} (hva : va.toNat < 2 ^ sv.vaBits) {req : MemPriv}
    (hreq : req = MemPriv.R ∨ req = MemPriv.W ∨ req = MemPriv.X) :
    WalkAgrees sv true (fun e f => e.fault = f) va (tlbLookupPTE sv ctx mem mode va req)
      (translate sv ctx mem mode va req) := by
  have hVA : UInt64.ofNat (va.toNat % 2 ^ sv.vaBits) = va := by
    rw [Nat.mod_eq_of_lt hva, UInt64.ofNat_toNat]
  have hcheck := hsv.validVA_iff va hva
  unfold tlbLookupPTE translate
  simp only [hVA, hcheck, getRootTableAddress_eq]
  by_cases hc : vaCanonical sv va.toNat = true
  swap
  · -- outside the translated addresses both fail with a page fault
    simp [hc, WalkAgrees, bind, Except.bind, throw, throwThe, MonadExceptOf.throw, PteError.fault]
  simp only [hc, Bool.not_true, Bool.false_eq_true, if_false]
  have hloop := ptwLoop_agrees sv mem va sv.levels le_rfl (ctx.satp.toNat % 2 ^ sv.ppnBits * 2 ^ 12)
  rcases hcode : ptwLoop sv mem (va &&& ~~~0xFFF) sv.levels
    (UInt64.ofNat (ctx.satp.toNat % 2 ^ sv.ppnBits * 2 ^ 12)) with e | ⟨i, PTEAddr, PTE⟩
  · -- the loop fails as the walk of the algorithm does
    rw [hcode] at hloop
    rw [← hloop]
    simp [WalkAgrees, Except.mapError, bind, Except.bind]
  rw [hcode] at hloop
  rw [← hloop]
  have hi : i < sv.levels := walkTable_level_lt sv mem va.toNat hloop.symm
  simp only [bind, Except.bind, Except.mapError]
  rw [ptwLeaf_eq hsv hi hreq]
  by_cases hallow : leafAllows ctx mode (ptePriv PTE) (pteU PTE) req = true
  swap
  · -- step 5 refuses the access: both fail with a page fault
    have hf : leafAllows ctx mode (ptePriv PTE) (pteU PTE) req = false := by simpa using hallow
    by_cases halign : ppnOf sv PTE % 2 ^ (i * sv.vpnShift) = 0 <;>
      simp [hf, halign, WalkAgrees, PteError.fault, throw, throwThe, MonadExceptOf.throw]
  by_cases halign : ppnOf sv PTE % 2 ^ (i * sv.vpnShift) = 0
  swap
  · -- step 6 refuses a misaligned superpage
    simp [halign, WalkAgrees, PteError.fault, throw, throwThe, MonadExceptOf.throw]
  simp only [halign, hallow, ne_eq, not_true_eq_false, if_false, Bool.true_eq_false,
    Bool.not_true, Bool.false_eq_true]
  -- the leaf's entry, and the A/D update of step 7
  have had := updateWrite_agrees hart mem
    (show (fillEntry sv ctx (va &&& ~~~0xFFF) i PTE).A = pteA PTE from rfl) rfl PTEAddr req
  simp only [bind, Except.bind] at had
  have hlow := toNat_fillEntry_lowVA hsv hi ctx va PTE
  have hhigh := toNat_fillEntry_highVA hsv hi ctx va PTE
  have hpa := toNat_fillEntry_PA_add hsv hi ctx va PTE halign
  cases hu : adUpdate ctx PTE req with
  | none =>
      rw [hu] at had
      obtain ⟨e, he, hef⟩ := had
      rw [he]
      simp [WalkAgrees, hef, throw, throwThe, MonadExceptOf.throw]
  | some u =>
      cases u with
      | none =>
          rw [hu] at had
          obtain ⟨e', he, h1, h2, h3⟩ := had
          rw [he]
          simp only [WalkAgrees, pure, Except.pure]
          exact ⟨by rw [h1, hlow], by rw [h2, h1, hhigh], by rw [h3, h1, hpa], rfl⟩
      | some v =>
          rw [hu] at had
          by_cases hwf : mem.writeFault PTEAddr = true
          · simp only [hwf, if_true] at had ⊢
            obtain ⟨e, he, hef⟩ := had
            rw [he]
            simp [WalkAgrees, hef, throw, throwThe, MonadExceptOf.throw]
          · simp only [hwf, if_false, Bool.false_eq_true] at had ⊢
            obtain ⟨e', he, h1, h2, h3⟩ := had
            rw [he]
            simp only [WalkAgrees, pure, Except.pure]
            exact ⟨by rw [h1, hlow], by rw [h2, h1, hhigh], by rw [h3, h1, hpa], rfl⟩

/-- The walk reads the page tables, not where a write faults. -/
lemma ptwLoop_writeFault (wf : UInt64 → Bool) (VA : UInt64) :
    ∀ n a, ptwLoop sv { mem with writeFault := wf } VA n a = ptwLoop sv mem VA n a
  | 0, _ => rfl
  | n + 1, a => by
    simp only [ptwLoop, readPageTableEntry, ptwLoop_writeFault wf VA n]
    rfl

/-- The write-back of an artifact access is that of a real access over a
memory in which no write faults, with the write dropped. -/
lemma writeBack_artifact (hart : ctx.artifactAccess = true) (PTEAddr : UInt64)
    (u : TlbEntry × UInt64 × Bool) :
    writeBack ctx mem PTEAddr u = (fun r => (r.1, none)) <$>
      writeBack { ctx with artifactAccess := false } { mem with writeFault := fun _ => false }
        PTEAddr u := by
  obtain ⟨entry, PTE, doWrite⟩ := u
  cases doWrite <;> simp [writeBack, hart, Functor.map, Except.map]

/-- **An artifact walk is a real walk that writes nothing**: the walk of an
artifact access is the walk of a real one over the memory in which no write
faults, with its PTE write dropped. -/
lemma tlbLookupPTE_artifact (hart : ctx.artifactAccess = true) (mode : RiscvMode)
    (lowVA : UInt64) (req : MemPriv) :
    tlbLookupPTE sv ctx mem mode lowVA req = (fun r => (r.1, none)) <$>
      tlbLookupPTE sv { ctx with artifactAccess := false } (ctx.walkMemory mem) mode lowVA req := by
  have hmem : ctx.walkMemory mem = { mem with writeFault := fun _ => false } := by
    simp [PtwContext.walkMemory, hart]
  have hleaf : ptwLeaf sv { ctx with artifactAccess := false } = ptwLeaf sv ctx := rfl
  have hA : setPTEA { ctx with artifactAccess := false } = setPTEA ctx := rfl
  have hD : setPTED { ctx with artifactAccess := false } = setPTED ctx := rfl
  unfold tlbLookupPTE
  -- the stages before the write are those of the real walk; only the write differs
  simp only [hmem, ptwLoop_writeFault, hleaf, hA, hD]
  split_ifs <;> simp only [map_bind, ← writeBack_artifact mem hart]

/-- **The walk carries out the translation algorithm**, up to the error:
for every address the encoding covers and every access type the callers
pass, the walk fails with an error of the fault the algorithm raises, or
returns the entry of the page around the address; a real access makes the
PTE write the algorithm makes, an artifact access none, and agrees with the
algorithm over the memory in which no write faults. -/
theorem tlbLookupPTE_agrees (hsv : sv.WF) (mode : RiscvMode) {va : UInt64}
    (hva : va.toNat < 2 ^ sv.vaBits) {req : MemPriv}
    (hreq : req = MemPriv.R ∨ req = MemPriv.W ∨ req = MemPriv.X) :
    WalkAgrees sv (!ctx.artifactAccess) (fun e f => e.fault = f) va
      (tlbLookupPTE sv ctx mem mode va req) (translate sv ctx (ctx.walkMemory mem) mode va req) := by
  cases hart : ctx.artifactAccess
  · rw [PtwContext.walkMemory, if_neg (by simp [hart])]
    exact tlbLookupPTE_agrees_real mem hsv hart mode hva hreq
  · -- the real walk over the memory without write faults, whose write is dropped
    rw [tlbLookupPTE_artifact mem hart]
    exact (@tlbLookupPTE_agrees_real sv { ctx with artifactAccess := false } (ctx.walkMemory mem)
      hsv rfl mode va hva req hreq).erase_write

/-- The walk, with its errors turned into exceptions as `PTE_ERROR` does,
raises the exception of the algorithm's fault. -/
theorem tlbLookup_agrees (hsv : sv.WF) (mode : RiscvMode) {va : UInt64}
    (hva : va.toNat < 2 ^ sv.vaBits) {req : MemPriv}
    (hreq : req = MemPriv.R ∨ req = MemPriv.W ∨ req = MemPriv.X) :
    WalkAgrees sv (!ctx.artifactAccess) Eq va (tlbLookup sv ctx mem mode va req)
      ((translate sv ctx (ctx.walkMemory mem) mode va req).mapError
        (TranslationFault.exception req)) := by
  have h := @tlbLookupPTE_agrees sv ctx mem hsv mode va hva req hreq
  unfold tlbLookup
  rcases hw : tlbLookupPTE sv ctx mem mode va req with e | ⟨entry, w⟩ <;>
    rcases hr : translate sv ctx (ctx.walkMemory mem) mode va req with f | t <;>
    rw [hw, hr] at h <;> simp only [WalkAgrees, Except.mapError] at h ⊢
  · rw [handlePTWException_eq hreq, h]
  · exact h

/-- The three walkers of the source against the translation algorithm at one
input: Sv32 for the 32-bit addresses it is given, Sv39 and Sv48 for every
address; an artifact access against the memory in which no write faults,
writing nothing. -/
def WalkersAgree (ctx : PtwContext) (mem : PtwMemory) (mode : RiscvMode) (va : UInt64)
    (req : MemPriv) : Prop :=
  (va.toNat < 2 ^ 32 → WalkAgrees Sv32 (!ctx.artifactAccess) Eq va (tlbLookupSv32 ctx mem mode va req)
      ((translate Sv32 ctx (ctx.walkMemory mem) mode va req).mapError
        (TranslationFault.exception req))) ∧
    WalkAgrees Sv39 (!ctx.artifactAccess) Eq va (tlbLookupSv39 ctx mem mode va req)
      ((translate Sv39 ctx (ctx.walkMemory mem) mode va req).mapError
        (TranslationFault.exception req)) ∧
    WalkAgrees Sv48 (!ctx.artifactAccess) Eq va (tlbLookupSv48 ctx mem mode va req)
      ((translate Sv48 ctx (ctx.walkMemory mem) mode va req).mapError
        (TranslationFault.exception req))

theorem tlbLookupSv_agrees (ctx : PtwContext) (mem : PtwMemory) (mode : RiscvMode) (va : UInt64)
    (req : MemPriv) (hreq : req = MemPriv.R ∨ req = MemPriv.W ∨ req = MemPriv.X) :
    WalkersAgree ctx mem mode va req :=
  ⟨fun hva => tlbLookup_agrees mem Sv32_WF mode hva hreq,
    tlbLookup_agrees mem Sv39_WF mode va.toNat_lt hreq,
    tlbLookup_agrees mem Sv48_WF mode va.toNat_lt hreq⟩

/-- A table whose every PTE is a valid leaf with full access, A and D set,
mapping page 0: a Supervisor read of `0x1234`. -/
theorem tlbLookupSv_agrees_flat_table :
    WalkersAgree ⟨1, false, false, .v20190405, true, true, 0, false⟩
      ⟨fun _ => 0xCF, fun _ => false, fun _ => false⟩ .supervisor 0x1234 MemPriv.R :=
  tlbLookupSv_agrees _ _ _ _ _ (Or.inl rfl)

end RiscvOvpsim
