import RiscvOvpsim.Vm.Miss
import RiscvOvpsim.Lib.StepSystem

/-!
The TLB of `riscvVM.c`: the table of the entries the page table walk filled,
how `findOrCreateTLBEntry` serves an address from it or walks and fills it,
and how the `sfence.vma` entry points `riscvVMInvalidate*` clear it.

The table is a list of entries, in the order in which the range table
(`vmirtGetFirstRangeEntry`, `vmirtGetNextRangeEntry`) visits them.  Where a
new entry joins that order is the range table's choice, outside the source:
a parameter `RangeTable`, and no result below depends on it.  A `tlbEntryP`
into the table is the split of the table around the entry
(`TlbResult.entry`), so that deleting or updating the entry is a list
operation.  Two flags of the source are kept apart: `riscv->artifactAccess`,
the hart's, marks the entries a walk makes and its PTE writes, and the
access attributes (`MemAccessAttrs`) decide whether a failed walk raises its
exception.

* `tlbLookup_ok`: what a walk that succeeds returns: the entry of its leaf,
  with `A` and `D` updated and `D` set for a write, and the access allowed;
* `findTLBEntry_spec`: the lookup returns the first entry, in table order,
  that holds the address, was not made by an artifact access and matches the
  ASID; it returns null only when there is none; and its scan deletes only
  entries of artifact accesses;
* `findOrCreateTLBEntry_null`, `findOrCreateTLBEntry_entry`: the lookup
  fails only when the walk raises an exception, and the entry it returns
  gives the access, is mapped with write only when dirty and holds the
  address;
* `iterTLBEntryRange_eq`: the invalidation loop keeps the entries it does not
  visit and the real ones the body spares; `mem_riscvVMInvalidateVA`:
  `sfence.vma` of an address deletes exactly the entries that hold it;
* `findOrCreateTLBEntry_after_invalidateVA`: after `sfence.vma` of an
  address, its next lookup is the page table walk;
* `findTLBEntry_after_invalidateVAASID`: after `sfence.vma` of an address
  and an ASID, the lookup of the address for that ASID finds only global
  entries;
* `tlbMissLookup_hit`: a real access that found or filled an entry is
  served the same entry again by the table it left;
* `reachable_tlbPages`: every TLB reachable from the empty one, by lookups
  and invalidations in any order, holds only naturally aligned pages;
* `tlbMissLookup_reachable`: the lookup of `tlbMiss` over such a TLB
  returns a naturally aligned page holding the address, the kind of entry
  the miss loop assumes, and leaves a reachable TLB;
* `riscvVMMiss_maps_access_tlb`: with that lookup, `riscvVMMiss` maps every
  byte of an access in a bounded number of passes, each mapping sound.
-/

namespace RiscvOvpsim

/-! ### What a successful walk returns -/

/-- Peel one bind of an `Except` computation that succeeded. -/
lemma except_bind_eq_ok {ε α β : Type} {x : Except ε α} {f : α → Except ε β} {b : β}
    (h : (x >>= f) = .ok b) : ∃ a, x = .ok a ∧ f a = .ok b := by
  cases x with
  | error e => simp [bind, Except.bind] at h
  | ok a => exact ⟨a, rfl, h⟩

/-- A leaf found with `n` levels left is at a level below `n`. -/
lemma ptwLoop_level_lt (sv : SvMode) (mem : PtwMemory) (VA : UInt64) :
    ∀ {n : ℕ} {a : UInt64} {i : ℕ} {PTEAddr PTE : UInt64},
      ptwLoop sv mem VA n a = .ok (i, PTEAddr, PTE) → i < n
  | 0, _, _, _, _, h => by simp [ptwLoop] at h
  | n + 1, a, i, PTEAddr, PTE, h => by
      simp only [ptwLoop] at h
      split_ifs at h
      · cases h
        omega
      · have := ptwLoop_level_lt sv mem VA h
        omega

section WalkResult

variable {sv : SvMode} {ctx : PtwContext} {mem : PtwMemory} {mode : RiscvMode} {req : MemPriv}

lemma ptwLeaf_ok {VA : UInt64} {i : ℕ} {PTE : UInt64} {e : TlbEntry}
    (h : ptwLeaf sv ctx mode VA req i PTE = .ok e) :
    e = fillEntry sv ctx VA i PTE ∧
      checkEntryPermission ctx mode (fillEntry sv ctx VA i PTE) req ≠ MemPriv.none := by
  unfold ptwLeaf at h
  dsimp only at h
  split_ifs at h with h1 h2
  cases h
  exact ⟨rfl, h2⟩

/-- The A update changes `A` only. -/
lemma setPTEA_ok {entry e : TlbEntry} {PTE PTE' : UInt64} {doWrite : Bool}
    (h : setPTEA ctx entry PTE = .ok (e, PTE', doWrite)) : ∃ A, e = { entry with A := A } := by
  unfold setPTEA at h
  split_ifs at h <;> cases h
  · exact ⟨entry.A, rfl⟩
  · exact ⟨true, rfl⟩

/-- The D update changes `D` only, and leaves it set for a write. -/
lemma setPTED_ok {entry e : TlbEntry} {PTE PTE' : UInt64} {b doWrite : Bool}
    (h : setPTED ctx req (entry, PTE, b) = .ok (e, PTE', doWrite)) :
    ∃ D, e = { entry with D := D } ∧ (req.w = true → D = true) := by
  simp only [setPTED] at h
  split_ifs at h with h1 h2 <;> cases h
  · refine ⟨entry.D, rfl, fun hw => ?_⟩
    simpa [hw] using h1
  · exact ⟨true, rfl, fun _ => rfl⟩

lemma writeBack_ok {PTEAddr : UInt64} {u : TlbEntry × UInt64 × Bool} {e : TlbEntry}
    {w : Option (UInt64 × UInt64)} (h : writeBack ctx mem PTEAddr u = .ok (e, w)) : e = u.1 := by
  obtain ⟨entry, PTE, doWrite⟩ := u
  simp only [writeBack] at h
  split_ifs at h <;> cases h <;> rfl

/-- **What a walk that succeeds returns**: the entry of its leaf at a level
the walk reaches, for the address cut to the translated bits, with `A` and
`D` updated and `D` set for a write; the leaf's entry allows the access. -/
lemma tlbLookup_ok {VA : UInt64} {e : TlbEntry} {w : Option (UInt64 × UInt64)}
    (h : tlbLookup sv ctx mem mode VA req = .ok (e, w)) :
    ∃ i PTE A D, i < sv.levels ∧
      checkEntryPermission ctx mode
        (fillEntry sv ctx (UInt64.ofNat (VA.toNat % 2 ^ sv.vaBits) &&& ~~~0xFFF) i PTE) req ≠
          MemPriv.none ∧
      e = { fillEntry sv ctx (UInt64.ofNat (VA.toNat % 2 ^ sv.vaBits) &&& ~~~0xFFF) i PTE with
        A := A, D := D } ∧ (req.w = true → D = true) := by
  have hp : tlbLookupPTE sv ctx mem mode VA req = .ok (e, w) := by
    unfold tlbLookup at h
    rcases hp : tlbLookupPTE sv ctx mem mode VA req with _ | r <;> rw [hp] at h <;>
      simp_all [Except.mapError]
  unfold tlbLookupPTE at hp
  dsimp only at hp
  split_ifs at hp
  · simp [throw, throwThe, MonadExceptOf.throw, bind, Except.bind] at hp
  -- the stages of the walk, in order
  obtain ⟨⟨i, PTEAddr, PTE⟩, hloop, hp⟩ := except_bind_eq_ok hp
  obtain ⟨e0, hleaf, hp⟩ := except_bind_eq_ok hp
  obtain ⟨⟨e2, PTE2, b2⟩, hAD, hwb⟩ := except_bind_eq_ok hp
  obtain ⟨⟨e1, PTE1, b1⟩, hA, hD⟩ := except_bind_eq_ok hAD
  obtain ⟨rfl, hperm⟩ := ptwLeaf_ok hleaf
  obtain ⟨A, rfl⟩ := setPTEA_ok hA
  obtain ⟨D, rfl, hDw⟩ := setPTED_ok hD
  exact ⟨i, PTE, A, D, ptwLoop_level_lt sv mem _ hloop, hperm, writeBack_ok hwb, hDw⟩

end WalkResult

/-! ### Pages -/

/-- A naturally aligned block of `2 ^ p` bytes with `12 ≤ p < 64`: the shape
of every page a walk maps. -/
def TlbEntry.IsPage (e : TlbEntry) : Prop :=
  ∃ p, 12 ≤ p ∧ p < 64 ∧ e.lowVA.toNat % 2 ^ p = 0 ∧ e.highVA.toNat = e.lowVA.toNat + 2 ^ p - 1

/-- A page holding `va` is of the kind the miss loop assumes for `va`. -/
lemma TlbEntry.IsPage.coversAligned {e : TlbEntry} (he : e.IsPage) {va : UInt64}
    (hlo : e.lowVA ≤ va) (hhi : va ≤ e.highVA) : ∃ p < 64, e.CoversAligned va p := by
  obtain ⟨p, h12, h64, hal, hhigh⟩ := he
  exact ⟨p, h64, ⟨h12, hal, hhigh, hlo, hhi⟩⟩

section WalkPage

variable {sv : SvMode} (hsv : sv.WF) {ctx : PtwContext} {mem : PtwMemory} {mode : RiscvMode}
  {req : MemPriv} {VA : UInt64} {e : TlbEntry} {w : Option (UInt64 × UInt64)}
include hsv

/-- The entry of a walk is the page of its leaf's level around the address
cut to the translated bits. -/
lemma tlbLookup_block (h : tlbLookup sv ctx mem mode VA req = .ok (e, w)) :
    ∃ k, 12 ≤ k ∧ k < 64 ∧ e.lowVA.toNat = VA.toNat % 2 ^ sv.vaBits / 2 ^ k * 2 ^ k ∧
      e.highVA.toNat = e.lowVA.toNat + 2 ^ k - 1 := by
  obtain ⟨i, PTE, A, D, hi, -, rfl, -⟩ := tlbLookup_ok h
  have hk := pageBits_lt hsv hi
  have hcut : (UInt64.ofNat (VA.toNat % 2 ^ sv.vaBits)).toNat = VA.toNat % 2 ^ sv.vaBits := by
    have hlt : VA.toNat % 2 ^ sv.vaBits < 2 ^ 64 :=
      lt_of_lt_of_le (Nat.mod_lt _ (Nat.two_pow_pos _)) (Nat.pow_le_pow_right (by norm_num)
        hsv.vaBits_le)
    rw [UInt64.toNat_ofNat', Nat.mod_eq_of_lt hlt]
  have hlow := toNat_fillEntry_lowVA hsv hi ctx (UInt64.ofNat (VA.toNat % 2 ^ sv.vaBits)) PTE
  have hhigh := toNat_fillEntry_highVA hsv hi ctx (UInt64.ofNat (VA.toNat % 2 ^ sv.vaBits)) PTE
  rw [hcut] at hlow
  exact ⟨12 + i * sv.vpnShift, by omega, by omega, hlow, hhigh⟩

/-- Every entry a walk returns is a page. -/
lemma tlbLookup_isPage (h : tlbLookup sv ctx mem mode VA req = .ok (e, w)) : e.IsPage := by
  obtain ⟨k, h12, h64, hlow, hhigh⟩ := tlbLookup_block hsv h
  exact ⟨k, h12, h64, by rw [hlow]; exact Nat.mul_mod_left _ _, hhigh⟩

/-- The entry a walk returns for an address of the translated width holds
the address. -/
lemma tlbLookup_coversAligned_of_lt (hva : VA.toNat < 2 ^ sv.vaBits)
    (h : tlbLookup sv ctx mem mode VA req = .ok (e, w)) : ∃ p < 64, e.CoversAligned VA p := by
  obtain ⟨k, h12, h64, hlow, hhigh⟩ := tlbLookup_block hsv h
  rw [Nat.mod_eq_of_lt hva] at hlow
  exact ⟨k, h64, TlbEntry.coversAligned_of_block h12 hlow hhigh⟩

end WalkPage

/-! ### The table -/

/-- `riscvSimASID`: the ASID with the `mstatus` bits that decide how a
mapping may be used. -/
structure SimASID where
  ASID : ℕ
  MXR : Bool
  SUM : Bool
  deriving DecidableEq, Repr

/-- A `tlbEntry` as the table holds it: what the walk filled, the simulated
ASID it was last mapped with, and whether an artifact access made it. -/
structure TlbSlot where
  entry : TlbEntry
  simASID : SimASID
  artifact : Bool
  deriving DecidableEq, Repr

/-- The range table query: the entry overlaps `[lowVA, highVA]`. -/
def TlbSlot.overlaps (slot : TlbSlot) (lowVA highVA : UInt64) : Bool :=
  slot.entry.lowVA ≤ highVA && lowVA ≤ slot.entry.highVA

/-- `matchASID`: a global entry matches every ASID. -/
def matchASID (ASID : ℕ) (slot : TlbSlot) : Bool :=
  slot.entry.G || ASID == slot.simASID.ASID

/-- `getActiveASID`: the field `satp.ASID`, bits 22 to 30 on RV32 and 44 to
59 on RV64. -/
def getActiveASID (xlen : ℕ) (satp : UInt64) : ℕ :=
  if xlen = 32 then satp.toNat / 2 ^ 22 % 2 ^ 9 else satp.toNat / 2 ^ 44 % 2 ^ 16

/-- `getSimASID`. -/
def getSimASID (xlen : ℕ) (ctx : PtwContext) : SimASID :=
  ⟨getActiveASID xlen ctx.satp, ctx.MXR, ctx.SUM⟩

/-- A `tlbEntryP` with the table it points into: null, or an entry given by
the entries before it, itself and the entries after it. -/
inductive TlbResult where
  | null (tlb : List TlbSlot)
  | entry (before : List TlbSlot) (slot : TlbSlot) (after : List TlbSlot)
  deriving DecidableEq, Repr

namespace TlbResult

/-- The table. -/
def tlb : TlbResult → List TlbSlot
  | null tlb => tlb
  | entry before slot after => before ++ slot :: after

/-- The entry pointed to. -/
def slot? : TlbResult → Option TlbSlot
  | null _ => none
  | entry _ slot _ => some slot

/-- The result with `s` put in front of the table. -/
def cons (s : TlbSlot) : TlbResult → TlbResult
  | null tlb => null (s :: tlb)
  | entry before slot after => entry (s :: before) slot after

@[simp] lemma tlb_cons (s : TlbSlot) (r : TlbResult) : (r.cons s).tlb = s :: r.tlb := by
  cases r <;> rfl

@[simp] lemma slot?_cons (s : TlbSlot) (r : TlbResult) : (r.cons s).slot? = r.slot? := by
  cases r <;> rfl

end TlbResult

/-- `findTLBEntry`: the first entry, in table order, that holds `VA` and
matches `ASID`.  The scan visits the entries overlapping `[VA, VA]` and
deletes those of artifact accesses as it meets them (`getTLBEntryForRange`);
the entries after the one found are not visited. -/
def findTLBEntry (ASID : ℕ) (VA : UInt64) : List TlbSlot → TlbResult
  | [] => .null []
  | slot :: tlb =>
    if slot.overlaps VA VA then
      if slot.artifact then findTLBEntry ASID VA tlb
      else if matchASID ASID slot then .entry [] slot tlb
      else (findTLBEntry ASID VA tlb).cons slot
    else (findTLBEntry ASID VA tlb).cons slot

/-- `validateTLBEntryPriv`: the entry when it gives the access, with the
privilege to map it with (`miP->priv`), write taken away while the entry is
not dirty.  A write through an entry that is not dirty deletes the entry
(`deleteTLBEntry`), so that the walk sets `D`. -/
def validateTLBEntryPriv (ctx : PtwContext) (mode : RiscvMode) (requiredPriv : MemPriv) :
    TlbResult → TlbResult × Option MemPriv
  | .null tlb => (.null tlb, none)
  | .entry before slot after =>
    let priv := checkEntryPermission ctx mode slot.entry requiredPriv
    if priv = MemPriv.none then (.null (before ++ slot :: after), none)
    else if requiredPriv.w && !slot.entry.D then (.null (before ++ after), none)
    else (.entry before slot after, some (if !slot.entry.D then priv.diff MemPriv.W else priv))

/-- The VMI range table the TLB entries are kept in (`vmirtInsertRangeEntry`,
`vmirtGetFirstRangeEntry`, `vmirtGetNextRangeEntry`), outside the source: the
position at which an inserted entry joins the order in which the scans visit
the entries.  The other entries keep their order; where the new one goes,
in front, at the end or by its address, is the table's choice. -/
structure RangeTable where
  insertPos : TlbSlot → List TlbSlot → ℕ

/-- `vmirtInsertRangeEntry`: the table with `slot` inserted, as a pointer to
it. -/
def RangeTable.insert (rt : RangeTable) (slot : TlbSlot) (tlb : List TlbSlot) : TlbResult :=
  .entry (tlb.take (rt.insertPos slot tlb)) slot (tlb.drop (rt.insertPos slot tlb))

/-- `allocateTLBEntry`: the entry of the walk goes into the table, marked as
made by an artifact access when the hart is in one (`riscv->artifactAccess`);
its simulated ASID is zero, as `initialEntry` leaves it, until `tlbMiss`
sets it. -/
def allocateTLBEntry (rt : RangeTable) (artifactAccess : Bool) (entry : TlbEntry)
    (tlb : List TlbSlot) : TlbResult :=
  rt.insert ⟨entry, ⟨0, false, false⟩, artifactAccess⟩ tlb

/-- The table of an insertion is the old one with the entry at its position. -/
@[simp] lemma RangeTable.tlb_insert (rt : RangeTable) (slot : TlbSlot) (tlb : List TlbSlot) :
    (rt.insert slot tlb).tlb =
      tlb.take (rt.insertPos slot tlb) ++ slot :: tlb.drop (rt.insertPos slot tlb) := rfl

/-- The entries of the table after an insertion: the new one and the old
ones. -/
lemma RangeTable.mem_tlb_insert {rt : RangeTable} {slot x : TlbSlot} {tlb : List TlbSlot} :
    x ∈ (rt.insert slot tlb).tlb ↔ x = slot ∨ x ∈ tlb := by
  rw [RangeTable.tlb_insert, List.mem_append, List.mem_cons]
  constructor
  · rintro (h | h | h)
    · exact .inr (List.mem_of_mem_take h)
    · exact .inl h
    · exact .inr (List.mem_of_mem_drop h)
  · rintro (h | h)
    · exact .inr (.inl h)
    · rw [← List.take_append_drop (rt.insertPos slot tlb) tlb, List.mem_append] at h
      rcases h with h | h
      · exact .inl h
      · exact .inr (.inr h)

/-- The attributes of an access; `handleInvalidAccess` reads only whether it
is an artifact access (`MEM_AA_IS_ARTIFACT_ACCESS`). -/
structure MemAccessAttrs where
  artifact : Bool
  deriving DecidableEq, Repr

/-- What `findOrCreateTLBEntry` leaves: the entry (or null) with the table,
the privilege to map it with, the exception the hart takes and the PTE the
walk writes back. -/
structure TlbFill where
  result : TlbResult
  priv : Option MemPriv
  exception : Option ℕ
  write : Option (UInt64 × UInt64)
  deriving DecidableEq, Repr

/-- `findOrCreateTLBEntry`: an entry of the table for `VA` that gives the
access, else the entry of a page table walk, put in the range table `rt`.  A
walk that fails raises its exception, except for an access whose attributes
mark it as an artifact one (`handleInvalidAccess`). -/
def findOrCreateTLBEntry (rt : RangeTable) (sv : SvMode) (xlen : ℕ) (ctx : PtwContext)
    (mem : PtwMemory) (mode : RiscvMode) (attrs : MemAccessAttrs) (requiredPriv : MemPriv)
    (VA : UInt64) (tlb : List TlbSlot) : TlbFill :=
  match validateTLBEntryPriv ctx mode requiredPriv
      (findTLBEntry (getActiveASID xlen ctx.satp) VA tlb) with
  | (.entry before slot after, priv) => ⟨.entry before slot after, priv, none, none⟩
  | (.null tlb, _) =>
    match tlbLookup sv ctx mem mode VA requiredPriv with
    | .error exception => ⟨.null tlb, none, if attrs.artifact then none else some exception, none⟩
    | .ok (entry, write) =>
      let validated :=
        validateTLBEntryPriv ctx mode requiredPriv (allocateTLBEntry rt ctx.artifactAccess entry tlb)
      ⟨validated.1, validated.2, none, write⟩

/-- `writePageTableEntry`: the walk's write of a PTE. -/
def writePageTableEntry (mem : PtwMemory) (PTEAddr PTE : UInt64) : PtwMemory :=
  { mem with word := Function.update mem.word PTEAddr PTE }

/-- The state the lookups of `tlbMiss` change: the TLB and the page table
memory. -/
structure VmState where
  tlb : List TlbSlot
  mem : PtwMemory

/-- The page table memory after the walk's write of a PTE, when it made
one. -/
def applyPTEWrite (mem : PtwMemory) : Option (UInt64 × UInt64) → PtwMemory
  | none => mem
  | some (PTEAddr, PTE) => writePageTableEntry mem PTEAddr PTE

/-- The lookup of `tlbMiss`: `findOrCreateTLBEntry`, after which the entry
found takes the current simulated ASID (`entry->simASID = simASID`); the
walk's PTE write goes to the page table memory. -/
def tlbMissLookup (rt : RangeTable) (sv : SvMode) (xlen : ℕ) (ctx : PtwContext)
    (mode : RiscvMode) (attrs : MemAccessAttrs) (requiredPriv : MemPriv) (s : VmState)
    (VA : UInt64) : Option TlbEntry × VmState :=
  let fill := findOrCreateTLBEntry rt sv xlen ctx s.mem mode attrs requiredPriv VA s.tlb
  match fill.result with
  | .null tlb => (none, ⟨tlb, applyPTEWrite s.mem fill.write⟩)
  | .entry before slot after =>
    (some slot.entry, ⟨before ++ { slot with simASID := getSimASID xlen ctx } :: after,
      applyPTEWrite s.mem fill.write⟩)

/-! ### The lookup of the table -/

namespace TlbResult

lemma cons_eq_entry {s : TlbSlot} {r : TlbResult} {before after : List TlbSlot} {slot : TlbSlot}
    (h : r.cons s = .entry before slot after) :
    ∃ before', r = .entry before' slot after ∧ before = s :: before' := by
  cases r with
  | null tlb => cases h
  | entry b s' a =>
    cases h
    exact ⟨b, rfl, rfl⟩

lemma cons_eq_null {s : TlbSlot} {r : TlbResult} {tlb : List TlbSlot} (h : r.cons s = .null tlb) :
    ∃ tlb', r = .null tlb' ∧ tlb = s :: tlb' := by
  cases r with
  | null t =>
    cases h
    exact ⟨t, rfl, rfl⟩
  | entry b s' a => cases h

end TlbResult

@[simp] lemma TlbSlot.overlaps_self_iff (slot : TlbSlot) (VA : UInt64) :
    slot.overlaps VA VA = true ↔ slot.entry.lowVA ≤ VA ∧ VA ≤ slot.entry.highVA := by
  simp [TlbSlot.overlaps]

section Find

variable (ASID : ℕ) (VA : UInt64)

/-- The scan only deletes entries. -/
lemma findTLBEntry_sublist (tlb : List TlbSlot) :
    List.Sublist (findTLBEntry ASID VA tlb).tlb tlb := by
  induction tlb with
  | nil => exact List.Sublist.refl _
  | cons slot tlb ih =>
    simp only [findTLBEntry]
    split_ifs
    · exact ih.cons slot
    · exact List.Sublist.refl _
    · simpa using ih.cons_cons slot
    · simpa using ih.cons_cons slot

/-- The scan deletes only entries of artifact accesses. -/
lemma findTLBEntry_filter_real (tlb : List TlbSlot) :
    (findTLBEntry ASID VA tlb).tlb.filter (fun s => !s.artifact) =
      tlb.filter (fun s => !s.artifact) := by
  induction tlb with
  | nil => rfl
  | cons slot tlb ih =>
    simp only [findTLBEntry]
    split_ifs with hov hart
    · simp [hart, ih]
    · rfl
    · simp [List.filter_cons, ih]
    · simp [List.filter_cons, ih]

/-- The entry found holds `VA`, is not an artifact access's and matches the
ASID; every entry before it that holds `VA` is a real one that does not
match. -/
lemma findTLBEntry_eq_entry {tlb before after : List TlbSlot} {slot : TlbSlot}
    (h : findTLBEntry ASID VA tlb = .entry before slot after) :
    slot.overlaps VA VA = true ∧ slot.artifact = false ∧ matchASID ASID slot = true ∧
      ∀ t ∈ before, t.overlaps VA VA = true → t.artifact = false ∧ matchASID ASID t = false := by
  induction tlb generalizing before with
  | nil => cases h
  | cons s tlb ih =>
    simp only [findTLBEntry] at h
    split_ifs at h with hov hart hmatch
    · exact ih h
    · cases h
      exact ⟨hov, by simpa using hart, hmatch, by simp⟩
    · -- a real entry that does not match stays before the one found
      obtain ⟨before', h', rfl⟩ := TlbResult.cons_eq_entry h
      obtain ⟨h1, h2, h3, h4⟩ := ih h'
      refine ⟨h1, h2, h3, fun t ht htov => ?_⟩
      rcases List.mem_cons.mp ht with rfl | ht
      · exact ⟨by simpa using hart, by simpa using hmatch⟩
      · exact h4 t ht htov
    · obtain ⟨before', h', rfl⟩ := TlbResult.cons_eq_entry h
      obtain ⟨h1, h2, h3, h4⟩ := ih h'
      refine ⟨h1, h2, h3, fun t ht htov => ?_⟩
      rcases List.mem_cons.mp ht with rfl | ht
      · exact absurd htov hov
      · exact h4 t ht htov

/-- Null means no real entry of the table holds `VA` with a matching ASID. -/
lemma findTLBEntry_eq_null {tlb t : List TlbSlot} (h : findTLBEntry ASID VA tlb = .null t) :
    ∀ s ∈ tlb, s.overlaps VA VA = true → s.artifact = false → matchASID ASID s = false := by
  induction tlb generalizing t with
  | nil => simp
  | cons s tlb ih =>
    simp only [findTLBEntry] at h
    split_ifs at h with hov hart hmatch
    · intro x hx hxov hxart
      rcases List.mem_cons.mp hx with rfl | hx
      · simp [hart] at hxart
      · exact ih h x hx hxov hxart
    · obtain ⟨t', h', rfl⟩ := TlbResult.cons_eq_null h
      intro x hx hxov hxart
      rcases List.mem_cons.mp hx with rfl | hx
      · simpa using hmatch
      · exact ih h' x hx hxov hxart
    · obtain ⟨t', h', rfl⟩ := TlbResult.cons_eq_null h
      intro x hx hxov hxart
      rcases List.mem_cons.mp hx with rfl | hx
      · exact absurd hxov hov
      · exact ih h' x hx hxov hxart

/-- The entry found is one of the table. -/
lemma findTLBEntry_mem {tlb before after : List TlbSlot} {slot : TlbSlot}
    (h : findTLBEntry ASID VA tlb = .entry before slot after) : slot ∈ tlb := by
  have hsub := findTLBEntry_sublist ASID VA tlb
  rw [h] at hsub
  exact hsub.subset (by simp [TlbResult.tlb])

/-- **The lookup of the table**: it keeps every entry a real access made;
the entry it returns is one of the table that holds `VA`, was not made by an
artifact access and matches the ASID, and every entry before it that holds
`VA` is a real one that does not match; it returns null exactly when the
table has no such entry. -/
theorem findTLBEntry_spec (tlb : List TlbSlot) :
    (findTLBEntry ASID VA tlb).tlb.filter (fun s => !s.artifact) =
        tlb.filter (fun s => !s.artifact) ∧
      (∀ before slot after, findTLBEntry ASID VA tlb = .entry before slot after →
        slot ∈ tlb ∧ slot.overlaps VA VA = true ∧ slot.artifact = false ∧
          matchASID ASID slot = true ∧
          ∀ t ∈ before, t.overlaps VA VA = true → t.artifact = false ∧ matchASID ASID t = false) ∧
      ((findTLBEntry ASID VA tlb).slot? = none ↔
        ∀ s ∈ tlb, s.overlaps VA VA = true → s.artifact = false → matchASID ASID s = false) := by
  refine ⟨findTLBEntry_filter_real ASID VA tlb,
    fun before slot after h => ⟨findTLBEntry_mem ASID VA h, findTLBEntry_eq_entry ASID VA h⟩, ?_⟩
  rcases hr : findTLBEntry ASID VA tlb with t | ⟨before, slot, after⟩
  · exact iff_of_true rfl (findTLBEntry_eq_null ASID VA hr)
  · -- the entry found is a real one of the table that holds `VA` and matches
    obtain ⟨hov, hart, hmatch, -⟩ := findTLBEntry_eq_entry ASID VA hr
    refine iff_of_false (by simp [TlbResult.slot?]) fun hall => ?_
    simp [hall slot (findTLBEntry_mem ASID VA hr) hov hart] at hmatch

end Find

/-! ### Validation and the walk -/

/-- Every entry of the table is a page. -/
def TlbPages (tlb : List TlbSlot) : Prop := ∀ slot ∈ tlb, slot.entry.IsPage

lemma TlbPages.sublist {tlb tlb' : List TlbSlot} (h : TlbPages tlb) (hs : List.Sublist tlb' tlb) :
    TlbPages tlb' :=
  fun slot hslot => h slot (hs.subset hslot)

section Fill

variable {ctx : PtwContext} {mode : RiscvMode} {req : MemPriv}

/-- The final test of `checkEntryPermission`: a privilege that passes it
includes the access. -/
lemma le_of_permission_test {p : MemPriv}
    (h : (if p &&& req = req then p else MemPriv.none) ≠ MemPriv.none) :
    req ≤ if p &&& req = req then p else MemPriv.none := by
  split_ifs at h ⊢ with hp
  · exact MemPriv.and_eq_right_iff_le.mp hp
  · exact absurd rfl h

lemma le_checkEntryPermission {entry : TlbEntry}
    (h : checkEntryPermission ctx mode entry req ≠ MemPriv.none) :
    req ≤ checkEntryPermission ctx mode entry req :=
  le_of_permission_test h

/-- `checkEntryPermission` does not read `A` or `D`. -/
lemma checkEntryPermission_setAD (entry : TlbEntry) (A D : Bool) :
    checkEntryPermission ctx mode { entry with A := A, D := D } req =
      checkEntryPermission ctx mode entry req := rfl

/-- Validation only deletes entries. -/
lemma validateTLBEntryPriv_sublist (r : TlbResult) :
    List.Sublist (validateTLBEntryPriv ctx mode req r).1.tlb r.tlb := by
  cases r with
  | null tlb => exact List.Sublist.refl _
  | entry before slot after =>
    simp only [validateTLBEntryPriv]
    split_ifs
    · exact List.Sublist.refl _
    · -- `deleteTLBEntry`
      exact (List.sublist_cons_self slot after).append_left before
    all_goals exact List.Sublist.refl _

/-- An entry that passes validation gives the access and is mapped with
write only when dirty, and a write passes only a dirty entry. -/
lemma validateTLBEntryPriv_eq_entry {r : TlbResult} {before after : List TlbSlot}
    {slot : TlbSlot} {p : Option MemPriv}
    (h : validateTLBEntryPriv ctx mode req r = (.entry before slot after, p)) :
    r = .entry before slot after ∧ ∃ priv, p = some priv ∧ req ≤ priv ∧
      (priv.w = true → slot.entry.D = true) ∧ (req.w = true → slot.entry.D = true) := by
  cases r with
  | null tlb => simp [validateTLBEntryPriv] at h
  | entry b s a =>
    simp only [validateTLBEntryPriv] at h
    by_cases hnone : checkEntryPermission ctx mode s.entry req = MemPriv.none
    · rw [if_pos hnone] at h
      cases h
    by_cases hwd : (req.w && !s.entry.D) = true
    · rw [if_neg hnone, if_pos hwd] at h
      cases h
    rw [if_neg hnone, if_neg hwd] at h
    cases h
    have hle := le_checkEntryPermission hnone
    have hD : req.w = true → slot.entry.D = true := by
      intro hw
      simpa [hw] using hwd
    refine ⟨rfl, _, rfl, ?_, ?_, hD⟩
    · -- a clean entry is not written, so taking write away keeps the access
      cases hd : slot.entry.D
      · have hw : req.w = false := by
          cases hw : req.w
          · rfl
          · simpa [hd] using hD hw
        simpa [hd, MemPriv.le_def, MemPriv.W, hw] using hle
      · simpa using hle
    · cases hd : slot.entry.D <;> simp [MemPriv.W]

/-- When validation rejects no entry the scan found, a null after it is the
scan's own null. -/
lemma validateTLBEntryPriv_eq_null {r : TlbResult} {t : List TlbSlot}
    (hscan : (validateTLBEntryPriv ctx mode req r).1.slot? = r.slot?)
    (hv : (validateTLBEntryPriv ctx mode req r).1 = .null t) : r = .null t := by
  cases r with
  | null t' => simpa [validateTLBEntryPriv] using hv
  | entry b s a =>
    rw [hv] at hscan
    simp [TlbResult.slot?] at hscan

/-- The entry of a walk passes validation at once, wherever the range table
puts it. -/
lemma validateTLBEntryPriv_allocate {sv : SvMode} {mem : PtwMemory} {VA : UInt64} {e : TlbEntry}
    {w : Option (UInt64 × UInt64)} (h : tlbLookup sv ctx mem mode VA req = .ok (e, w))
    (rt : RangeTable) (artifactAccess : Bool) (tlb : List TlbSlot) :
    ∃ priv, validateTLBEntryPriv ctx mode req (allocateTLBEntry rt artifactAccess e tlb) =
      (allocateTLBEntry rt artifactAccess e tlb, some priv) := by
  obtain ⟨i, PTE, A, D, -, hperm, rfl, hDw⟩ := tlbLookup_ok h
  have hD : ¬ (req.w && !D) = true := by
    cases hw : req.w <;> simp_all
  simp only [allocateTLBEntry, RangeTable.insert, validateTLBEntryPriv]
  rw [if_neg (by rwa [checkEntryPermission_setAD]), if_neg hD]
  exact ⟨_, rfl⟩

end Fill

section FindOrCreate

variable (rt : RangeTable) (sv : SvMode) (xlen : ℕ) (ctx : PtwContext) (mem : PtwMemory)
  (mode : RiscvMode) (attrs : MemAccessAttrs) (req : MemPriv) (VA : UInt64) (tlb : List TlbSlot)

/-- **What `findOrCreateTLBEntry` does**: a cached entry that passes
validation is served as it is; otherwise the walk runs on the table that
validation leaves.  A walk that fails leaves null and raises its exception
unless the access is an artifact one; the entry of a walk that succeeds goes
into the range table and passes validation. -/
lemma findOrCreateTLBEntry_cases :
    (∃ before slot after priv,
      validateTLBEntryPriv ctx mode req (findTLBEntry (getActiveASID xlen ctx.satp) VA tlb) =
        (.entry before slot after, priv) ∧
      findOrCreateTLBEntry rt sv xlen ctx mem mode attrs req VA tlb =
        ⟨.entry before slot after, priv, none, none⟩) ∨
    ∃ t, (validateTLBEntryPriv ctx mode req
        (findTLBEntry (getActiveASID xlen ctx.satp) VA tlb)).1 = .null t ∧
      ((∃ exception, tlbLookup sv ctx mem mode VA req = .error exception ∧
        findOrCreateTLBEntry rt sv xlen ctx mem mode attrs req VA tlb =
          ⟨.null t, none, if attrs.artifact then none else some exception, none⟩) ∨
       (∃ e w priv, tlbLookup sv ctx mem mode VA req = .ok (e, w) ∧
        validateTLBEntryPriv ctx mode req (allocateTLBEntry rt ctx.artifactAccess e t) =
          (allocateTLBEntry rt ctx.artifactAccess e t, some priv) ∧
        findOrCreateTLBEntry rt sv xlen ctx mem mode attrs req VA tlb =
          ⟨allocateTLBEntry rt ctx.artifactAccess e t, some priv, none, w⟩)) := by
  rcases hv : validateTLBEntryPriv ctx mode req (findTLBEntry (getActiveASID xlen ctx.satp) VA tlb)
    with ⟨t | ⟨before, slot, after⟩, priv⟩
  · right
    refine ⟨t, rfl, ?_⟩
    rcases hw : tlbLookup sv ctx mem mode VA req with exception | ⟨e, w⟩
    · left
      exact ⟨exception, rfl, by simp [findOrCreateTLBEntry, hv, hw]⟩
    · right
      obtain ⟨priv', hpriv⟩ := validateTLBEntryPriv_allocate hw rt ctx.artifactAccess t
      exact ⟨e, w, priv', rfl, hpriv, by simp [findOrCreateTLBEntry, hv, hw, hpriv]⟩
  · left
    exact ⟨before, slot, after, priv, rfl, by simp [findOrCreateTLBEntry, hv]⟩

/-- The table `findOrCreateTLBEntry` leaves holds only pages when the table
it was given does. -/
lemma findOrCreateTLBEntry_pages {sv} (hsv : sv.WF) (htlb : TlbPages tlb) :
    TlbPages (findOrCreateTLBEntry rt sv xlen ctx mem mode attrs req VA tlb).result.tlb := by
  -- validation and the scan only delete entries
  have hsub : TlbPages (validateTLBEntryPriv ctx mode req
      (findTLBEntry (getActiveASID xlen ctx.satp) VA tlb)).1.tlb :=
    htlb.sublist ((validateTLBEntryPriv_sublist _).trans (findTLBEntry_sublist _ _ _))
  rcases findOrCreateTLBEntry_cases rt sv xlen ctx mem mode attrs req VA tlb with
    ⟨before, slot, after, priv, hv, hf⟩ | ⟨t, hv, ⟨exception, -, hf⟩ | ⟨e, w, priv, hw, -, hf⟩⟩
  · rw [hv] at hsub
    rwa [hf]
  · rw [hv] at hsub
    rwa [hf]
  · -- the walk's entry joins what validation left
    rw [hv] at hsub
    rw [hf]
    intro x hx
    rcases RangeTable.mem_tlb_insert.mp hx with rfl | hx
    · exact tlbLookup_isPage hsv hw
    · exact hsub x hx

/-- **The lookup fails only when the walk does**: `findOrCreateTLBEntry`
returns null exactly when no cached entry passes validation and the page
table walk raises an exception, which the hart then takes unless the access
is an artifact one. -/
theorem findOrCreateTLBEntry_null :
    (findOrCreateTLBEntry rt sv xlen ctx mem mode attrs req VA tlb).result.slot? = none ↔
      (validateTLBEntryPriv ctx mode req
        (findTLBEntry (getActiveASID xlen ctx.satp) VA tlb)).1.slot? = none ∧
      ∃ exception, tlbLookup sv ctx mem mode VA req = .error exception ∧
        (findOrCreateTLBEntry rt sv xlen ctx mem mode attrs req VA tlb).exception =
          if attrs.artifact then none else some exception := by
  rcases findOrCreateTLBEntry_cases rt sv xlen ctx mem mode attrs req VA tlb with
    ⟨before, slot, after, priv, hv, hf⟩ | ⟨t, hv, ⟨exception, hw, hf⟩ | ⟨e, w, priv, hw, -, hf⟩⟩
  · simp [hv, hf, TlbResult.slot?]
  · simp [hv, hf, hw, TlbResult.slot?]
  · simp [hf, hw, allocateTLBEntry, RangeTable.insert, TlbResult.slot?]

/-- The entry `findOrCreateTLBEntry` returns raises no exception and gives
the access: the privilege it is mapped with includes the access and has
write only when the entry is dirty, and a write gets a dirty entry. -/
lemma findOrCreateTLBEntry_priv {before after : List TlbSlot} {slot : TlbSlot}
    (h : (findOrCreateTLBEntry rt sv xlen ctx mem mode attrs req VA tlb).result =
      .entry before slot after) :
    (∃ priv, (findOrCreateTLBEntry rt sv xlen ctx mem mode attrs req VA tlb).priv = some priv ∧
        req ≤ priv ∧ (priv.w = true → slot.entry.D = true)) ∧
      (req.w = true → slot.entry.D = true) ∧
      (findOrCreateTLBEntry rt sv xlen ctx mem mode attrs req VA tlb).exception = none := by
  rcases findOrCreateTLBEntry_cases rt sv xlen ctx mem mode attrs req VA tlb with
    ⟨b, s, a, priv, hv, hf⟩ | ⟨t, hv, ⟨exception, hw, hf⟩ | ⟨e, w, priv, hw, hval, hf⟩⟩ <;>
    rw [hf] at h ⊢
  · cases h
    obtain ⟨-, priv', rfl, hle, hwD, hD⟩ := validateTLBEntryPriv_eq_entry hv
    exact ⟨⟨priv', rfl, hle, hwD⟩, hD, rfl⟩
  · cases h
  · -- the walk's entry, as validation passed it
    dsimp only at h
    rw [h] at hval
    obtain ⟨-, priv', hpriv, hle, hwD, hD⟩ := validateTLBEntryPriv_eq_entry hval
    exact ⟨⟨priv', hpriv, hle, hwD⟩, hD, rfl⟩

/-- For an address the walk translates, from a table of pages, the entry
`findOrCreateTLBEntry` returns is a naturally aligned page holding `VA`. -/
lemma findOrCreateTLBEntry_coversAligned {sv} (hsv : sv.WF) (hva : VA.toNat < 2 ^ sv.vaBits)
    (htlb : TlbPages tlb) {before after : List TlbSlot} {slot : TlbSlot}
    (h : (findOrCreateTLBEntry rt sv xlen ctx mem mode attrs req VA tlb).result =
      .entry before slot after) :
    ∃ p < 64, slot.entry.CoversAligned VA p := by
  rcases findOrCreateTLBEntry_cases rt sv xlen ctx mem mode attrs req VA tlb with
    ⟨b, s, a, priv, hv, hf⟩ | ⟨t, hv, ⟨exception, hw, hf⟩ | ⟨e, w, priv, hw, hval, hf⟩⟩ <;>
    rw [hf] at h
  · -- a cached entry holds `VA` and is a page of the table
    cases h
    obtain ⟨hfind, -⟩ := validateTLBEntryPriv_eq_entry hv
    obtain ⟨hov, -, -, -⟩ := findTLBEntry_eq_entry _ _ hfind
    rw [TlbSlot.overlaps_self_iff] at hov
    exact (htlb slot (findTLBEntry_mem _ _ hfind)).coversAligned hov.1 hov.2
  · cases h
  · -- the walk's entry, wherever the range table put it
    simp only [allocateTLBEntry, RangeTable.insert, TlbResult.entry.injEq] at h
    obtain ⟨-, rfl, -⟩ := h
    exact tlbLookup_coversAligned_of_lt hsv hva hw

/-- **The entry `findOrCreateTLBEntry` returns** raises no exception and
gives the access: the privilege it is mapped with includes the access and
has write only when the entry is dirty, and a write gets a dirty entry.
From a table of pages, for an address the walk translates, it is a naturally
aligned page holding `VA`. -/
theorem findOrCreateTLBEntry_entry {before after : List TlbSlot} {slot : TlbSlot}
    (h : (findOrCreateTLBEntry rt sv xlen ctx mem mode attrs req VA tlb).result =
      .entry before slot after) :
    (∃ priv, (findOrCreateTLBEntry rt sv xlen ctx mem mode attrs req VA tlb).priv = some priv ∧
        req ≤ priv ∧ (priv.w = true → slot.entry.D = true)) ∧
      (req.w = true → slot.entry.D = true) ∧
      (findOrCreateTLBEntry rt sv xlen ctx mem mode attrs req VA tlb).exception = none ∧
      (sv.WF → TlbPages tlb → VA.toNat < 2 ^ sv.vaBits →
        ∃ p < 64, slot.entry.CoversAligned VA p) := by
  obtain ⟨hpriv, hD, hexc⟩ := findOrCreateTLBEntry_priv rt sv xlen ctx mem mode attrs req VA tlb h
  exact ⟨hpriv, hD, hexc, fun hsv htlb hva =>
    findOrCreateTLBEntry_coversAligned rt xlen ctx mem mode attrs req VA tlb hsv hva htlb h⟩

end FindOrCreate

/-- A hart with `satp.PPN = 1`, no ASID bits and the hardware A/D update, not
in an artifact access. -/
def flatHart : PtwContext := ⟨1, false, false, .v20190405, true, true, 0, false⟩

/-- A page table memory whose every PTE is a valid leaf with full access,
`A` and `D` set, mapping page 0. -/
def flatTable : PtwMemory := ⟨fun _ => 0xCF, fun _ => false, fun _ => false⟩

/-- A range table that visits an inserted entry before the others. -/
def frontTable : RangeTable := ⟨fun _ _ => 0⟩

/-- A range table that visits an inserted entry after the others. -/
def backTable : RangeTable := ⟨fun _ tlb => tlb.length⟩

/-- A TLB holding the 1 GiB page at 0 that a walk of the flat table fills. -/
def flatTLB : List TlbSlot :=
  [⟨⟨0, 0x3FFFFFFF, 0, MemPriv.RWX, false, true, true, true⟩, ⟨0, false, false⟩, false⟩]

/-- A Supervisor read of `0x1234` served from a TLB that holds its page: the
cached entry, which gives the read and holds the address. -/
theorem findOrCreateTLBEntry_entry_flat_table :
    (findOrCreateTLBEntry frontTable Sv39 64 flatHart flatTable .supervisor ⟨false⟩ MemPriv.R 0x1234
        flatTLB).result =
        .entry [] ⟨⟨0, 0x3FFFFFFF, 0, MemPriv.RWX, false, true, true, true⟩, ⟨0, false, false⟩,
          false⟩ [] ∧
      (∃ priv, (findOrCreateTLBEntry frontTable Sv39 64 flatHart flatTable .supervisor ⟨false⟩
            MemPriv.R 0x1234 flatTLB).priv = some priv ∧ MemPriv.R ≤ priv ∧
          (priv.w = true → true = true)) ∧
        (MemPriv.R.w = true → true = true) ∧
        (findOrCreateTLBEntry frontTable Sv39 64 flatHart flatTable .supervisor ⟨false⟩ MemPriv.R
          0x1234 flatTLB).exception = none ∧
        (Sv39.WF → TlbPages flatTLB → (0x1234 : UInt64).toNat < 2 ^ Sv39.vaBits →
          ∃ p < 64, TlbEntry.CoversAligned ⟨0, 0x3FFFFFFF, 0, MemPriv.RWX, false, true, true, true⟩
            0x1234 p) := by
  have hres : (findOrCreateTLBEntry frontTable Sv39 64 flatHart flatTable .supervisor ⟨false⟩
      MemPriv.R 0x1234 flatTLB).result = .entry [] ⟨⟨0, 0x3FFFFFFF, 0, MemPriv.RWX, false, true,
        true, true⟩, ⟨0, false, false⟩, false⟩ [] := by decide
  exact ⟨hres, findOrCreateTLBEntry_entry frontTable Sv39 64 flatHart flatTable .supervisor ⟨false⟩
    MemPriv.R 0x1234 flatTLB hres⟩

/-! ### Invalidation -/

/-- `matchMode`: which entries an invalidation deletes. -/
inductive MatchMode where
  | MM_ANY
  | MM_ASID
  deriving DecidableEq, Repr

/-- `deleteTLBEntryMode`: whether the entry is deleted.  `MM_ANY` deletes
every entry; `MM_ASID` every entry when no ASID bits are implemented, and
otherwise the non-global entries of the ASID. -/
def deleteTLBEntryMode (ASIDMask : ℕ) (mode : MatchMode) (ASID : ℕ) (slot : TlbSlot) : Bool :=
  match mode with
  | .MM_ANY => true
  | .MM_ASID => ASIDMask == 0 || (!slot.entry.G && matchASID ASID slot)

/-- The loop `ITER_TLB_ENTRY_RANGE` of `invalidateTLBEntriesRange`, with the
entries already passed (`kept`) and those still to come.  The range table
visits only the entries overlapping `[lowVA, highVA]`; of those,
`getTLBEntryForRange` deletes the ones of artifact accesses as it meets them,
and the body deletes the ones `deleteTLBEntryMode` selects. -/
def iterTLBEntryRange (ASIDMask : ℕ) (lowVA highVA : UInt64) (mode : MatchMode) (ASID : ℕ) :
    List TlbSlot → List TlbSlot → List TlbSlot
  | kept, [] => kept
  | kept, slot :: rest =>
    if slot.overlaps lowVA highVA then
      if slot.artifact then iterTLBEntryRange ASIDMask lowVA highVA mode ASID kept rest
      else if deleteTLBEntryMode ASIDMask mode ASID slot then
        iterTLBEntryRange ASIDMask lowVA highVA mode ASID kept rest
      else iterTLBEntryRange ASIDMask lowVA highVA mode ASID (kept ++ [slot]) rest
    else iterTLBEntryRange ASIDMask lowVA highVA mode ASID (kept ++ [slot]) rest

/-- `invalidateTLBEntriesRange`: the loop over the whole table. -/
def invalidateTLBEntriesRange (ASIDMask : ℕ) (lowVA highVA : UInt64) (mode : MatchMode)
    (ASID : ℕ) (tlb : List TlbSlot) : List TlbSlot :=
  iterTLBEntryRange ASIDMask lowVA highVA mode ASID [] tlb

/-- `maskASID`: the ASID cut to the `satp.ASID` field of the XLEN, then to
the implemented bits. -/
def maskASID (xlen ASIDMask ASID : ℕ) : ℕ :=
  (if xlen = 32 then ASID % 2 ^ 9 else ASID % 2 ^ 16) &&& ASIDMask

/-- `riscvVMInvalidateAll`: `sfence.vma` with no address and no ASID, over
`[0, RISCV_MAX_ADDR]`. -/
def riscvVMInvalidateAll (ASIDMask : ℕ) (tlb : List TlbSlot) : List TlbSlot :=
  invalidateTLBEntriesRange ASIDMask 0 (-1) .MM_ANY 0 tlb

/-- `riscvVMInvalidateAllASID`: `sfence.vma` with an ASID only. -/
def riscvVMInvalidateAllASID (xlen ASIDMask ASID : ℕ) (tlb : List TlbSlot) : List TlbSlot :=
  invalidateTLBEntriesRange ASIDMask 0 (-1) .MM_ASID (maskASID xlen ASIDMask ASID) tlb

/-- `riscvVMInvalidateVA`: `sfence.vma` with an address only. -/
def riscvVMInvalidateVA (ASIDMask : ℕ) (VA : UInt64) (tlb : List TlbSlot) : List TlbSlot :=
  invalidateTLBEntriesRange ASIDMask VA VA .MM_ANY 0 tlb

/-- `riscvVMInvalidateVAASID`: `sfence.vma` with an address and an ASID. -/
def riscvVMInvalidateVAASID (xlen ASIDMask : ℕ) (VA : UInt64) (ASID : ℕ) (tlb : List TlbSlot) :
    List TlbSlot :=
  invalidateTLBEntriesRange ASIDMask VA VA .MM_ASID (maskASID xlen ASIDMask ASID) tlb

section Invalidate

variable (ASIDMask : ℕ) (lowVA highVA : UInt64) (mode : MatchMode) (ASID : ℕ)

/-- An entry the loop leaves: one it does not visit, or a real one the body
spares. -/
def TlbSlot.survives (slot : TlbSlot) : Bool :=
  !(slot.overlaps lowVA highVA && (slot.artifact || deleteTLBEntryMode ASIDMask mode ASID slot))

/-- **The loop is a filter**: it appends to the entries already passed those
still to come that survive, in table order.  By induction on the entries to
come, one iteration each. -/
lemma iterTLBEntryRange_eq (kept tlb : List TlbSlot) :
    iterTLBEntryRange ASIDMask lowVA highVA mode ASID kept tlb =
      kept ++ tlb.filter (TlbSlot.survives ASIDMask lowVA highVA mode ASID) := by
  induction tlb generalizing kept with
  | nil => simp [iterTLBEntryRange]
  | cons slot tlb ih =>
    simp only [iterTLBEntryRange]
    split_ifs with hov hart hdel
    · -- `getTLBEntryForRange` deletes an artifact entry
      simp [ih, TlbSlot.survives, hov, hart]
    · -- the body deletes it
      simp [ih, TlbSlot.survives, hov, hart, hdel]
    · simp [ih, TlbSlot.survives, hov, hart, hdel]
    · -- the range table does not visit it
      simp [ih, TlbSlot.survives, hov]

lemma invalidateTLBEntriesRange_eq_filter (tlb : List TlbSlot) :
    invalidateTLBEntriesRange ASIDMask lowVA highVA mode ASID tlb =
      tlb.filter (TlbSlot.survives ASIDMask lowVA highVA mode ASID) := by
  rw [invalidateTLBEntriesRange, iterTLBEntryRange_eq, List.nil_append]

lemma invalidateTLBEntriesRange_sublist (tlb : List TlbSlot) :
    List.Sublist (invalidateTLBEntriesRange ASIDMask lowVA highVA mode ASID tlb) tlb := by
  rw [invalidateTLBEntriesRange_eq_filter]
  exact List.filter_sublist

end Invalidate

/-- The entries `invalidateTLBEntriesRange` keeps: those that do not overlap
the range, and the real ones `deleteTLBEntryMode` spares. -/
lemma mem_invalidateTLBEntriesRange {ASIDMask : ℕ} {lowVA highVA : UInt64} {mode : MatchMode}
    {ASID : ℕ} {tlb : List TlbSlot} {slot : TlbSlot} :
    slot ∈ invalidateTLBEntriesRange ASIDMask lowVA highVA mode ASID tlb ↔
      slot ∈ tlb ∧ (slot.overlaps lowVA highVA = true →
        slot.artifact = false ∧ deleteTLBEntryMode ASIDMask mode ASID slot = false) := by
  rw [invalidateTLBEntriesRange_eq_filter, List.mem_filter, TlbSlot.survives]
  cases slot.overlaps lowVA highVA <;> simp

/-- `MM_ASID` spares an entry exactly when ASID bits are implemented and the
entry is global or of another ASID. -/
lemma deleteTLBEntryMode_ASID_eq_false {ASIDMask ASID : ℕ} {slot : TlbSlot} :
    deleteTLBEntryMode ASIDMask .MM_ASID ASID slot = false ↔
      ASIDMask ≠ 0 ∧ (slot.entry.G = true ∨ slot.simASID.ASID ≠ ASID) := by
  simp only [deleteTLBEntryMode, matchASID]
  cases slot.entry.G
  · -- a non-global entry is deleted when it is of the ASID
    by_cases h : ASID = slot.simASID.ASID
    · simp [h]
    · simp [h, Ne.symm h]
  · simp

/-- `sfence.vma` of an address and an ASID keeps every entry that does not
hold the address and, of those that do, the real ones that are global or of
another ASID, when ASID bits are implemented. -/
lemma mem_riscvVMInvalidateVAASID {xlen ASIDMask : ℕ} {VA : UInt64} {ASID : ℕ}
    {tlb : List TlbSlot} {slot : TlbSlot} :
    slot ∈ riscvVMInvalidateVAASID xlen ASIDMask VA ASID tlb ↔ slot ∈ tlb ∧
      (slot.overlaps VA VA = true → slot.artifact = false ∧
        ASIDMask ≠ 0 ∧ (slot.entry.G = true ∨ slot.simASID.ASID ≠ maskASID xlen ASIDMask ASID)) := by
  rw [riscvVMInvalidateVAASID, mem_invalidateTLBEntriesRange, deleteTLBEntryMode_ASID_eq_false]

/-! ### Lookups after an invalidation -/

/-- A table none of whose entries holds `VA` has no entry for it, and its
scan deletes nothing. -/
lemma findTLBEntry_of_forall_not_overlaps {ASID : ℕ} {VA : UInt64} {tlb : List TlbSlot}
    (h : ∀ s ∈ tlb, s.overlaps VA VA = false) : findTLBEntry ASID VA tlb = .null tlb := by
  induction tlb with
  | nil => rfl
  | cons s tlb ih =>
    rw [findTLBEntry, if_neg (by simp [h s List.mem_cons_self]),
      ih fun x hx => h x (List.mem_cons_of_mem _ hx)]
    rfl

/-- **After `sfence.vma` of an address, its next lookup is the page table
walk**: no entry for the address survives, so `findOrCreateTLBEntry` returns
the entry of a walk of the page tables as they are now, put in the range
table, or raises the walk's exception. -/
theorem findOrCreateTLBEntry_after_invalidateVA (rt : RangeTable) (sv : SvMode) (xlen : ℕ)
    (ctx : PtwContext) (mem : PtwMemory) (mode : RiscvMode) (attrs : MemAccessAttrs)
    (req : MemPriv) (VA : UInt64) (ASIDMask : ℕ) (tlb : List TlbSlot) :
    match tlbLookup sv ctx mem mode VA req with
    | .ok (e, w) =>
      (findOrCreateTLBEntry rt sv xlen ctx mem mode attrs req VA
          (riscvVMInvalidateVA ASIDMask VA tlb)).result =
          allocateTLBEntry rt ctx.artifactAccess e (riscvVMInvalidateVA ASIDMask VA tlb) ∧
        (findOrCreateTLBEntry rt sv xlen ctx mem mode attrs req VA
          (riscvVMInvalidateVA ASIDMask VA tlb)).write = w
    | .error exception =>
      (findOrCreateTLBEntry rt sv xlen ctx mem mode attrs req VA
          (riscvVMInvalidateVA ASIDMask VA tlb)).result =
          .null (riscvVMInvalidateVA ASIDMask VA tlb) ∧
        (findOrCreateTLBEntry rt sv xlen ctx mem mode attrs req VA
          (riscvVMInvalidateVA ASIDMask VA tlb)).exception =
          if attrs.artifact then none else some exception := by
  -- no entry left holds `VA`, so the scan finds nothing
  have hfind : findTLBEntry (getActiveASID xlen ctx.satp) VA (riscvVMInvalidateVA ASIDMask VA tlb) =
      .null (riscvVMInvalidateVA ASIDMask VA tlb) := by
    apply findTLBEntry_of_forall_not_overlaps
    intro s hs
    rw [riscvVMInvalidateVA, mem_invalidateTLBEntriesRange] at hs
    cases hov : s.overlaps VA VA
    · rfl
    · simpa [deleteTLBEntryMode] using hs.2 hov
  rcases findOrCreateTLBEntry_cases rt sv xlen ctx mem mode attrs req VA
      (riscvVMInvalidateVA ASIDMask VA tlb)
    with ⟨b, s, a, priv, hv, -⟩ | ⟨t, hv, ⟨exception, hw, hf⟩ | ⟨e, w, priv, hw, -, hf⟩⟩ <;>
    rw [hfind] at hv <;> simp only [validateTLBEntryPriv] at hv
  · cases hv
  · cases hv
    simp [hw, hf]
  · cases hv
    simp [hw, hf]

/-- **After `sfence.vma` of an address and an ASID, a lookup of the address
for that ASID finds only global entries**, and none when no ASID bits are
implemented. -/
theorem findTLBEntry_after_invalidateVAASID (xlen ASIDMask : ℕ) (VA : UInt64) (ASID : ℕ)
    (tlb : List TlbSlot) :
    ((findTLBEntry (maskASID xlen ASIDMask ASID) VA
      (riscvVMInvalidateVAASID xlen ASIDMask VA ASID tlb)).slot?.all
        fun slot => slot.entry.G && ASIDMask != 0) = true := by
  rcases hr : findTLBEntry (maskASID xlen ASIDMask ASID) VA
    (riscvVMInvalidateVAASID xlen ASIDMask VA ASID tlb) with t | ⟨before, slot, after⟩
  · rfl
  · obtain ⟨hov, -, hmatch, -⟩ := findTLBEntry_eq_entry _ _ hr
    obtain ⟨-, hmask, hG⟩ := (mem_riscvVMInvalidateVAASID.mp (findTLBEntry_mem _ _ hr)).2 hov
    -- a non-global entry that matches is of the ASID, which the invalidation deleted
    have hG' : slot.entry.G = true := by
      rcases hG with hG | hne
      · exact hG
      · simp only [matchASID, Bool.or_eq_true, beq_iff_eq] at hmatch
        exact hmatch.resolve_right (Ne.symm hne)
    simp [TlbResult.slot?, hG', hmask]

/-! ### The lookup of `tlbMiss` -/

section MissLookup

variable (rt : RangeTable) {sv : SvMode} (xlen : ℕ) (ctx : PtwContext) (mode : RiscvMode)
  (attrs : MemAccessAttrs) (req : MemPriv)

/-- The lookup of `tlbMiss` when `findOrCreateTLBEntry` returns an entry:
the entry, given the current simulated ASID, and the walk's write applied. -/
lemma tlbMissLookup_of_entry {s : VmState} {VA : UInt64} {before after : List TlbSlot}
    {slot : TlbSlot} {priv : Option MemPriv} {exception : Option ℕ}
    {w : Option (UInt64 × UInt64)}
    (hf : findOrCreateTLBEntry rt sv xlen ctx s.mem mode attrs req VA s.tlb =
      ⟨.entry before slot after, priv, exception, w⟩) :
    tlbMissLookup rt sv xlen ctx mode attrs req s VA =
      (some slot.entry, ⟨before ++ { slot with simASID := getSimASID xlen ctx } :: after,
        applyPTEWrite s.mem w⟩) := by
  unfold tlbMissLookup
  rw [hf]

/-- The lookup of `tlbMiss` when `findOrCreateTLBEntry` returns null. -/
lemma tlbMissLookup_of_null {s : VmState} {VA : UInt64} {t : List TlbSlot}
    (hr : (findOrCreateTLBEntry rt sv xlen ctx s.mem mode attrs req VA s.tlb).result = .null t) :
    (tlbMissLookup rt sv xlen ctx mode attrs req s VA).1 = none ∧
      (tlbMissLookup rt sv xlen ctx mode attrs req s VA).2.tlb = t := by
  unfold tlbMissLookup
  dsimp only
  rw [hr]
  exact ⟨rfl, rfl⟩

/-- The lookup of `tlbMiss` keeps a table of pages one. -/
lemma tlbMissLookup_pages (hsv : sv.WF) {s : VmState} (hs : TlbPages s.tlb) (VA : UInt64) :
    TlbPages (tlbMissLookup rt sv xlen ctx mode attrs req s VA).2.tlb := by
  have hfill := findOrCreateTLBEntry_pages rt xlen ctx s.mem mode attrs req VA s.tlb hsv hs
  rcases hf : findOrCreateTLBEntry rt sv xlen ctx s.mem mode attrs req VA s.tlb with
    ⟨t | ⟨before, slot, after⟩, priv, exception, w⟩ <;> rw [hf] at hfill
  · rw [(tlbMissLookup_of_null rt xlen ctx mode attrs req (congrArg TlbFill.result hf)).2]
    exact hfill
  · -- the entry found, with its new simulated ASID, is the same page
    rw [tlbMissLookup_of_entry rt xlen ctx mode attrs req hf]
    intro x hx
    simp only [List.mem_append, List.mem_cons] at hx
    rcases hx with hx | rfl | hx
    · exact hfill x (by simp [TlbResult.tlb, hx])
    · exact hfill slot (by simp [TlbResult.tlb])
    · exact hfill x (by simp [TlbResult.tlb, hx])

/-- For an address the walk translates, from a table of pages, the entry the
lookup of `tlbMiss` returns is a naturally aligned page holding `VA`. -/
lemma tlbMissLookup_coversAligned (hsv : sv.WF) {s : VmState} (hs : TlbPages s.tlb)
    {VA : UInt64} (hva : VA.toNat < 2 ^ sv.vaBits) {e : TlbEntry}
    (h : (tlbMissLookup rt sv xlen ctx mode attrs req s VA).1 = some e) :
    ∃ p < 64, e.CoversAligned VA p := by
  rcases hf : findOrCreateTLBEntry rt sv xlen ctx s.mem mode attrs req VA s.tlb with
    ⟨t | ⟨before, slot, after⟩, priv, exception, w⟩
  · rw [(tlbMissLookup_of_null rt xlen ctx mode attrs req (congrArg TlbFill.result hf)).1] at h
    cases h
  · rw [tlbMissLookup_of_entry rt xlen ctx mode attrs req hf] at h
    cases h
    exact findOrCreateTLBEntry_coversAligned rt xlen ctx s.mem mode attrs req VA s.tlb hsv hva hs
      (congrArg TlbFill.result hf)

/-- A lookup that finds a cached entry passing validation returns it, gives
it the current simulated ASID and writes no PTE. -/
lemma tlbMissLookup_of_cached {s : VmState} {VA : UInt64} {before after : List TlbSlot}
    {slot : TlbSlot} {priv : Option MemPriv}
    (hfind : findTLBEntry (getActiveASID xlen ctx.satp) VA s.tlb = .entry before slot after)
    (hval : validateTLBEntryPriv ctx mode req (.entry before slot after) =
      (.entry before slot after, priv)) :
    tlbMissLookup rt sv xlen ctx mode attrs req s VA =
      (some slot.entry, ⟨before ++ { slot with simASID := getSimASID xlen ctx } :: after, s.mem⟩) :=
  @tlbMissLookup_of_entry rt sv xlen ctx mode attrs req s VA before after slot priv none none
    (by simp [findOrCreateTLBEntry, hfind, hval])

end MissLookup

/-- Validation reads only the entry's mapping, not its ASID or its place in
the table. -/
lemma validateTLBEntryPriv_congr {ctx : PtwContext} {mode : RiscvMode} {req : MemPriv}
    {b a b' a' : List TlbSlot} {s s' : TlbSlot} {p : Option MemPriv}
    (h : validateTLBEntryPriv ctx mode req (.entry b s a) = (.entry b s a, p))
    (he : s'.entry = s.entry) :
    validateTLBEntryPriv ctx mode req (.entry b' s' a') = (.entry b' s' a', p) := by
  simp only [validateTLBEntryPriv] at h ⊢
  rw [he]
  split_ifs at h ⊢ <;> cases h <;> rfl

/-- A scan that passes a prefix of real entries that do not match finds the
next entry that holds `VA` and matches. -/
lemma findTLBEntry_append {ASID : ℕ} {VA : UInt64} {before after : List TlbSlot} {slot : TlbSlot}
    (hbefore : ∀ t ∈ before, t.overlaps VA VA = true →
      t.artifact = false ∧ matchASID ASID t = false)
    (hov : slot.overlaps VA VA = true) (hart : slot.artifact = false)
    (hmatch : matchASID ASID slot = true) :
    findTLBEntry ASID VA (before ++ slot :: after) = .entry before slot after := by
  induction before with
  | nil => simp [findTLBEntry, hov, hart, hmatch]
  | cons t before ih =>
    have ih' := ih fun x hx => hbefore x (List.mem_cons_of_mem _ hx)
    by_cases htov : t.overlaps VA VA = true
    · obtain ⟨htart, htmatch⟩ := hbefore t List.mem_cons_self htov
      simp [findTLBEntry, htov, htart, htmatch, ih', TlbResult.cons]
    · simp [findTLBEntry, htov, ih', TlbResult.cons]

/-- A scan that finds nothing leaves only entries that either do not hold
`VA` or are real ones that do not match: it deleted the artifact ones. -/
lemma findTLBEntry_eq_null_tlb {ASID : ℕ} {VA : UInt64} {tlb t : List TlbSlot}
    (h : findTLBEntry ASID VA tlb = .null t) :
    ∀ x ∈ t, x.overlaps VA VA = true → x.artifact = false ∧ matchASID ASID x = false := by
  induction tlb generalizing t with
  | nil =>
    cases h
    simp
  | cons s tlb ih =>
    simp only [findTLBEntry] at h
    split_ifs at h with hov hart hmatch
    · exact ih h
    · obtain ⟨t', h', rfl⟩ := TlbResult.cons_eq_null h
      intro x hx hxov
      rcases List.mem_cons.mp hx with rfl | hx
      · exact ⟨by simpa using hart, by simpa using hmatch⟩
      · exact ih h' x hx hxov
    · obtain ⟨t', h', rfl⟩ := TlbResult.cons_eq_null h
      intro x hx hxov
      rcases List.mem_cons.mp hx with rfl | hx
      · exact absurd hxov hov
      · exact ih h' x hx hxov

/-- An entry given the current simulated ASID matches the active ASID. -/
lemma matchASID_getSimASID (xlen : ℕ) (ctx : PtwContext) (slot : TlbSlot) :
    matchASID (getActiveASID xlen ctx.satp) { slot with simASID := getSimASID xlen ctx } = true := by
  simp [matchASID, getSimASID]

/-- **A second lookup of an address hits the TLB**: for an access that is
not an artifact one, to an address the walk translates, right after the
lookup of `tlbMiss` has returned an entry for `VA`, a lookup of `VA` with the
same context returns the same entry without a walk, and changes neither the
TLB nor the page table memory.  This holds wherever the range table puts a
new entry, when validation did not reject an entry the scan found: such an
entry stays in the table, and a later scan may meet it before the walk's. -/
theorem tlbMissLookup_hit (rt : RangeTable) {sv : SvMode} (hsv : sv.WF) (xlen : ℕ)
    {ctx : PtwContext} (hart : ctx.artifactAccess = false) (mode : RiscvMode)
    (attrs : MemAccessAttrs) (req : MemPriv) (s : VmState) {VA : UInt64}
    (hva : VA.toNat < 2 ^ sv.vaBits)
    (hscan : (validateTLBEntryPriv ctx mode req
        (findTLBEntry (getActiveASID xlen ctx.satp) VA s.tlb)).1.slot? =
      (findTLBEntry (getActiveASID xlen ctx.satp) VA s.tlb).slot?)
    {e : TlbEntry} (h : (tlbMissLookup rt sv xlen ctx mode attrs req s VA).1 = some e) :
    tlbMissLookup rt sv xlen ctx mode attrs req (tlbMissLookup rt sv xlen ctx mode attrs req s VA).2
        VA = (some e, (tlbMissLookup rt sv xlen ctx mode attrs req s VA).2) := by
  rcases findOrCreateTLBEntry_cases rt sv xlen ctx s.mem mode attrs req VA s.tlb with
    ⟨b, slot, a, priv, hv, hf⟩ | ⟨t, hv, ⟨exception, hw, hf⟩ | ⟨e', w, priv, hw, hval, hf⟩⟩
  · -- a cached entry: found again, now with the current ASID, after no match
    obtain ⟨hfind, -⟩ := validateTLBEntryPriv_eq_entry hv
    rw [hfind] at hv
    obtain ⟨hov, hslot, -, hbefore⟩ := findTLBEntry_eq_entry _ _ hfind
    rw [tlbMissLookup_of_entry rt xlen ctx mode attrs req hf] at h ⊢
    cases h
    exact @tlbMissLookup_of_cached rt sv xlen ctx mode attrs req _ VA b a
      { slot with simASID := getSimASID xlen ctx } priv
      (findTLBEntry_append hbefore hov hslot (matchASID_getSimASID xlen ctx slot))
      (validateTLBEntryPriv_congr hv rfl)
  · rw [(tlbMissLookup_of_null rt xlen ctx mode attrs req (congrArg TlbFill.result hf)).1] at h
    cases h
  · -- a walk: the scan found nothing, so the entries before the walk's, at
    -- whatever place the range table gives it, are no match for `VA`
    have hnull := validateTLBEntryPriv_eq_null hscan hv
    have hpassed := findTLBEntry_eq_null_tlb hnull
    obtain ⟨p, -, hc⟩ := tlbLookup_coversAligned_of_lt hsv hva hw
    rw [tlbMissLookup_of_entry rt xlen ctx mode attrs req hf] at h ⊢
    cases h
    exact @tlbMissLookup_of_cached rt sv xlen ctx mode attrs req _ VA _ _
      ⟨e', getSimASID xlen ctx, ctx.artifactAccess⟩ (some priv)
      (findTLBEntry_append (fun x hx => hpassed x (List.mem_of_mem_take hx))
        (by simpa using ⟨hc.lowVA_le, hc.le_highVA⟩) hart
        (matchASID_getSimASID xlen ctx ⟨e', ⟨0, false, false⟩, ctx.artifactAccess⟩))
      (validateTLBEntryPriv_congr hval rfl)

/-- On RV32 with Sv32, a read of `0x1234` over the flat table from the empty
TLB walks, with the range table putting the entry last; the read after it
hits. -/
theorem tlbMissLookup_hit_flat_table :
    Sv32.WF ∧ flatHart.artifactAccess = false ∧ (0x1234 : UInt64).toNat < 2 ^ Sv32.vaBits ∧
      (validateTLBEntryPriv flatHart .supervisor MemPriv.R
          (findTLBEntry (getActiveASID 32 flatHart.satp) 0x1234 [])).1.slot? =
        (findTLBEntry (getActiveASID 32 flatHart.satp) 0x1234 []).slot? ∧
      (tlbMissLookup backTable Sv32 32 flatHart .supervisor ⟨false⟩ MemPriv.R ⟨[], flatTable⟩
          0x1234).1 = some ⟨0, 0x3FFFFF, 0, MemPriv.RWX, false, true, true, true⟩ ∧
      tlbMissLookup backTable Sv32 32 flatHart .supervisor ⟨false⟩ MemPriv.R
          (tlbMissLookup backTable Sv32 32 flatHart .supervisor ⟨false⟩ MemPriv.R ⟨[], flatTable⟩
            0x1234).2 0x1234 =
        (some ⟨0, 0x3FFFFF, 0, MemPriv.RWX, false, true, true, true⟩,
          (tlbMissLookup backTable Sv32 32 flatHart .supervisor ⟨false⟩ MemPriv.R ⟨[], flatTable⟩
            0x1234).2) := by
  have hscan : (validateTLBEntryPriv flatHart .supervisor MemPriv.R
      (findTLBEntry (getActiveASID 32 flatHart.satp) 0x1234 [])).1.slot? =
        (findTLBEntry (getActiveASID 32 flatHart.satp) 0x1234 []).slot? := rfl
  have h : (tlbMissLookup backTable Sv32 32 flatHart .supervisor ⟨false⟩ MemPriv.R ⟨[], flatTable⟩
      0x1234).1 = some ⟨0, 0x3FFFFF, 0, MemPriv.RWX, false, true, true, true⟩ := by decide
  exact ⟨Sv32_WF, rfl, by decide, hscan, h, tlbMissLookup_hit backTable Sv32_WF 32 rfl .supervisor
    ⟨false⟩ MemPriv.R ⟨[], flatTable⟩ (by decide) hscan h⟩

/-! ### Runs of the TLB -/

/-- The operations that change the TLB: a lookup of `tlbMiss`, with the
translation mode, context, page table memory and access attributes of its
time, and the four `sfence.vma` forms. -/
inductive TlbOp where
  | lookup (sv : SvMode) (xlen : ℕ) (ctx : PtwContext) (mem : PtwMemory) (mode : RiscvMode)
      (attrs : MemAccessAttrs) (requiredPriv : MemPriv) (VA : UInt64)
  | invalidateAll (ASIDMask : ℕ)
  | invalidateAllASID (xlen ASIDMask ASID : ℕ)
  | invalidateVA (ASIDMask : ℕ) (VA : UInt64)
  | invalidateVAASID (xlen ASIDMask : ℕ) (VA : UInt64) (ASID : ℕ)

/-- One operation on the TLB, whose entries the range table `rt` keeps. -/
def tlbStep (rt : RangeTable) (tlb : List TlbSlot) : TlbOp → List TlbSlot
  | .lookup sv xlen ctx mem mode attrs requiredPriv VA =>
    (tlbMissLookup rt sv xlen ctx mode attrs requiredPriv ⟨tlb, mem⟩ VA).2.tlb
  | .invalidateAll ASIDMask => riscvVMInvalidateAll ASIDMask tlb
  | .invalidateAllASID xlen ASIDMask ASID => riscvVMInvalidateAllASID xlen ASIDMask ASID tlb
  | .invalidateVA ASIDMask VA => riscvVMInvalidateVA ASIDMask VA tlb
  | .invalidateVAASID xlen ASIDMask VA ASID => riscvVMInvalidateVAASID xlen ASIDMask VA ASID tlb

/-- A lookup walks with one of the widths the walk is written for. -/
def TlbOp.Valid : TlbOp → Prop
  | .lookup sv .. => sv.WF
  | _ => True

/-- The TLBs reachable from the empty one that `newTLB` allocates. -/
def TlbReachable (rt : RangeTable) (tlb : List TlbSlot) : Prop :=
  StepSystem.Reachable (tlbStep rt) TlbOp.Valid (fun t => t = []) tlb

/-- Every operation keeps a table of pages one. -/
lemma tlbStep_pages {rt : RangeTable} {tlb : List TlbSlot} {op : TlbOp} (hop : op.Valid)
    (h : TlbPages tlb) : TlbPages (tlbStep rt tlb op) := by
  cases op with
  | lookup sv xlen ctx mem mode attrs req VA =>
    exact tlbMissLookup_pages rt xlen ctx mode attrs req hop (s := ⟨tlb, mem⟩) h VA
  | invalidateAll ASIDMask => exact h.sublist (invalidateTLBEntriesRange_sublist ..)
  | invalidateAllASID xlen ASIDMask ASID => exact h.sublist (invalidateTLBEntriesRange_sublist ..)
  | invalidateVA ASIDMask VA => exact h.sublist (invalidateTLBEntriesRange_sublist ..)
  | invalidateVAASID xlen ASIDMask VA ASID =>
    exact h.sublist (invalidateTLBEntriesRange_sublist ..)

/-- The run lemma of `tlbStep_pages`. -/
lemma TlbReachable.pages {rt : RangeTable} {tlb : List TlbSlot} (h : TlbReachable rt tlb) :
    TlbPages tlb := by
  -- the empty TLB holds no entry, and every operation keeps the invariant
  refine StepSystem.Reachable.induction ?_ ?_ h
  · rintro t rfl
    simp [TlbPages]
  · intro t op hop ht
    exact tlbStep_pages hop ht

/-- **Every reachable TLB holds only pages**: from the empty TLB, after any
sequence of lookups and invalidations, whatever order the range table keeps,
every entry is a naturally aligned block of `2 ^ p` bytes with
`12 ≤ p < 64`. -/
theorem reachable_tlbPages {rt : RangeTable} {tlb : List TlbSlot} (h : TlbReachable rt tlb) :
    TlbPages tlb :=
  h.pages

/-- The TLB after a read over the flat table is reachable, so it holds only
pages. -/
theorem reachable_tlbPages_after_read :
    TlbReachable frontTable
        (tlbStep frontTable [] (.lookup Sv39 64 flatHart flatTable .supervisor ⟨false⟩ MemPriv.R
          0x1234)) ∧
      TlbPages (tlbStep frontTable [] (.lookup Sv39 64 flatHart flatTable .supervisor ⟨false⟩
        MemPriv.R 0x1234)) := by
  have h0 : TlbReachable frontTable [] := StepSystem.Reachable.of_init rfl
  have h : TlbReachable frontTable
      (tlbStep frontTable [] (.lookup Sv39 64 flatHart flatTable .supervisor ⟨false⟩ MemPriv.R
        0x1234)) :=
    StepSystem.Reachable.of_step h0
      (a := .lookup Sv39 64 flatHart flatTable .supervisor ⟨false⟩ MemPriv.R 0x1234) Sv39_WF
  exact ⟨h, reachable_tlbPages h⟩

/-- The lookup of `tlbMiss` leaves a reachable TLB. -/
lemma TlbReachable.lookup {rt : RangeTable} {sv : SvMode} (hsv : sv.WF) (xlen : ℕ)
    (ctx : PtwContext) (mode : RiscvMode) (attrs : MemAccessAttrs) (req : MemPriv) {s : VmState}
    (hs : TlbReachable rt s.tlb) (VA : UInt64) :
    TlbReachable rt (tlbMissLookup rt sv xlen ctx mode attrs req s VA).2.tlb :=
  StepSystem.Reachable.of_step (a := .lookup sv xlen ctx s.mem mode attrs req VA) hs hsv

/-- **The lookup of `tlbMiss` over a reachable TLB is of the kind the miss
loop assumes**: the TLB it leaves is reachable, and for an address the walk
translates it returns a naturally aligned page holding the address. -/
theorem tlbMissLookup_reachable (rt : RangeTable) {sv : SvMode} (hsv : sv.WF) (xlen : ℕ)
    (ctx : PtwContext) (mode : RiscvMode) (attrs : MemAccessAttrs) (req : MemPriv) {s : VmState}
    (hs : TlbReachable rt s.tlb) (VA : UInt64) :
    TlbReachable rt (tlbMissLookup rt sv xlen ctx mode attrs req s VA).2.tlb ∧
      (VA.toNat < 2 ^ sv.vaBits → ∀ e, (tlbMissLookup rt sv xlen ctx mode attrs req s VA).1 =
        some e → ∃ p < 64, e.CoversAligned VA p) :=
  ⟨hs.lookup hsv xlen ctx mode attrs req VA,
    fun hva _ he => tlbMissLookup_coversAligned rt xlen ctx mode attrs req hsv hs.pages hva he⟩

/-- A read of `0x1234` over the flat table, from the TLB that a first read
left: the entry comes from the TLB. -/
theorem tlbMissLookup_reachable_cached :
    Sv39.WF ∧
      TlbReachable frontTable (tlbMissLookup frontTable Sv39 64 flatHart .supervisor ⟨false⟩
        MemPriv.R ⟨[], flatTable⟩ 0x1234).2.tlb ∧
      TlbReachable frontTable (tlbMissLookup frontTable Sv39 64 flatHart .supervisor ⟨false⟩
        MemPriv.R (tlbMissLookup frontTable Sv39 64 flatHart .supervisor ⟨false⟩ MemPriv.R
          ⟨[], flatTable⟩ 0x1234).2 0x1234).2.tlb ∧
      ((0x1234 : UInt64).toNat < 2 ^ Sv39.vaBits →
        ∀ e, (tlbMissLookup frontTable Sv39 64 flatHart .supervisor ⟨false⟩ MemPriv.R
          (tlbMissLookup frontTable Sv39 64 flatHart .supervisor ⟨false⟩ MemPriv.R
            ⟨[], flatTable⟩ 0x1234).2 0x1234).1 = some e →
          ∃ p < 64, e.CoversAligned 0x1234 p) := by
  have h0 : TlbReachable frontTable (⟨[], flatTable⟩ : VmState).tlb := StepSystem.Reachable.of_init rfl
  have h1 := h0.lookup Sv39_WF 64 flatHart .supervisor ⟨false⟩ MemPriv.R 0x1234
  exact ⟨Sv39_WF, h1, tlbMissLookup_reachable frontTable Sv39_WF 64 flatHart .supervisor ⟨false⟩
    MemPriv.R h1 0x1234⟩

/-- The TLB the first read of that witness leaves holds its page, so the
second read is served from it. -/
example : (tlbMissLookup frontTable Sv39 64 flatHart .supervisor ⟨false⟩ MemPriv.R
    ⟨[], flatTable⟩ 0x1234).2.tlb = flatTLB := by
  decide

/-! ### The miss handler over the TLB -/

/-- **The miss handler maps the access, over the real TLB**: with the lookup
of `tlbMiss` from a reachable TLB, whatever order the range table keeps, for
an access whose every byte address the walk translates (every address for
Sv39 and Sv48, the 32-bit ones for Sv32), the loop of `riscvVMMiss` ends
within as many passes as the access touches 4 KiB pages, every mapping it
makes is sound, and when it ends without a miss the ranges mapped hold every
byte of the access. -/
theorem riscvVMMiss_maps_access_tlb (rt : RangeTable) {sv : SvMode} (hsv : sv.WF) (xlen : ℕ)
    (ctx : PtwContext) (mode : RiscvMode) (attrs : MemAccessAttrs) (req : MemPriv) {s : VmState}
    (hs : TlbReachable rt s.tlb) (address : UInt64) (bytes : UInt32) (hbytes : 0 < bytes.toNat)
    (hva : ∀ i < bytes.toNat, (address + UInt64.ofNat i).toNat < 2 ^ sv.vaBits) :
    (riscvVMMiss (tlbMissLookup rt sv xlen ctx mode attrs req) s address bytes
        (pagesTouched address bytes)).isSome ∧
      ∀ fuel miss maps, riscvVMMiss (tlbMissLookup rt sv xlen ctx mode attrs req) s address bytes
          fuel = some (miss, maps) →
        (∀ m ∈ maps, m.Sound) ∧
        (miss = false → ∀ i < bytes.toNat,
          ∃ m ∈ maps, m.range.Contains (address + UInt64.ofNat i)) := by
  -- the invariant is reachability of the TLB, the addresses those the walk translates
  have hI : ∀ s va r s', TlbReachable rt s.tlb →
      tlbMissLookup rt sv xlen ctx mode attrs req s va = (r, s') → TlbReachable rt s'.tlb := by
    rintro t va r t' ht h
    have h' := ht.lookup hsv xlen ctx mode attrs req va
    rwa [h] at h'
  have hfind : ∀ s va e s', TlbReachable rt s.tlb → va.toNat < 2 ^ sv.vaBits →
      tlbMissLookup rt sv xlen ctx mode attrs req s va = (some e, s') →
        ∃ p < 64, e.CoversAligned va p := by
    rintro t va e t' ht hva h
    exact tlbMissLookup_coversAligned rt xlen ctx mode attrs req hsv ht.pages hva
      (congrArg Prod.fst h)
  exact riscvVMMiss_maps_access _ hI hfind hs address bytes hbytes hva

/-- An access of 4 KiB that wraps past the top of the address space, through
Sv39 over the flat table from the empty TLB. -/
theorem riscvVMMiss_maps_access_tlb_wrapping :
    Sv39.WF ∧ TlbReachable backTable (⟨[], flatTable⟩ : VmState).tlb ∧ 0 < (0x1000 : UInt32).toNat ∧
      (∀ i < (0x1000 : UInt32).toNat,
        ((0xFFFFFFFFFFFFF800 : UInt64) + UInt64.ofNat i).toNat < 2 ^ Sv39.vaBits) ∧
      (riscvVMMiss (tlbMissLookup backTable Sv39 64 flatHart .supervisor ⟨false⟩ MemPriv.R)
          ⟨[], flatTable⟩ 0xFFFFFFFFFFFFF800 0x1000 (pagesTouched 0xFFFFFFFFFFFFF800 0x1000)).isSome ∧
      ∀ fuel miss maps, riscvVMMiss (tlbMissLookup backTable Sv39 64 flatHart .supervisor ⟨false⟩
          MemPriv.R) ⟨[], flatTable⟩ 0xFFFFFFFFFFFFF800 0x1000 fuel = some (miss, maps) →
        (∀ m ∈ maps, m.Sound) ∧
        (miss = false → ∀ i < (0x1000 : UInt32).toNat,
          ∃ m ∈ maps, m.range.Contains (0xFFFFFFFFFFFFF800 + UInt64.ofNat i)) := by
  have hs : TlbReachable backTable (⟨[], flatTable⟩ : VmState).tlb := StepSystem.Reachable.of_init rfl
  have hva : ∀ i < (0x1000 : UInt32).toNat,
      ((0xFFFFFFFFFFFFF800 : UInt64) + UInt64.ofNat i).toNat < 2 ^ Sv39.vaBits :=
    fun i _ => UInt64.toNat_lt _
  exact ⟨Sv39_WF, hs, by decide, hva, riscvVMMiss_maps_access_tlb backTable Sv39_WF 64 flatHart
    .supervisor ⟨false⟩ MemPriv.R hs 0xFFFFFFFFFFFFF800 0x1000 (by decide) hva⟩

/-- The wrapping access takes two passes, one for each 1 GiB page it
touches, and ends without a miss. -/
example : ((riscvVMMiss (tlbMissLookup backTable Sv39 64 flatHart .supervisor ⟨false⟩ MemPriv.R)
    ⟨[], flatTable⟩ 0xFFFFFFFFFFFFF800 0x1000 2).map fun r => (r.1, r.2.length)) =
      some (false, 2) := by
  decide

end RiscvOvpsim
