import Mathlib.Tactic

/-!
The vocabulary shared by every part of the model: the privilege modes of
`riscvMode.h` with their two-bit encoding, the three-bit memory privilege
`memPriv` of the VMI interface, and `getAddressMask` of `riscvStructure.h`.

* `RiscvMode`: `U = 0`, `S = 1`, `H = 2`, `M = 3`, ordered by privilege, so
  that `getModeX`'s "exception cannot be taken to lower-privilege mode" is a
  `max`.
* `MemPriv`: the read, write and execute bits, in the bit positions of both
  `memPriv` and the `priv` fields of PMP configuration bytes and page table
  entries (`R = 1`, `W = 2`, `X = 4`), with the masking operations the source
  applies to them and the subset order in which privilege claims are stated.
* `ModeConfig`: the modes a hart implements, with `riscvHasMode` and
  `riscvGetMinMode`.
* `RiscvPrivVer`: the privileged architecture versions of `riscvVariant.h`,
  in release order.
* `RiscvException`: the exception codes of `riscvExceptionTypes.h`; an
  exception is its `mcause` code and an interrupt `riscv_E_Interrupt` plus its
  number.
-/

namespace RiscvOvpsim

/-! ### Privilege modes -/

/-- `riscvMode`: the privilege modes in their encoding order. -/
inductive RiscvMode where
  | user
  | supervisor
  | hypervisor
  | machine
  deriving DecidableEq, Repr

namespace RiscvMode

/-- The two-bit encoding of a mode. -/
def toNat : RiscvMode → ℕ
  | user => 0
  | supervisor => 1
  | hypervisor => 2
  | machine => 3

/-- A two-bit field (`mstatus.MPP`, `dcsr.prv`, `clicintattr.mode`) read as a
mode; the field is taken modulo four as its width does. -/
def ofBits (n : ℕ) : RiscvMode :=
  match n % 4 with
  | 0 => user
  | 1 => supervisor
  | 2 => hypervisor
  | _ => machine

lemma toNat_injective : Function.Injective toNat := by
  intro a b h
  cases a <;> cases b <;> simp_all [toNat]

@[simp] lemma toNat_lt_four (m : RiscvMode) : m.toNat < 4 := by
  cases m <;> simp [toNat]

@[simp] lemma ofBits_toNat (m : RiscvMode) : ofBits m.toNat = m := by
  cases m <;> rfl

/-- Modes are ordered by their encoding, which is the order of privilege. -/
instance : LinearOrder RiscvMode := LinearOrder.lift' toNat toNat_injective

lemma le_iff_toNat_le {a b : RiscvMode} : a ≤ b ↔ a.toNat ≤ b.toNat := Iff.rfl

lemma lt_iff_toNat_lt {a b : RiscvMode} : a < b ↔ a.toNat < b.toNat := Iff.rfl

@[simp] lemma le_machine (m : RiscvMode) : m ≤ machine := by
  cases m <;> decide

@[simp] lemma user_le (m : RiscvMode) : user ≤ m := by
  cases m <;> decide

end RiscvMode

/-! ### Memory privileges -/

/-- `memPriv` restricted to its access bits: read (`MEM_PRIV_R = 1`), write
(`MEM_PRIV_W = 2`) and execute (`MEM_PRIV_X = 4`). -/
structure MemPriv where
  r : Bool
  w : Bool
  x : Bool
  deriving DecidableEq, Repr

attribute [ext] MemPriv

namespace MemPriv

/-- `MEM_PRIV_NONE`. -/
def none : MemPriv := ⟨false, false, false⟩

/-- `MEM_PRIV_R`. -/
def R : MemPriv := ⟨true, false, false⟩

/-- `MEM_PRIV_W`. -/
def W : MemPriv := ⟨false, true, false⟩

/-- `MEM_PRIV_X`. -/
def X : MemPriv := ⟨false, false, true⟩

/-- `MEM_PRIV_RW`. -/
def RW : MemPriv := ⟨true, true, false⟩

/-- `MEM_PRIV_RWX`. -/
def RWX : MemPriv := ⟨true, true, true⟩

/-- The three low bits of a field, read as a privilege (`priv : 3` of a PMP
configuration byte or of a page table entry). -/
def ofBits (n : ℕ) : MemPriv := ⟨n.testBit 0, n.testBit 1, n.testBit 2⟩

/-- The encoding of a privilege as a three-bit number. -/
def toBits (p : MemPriv) : ℕ := p.r.toNat + 2 * p.w.toNat + 4 * p.x.toNat

/-- Bitwise `&` of two privileges. -/
instance : AndOp MemPriv := ⟨fun p q => ⟨p.r && q.r, p.w && q.w, p.x && q.x⟩⟩

/-- Bitwise `|` of two privileges. -/
instance : OrOp MemPriv := ⟨fun p q => ⟨p.r || q.r, p.w || q.w, p.x || q.x⟩⟩

/-- `priv & ~q`: the bits of `p` outside `q`. -/
def diff (p q : MemPriv) : MemPriv := ⟨p.r && !q.r, p.w && !q.w, p.x && !q.x⟩

/-- The subset order: every access `p` allows is allowed by `q`. -/
instance : LE MemPriv := ⟨fun p q => (p.r → q.r) ∧ (p.w → q.w) ∧ (p.x → q.x)⟩

instance (p q : MemPriv) : Decidable (p ≤ q) :=
  inferInstanceAs (Decidable ((p.r → q.r) ∧ (p.w → q.w) ∧ (p.x → q.x)))

@[simp] lemma and_r (p q : MemPriv) : (p &&& q).r = (p.r && q.r) := rfl
@[simp] lemma and_w (p q : MemPriv) : (p &&& q).w = (p.w && q.w) := rfl
@[simp] lemma and_x (p q : MemPriv) : (p &&& q).x = (p.x && q.x) := rfl
@[simp] lemma or_r (p q : MemPriv) : (p ||| q).r = (p.r || q.r) := rfl
@[simp] lemma or_w (p q : MemPriv) : (p ||| q).w = (p.w || q.w) := rfl
@[simp] lemma or_x (p q : MemPriv) : (p ||| q).x = (p.x || q.x) := rfl
@[simp] lemma diff_r (p q : MemPriv) : (p.diff q).r = (p.r && !q.r) := rfl
@[simp] lemma diff_w (p q : MemPriv) : (p.diff q).w = (p.w && !q.w) := rfl
@[simp] lemma diff_x (p q : MemPriv) : (p.diff q).x = (p.x && !q.x) := rfl

lemma le_def {p q : MemPriv} : p ≤ q ↔ (p.r → q.r) ∧ (p.w → q.w) ∧ (p.x → q.x) := Iff.rfl

@[simp] lemma none_le (p : MemPriv) : none ≤ p := by
  simp [le_def, none]

@[simp] lemma le_RWX (p : MemPriv) : p ≤ RWX := by
  simp [le_def, RWX]

lemma le_refl' (p : MemPriv) : p ≤ p := by
  simp [le_def]

lemma le_trans' {p q r : MemPriv} (h₁ : p ≤ q) (h₂ : q ≤ r) : p ≤ r := by
  rw [le_def] at *
  exact ⟨fun h => h₂.1 (h₁.1 h), fun h => h₂.2.1 (h₁.2.1 h), fun h => h₂.2.2 (h₁.2.2 h)⟩

lemma and_le_left (p q : MemPriv) : p &&& q ≤ p := by
  simp only [le_def, and_r, and_w, and_x, Bool.and_eq_true]
  tauto

/-- The test `priv & req == req` is `req ≤ priv`. -/
lemma and_eq_right_iff_le {p q : MemPriv} : p &&& q = q ↔ q ≤ p := by
  rw [MemPriv.ext_iff, le_def, and_r, and_w, and_x]
  simp only [Bool.and_eq_right_iff_imp]

lemma le_none_iff {p : MemPriv} : p ≤ none ↔ p = none := by
  rw [le_def, MemPriv.ext_iff]
  simp [none]

lemma le_diff_X {p q : MemPriv} : q ≤ p.diff X ↔ q ≤ p ∧ q.x = false := by
  simp only [le_def, diff_r, diff_w, diff_x, X]
  cases q.x <;> simp

end MemPriv

/-! ### Implemented modes -/

/-- The modes a hart implements, from the `U` and `S` bits of
`configInfo.arch`; Machine mode is always implemented, Hypervisor mode never. -/
structure ModeConfig where
  hasU : Bool
  hasS : Bool
  deriving DecidableEq, Repr

/-- `riscvHasMode`. -/
def riscvHasMode (mc : ModeConfig) : RiscvMode → Bool
  | .user => mc.hasU
  | .supervisor => mc.hasS
  | .hypervisor => false
  | .machine => true

/-- `riscvGetMinMode`. -/
def riscvGetMinMode (mc : ModeConfig) : RiscvMode :=
  if mc.hasU then .user else if mc.hasS then .supervisor else .machine

@[simp] lemma riscvHasMode_machine (mc : ModeConfig) : riscvHasMode mc .machine = true := rfl

lemma riscvHasMode_riscvGetMinMode (mc : ModeConfig) :
    riscvHasMode mc (riscvGetMinMode mc) = true := by
  unfold riscvGetMinMode
  split_ifs with hU hS <;> simp [riscvHasMode, *]

/-- The minimum mode is below every implemented mode. -/
lemma riscvGetMinMode_le {mc : ModeConfig} {m : RiscvMode} (h : riscvHasMode mc m = true) :
    riscvGetMinMode mc ≤ m := by
  unfold riscvGetMinMode
  cases m <;> simp only [riscvHasMode] at h <;> split_ifs <;> simp_all [RiscvMode.le_iff_toNat_le,
    RiscvMode.toNat]

/-! ### Privileged architecture versions -/

/-- `riscvPrivVer`: the versions of the privileged architecture. -/
inductive RiscvPrivVer where
  | v1_10
  | v1_11
  | v20190405
  | v1_12
  deriving DecidableEq, Repr

namespace RiscvPrivVer

/-- The position of a version in release order. -/
def toNat : RiscvPrivVer → ℕ
  | v1_10 => 0
  | v1_11 => 1
  | v20190405 => 2
  | v1_12 => 3

instance : LE RiscvPrivVer := ⟨fun a b => a.toNat ≤ b.toNat⟩

instance : LT RiscvPrivVer := ⟨fun a b => a.toNat < b.toNat⟩

instance (a b : RiscvPrivVer) : Decidable (a ≤ b) := inferInstanceAs (Decidable (a.toNat ≤ b.toNat))

instance (a b : RiscvPrivVer) : Decidable (a < b) := inferInstanceAs (Decidable (a.toNat < b.toNat))

end RiscvPrivVer

/-! ### Exception codes -/

namespace RiscvException

/-- `riscv_E_InstructionAccessFault`. -/
def InstructionAccessFault : ℕ := 1

/-- `riscv_E_LoadAccessFault`. -/
def LoadAccessFault : ℕ := 5

/-- `riscv_E_StoreAMOAccessFault`. -/
def StoreAMOAccessFault : ℕ := 7

/-- `riscv_E_InstructionPageFault`. -/
def InstructionPageFault : ℕ := 12

/-- `riscv_E_LoadPageFault`. -/
def LoadPageFault : ℕ := 13

/-- `riscv_E_StoreAMOPageFault`. -/
def StoreAMOPageFault : ℕ := 15

/-- `riscv_E_Interrupt`: interrupt `i` is the exception `riscv_E_Interrupt + i`. -/
def Interrupt : ℕ := 0x40

end RiscvException

/-! ### Address masks -/

/-- The `Uns64` mask `(1ULL << k) - 1` of the low `k` bits, for `k < 64`. -/
lemma lowMask_toNat {k : ℕ} (hk : k < 64) :
    (((1 : UInt64) <<< k.toUInt64) - 1).toNat = 2 ^ k - 1 := by
  have hle : 2 ^ k < 2 ^ 64 := Nat.pow_lt_pow_right (by norm_num) hk
  have hshift : ((1 : UInt64) <<< k.toUInt64).toNat = 2 ^ k := by
    simp only [UInt64.toNat_shiftLeft, Nat.toUInt64_eq, UInt64.toNat_ofNat', UInt64.toNat_one,
      Nat.one_shiftLeft]
    rw [Nat.mod_eq_of_lt (show k < 2 ^ 64 by omega), Nat.mod_eq_of_lt hk, Nat.mod_eq_of_lt hle]
  have hone : (1 : UInt64) ≤ (1 : UInt64) <<< k.toUInt64 := by
    rw [UInt64.le_iff_toNat_le, hshift, UInt64.toNat_one]
    exact Nat.one_le_two_pow
  rw [UInt64.toNat_sub_of_le _ _ hone, hshift, UInt64.toNat_one]

/-- `getAddressMask`: the mask of an address of `bits` bits. -/
def getAddressMask (bits : ℕ) : UInt64 :=
  if bits = 64 then 0xFFFFFFFFFFFFFFFF else ((1 : UInt64) <<< bits.toUInt64) - 1

lemma getAddressMask_toNat {bits : ℕ} (h : bits ≤ 64) :
    (getAddressMask bits).toNat = 2 ^ bits - 1 := by
  unfold getAddressMask
  split_ifs with h64
  · subst h64
    rfl
  · exact lowMask_toNat (by omega)

end RiscvOvpsim
